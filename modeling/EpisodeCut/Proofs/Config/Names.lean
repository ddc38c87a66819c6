import EpisodeCut.Config.Parser
import EpisodeCut.Proofs.Text.Span

/-!
# File names in configurations

Whatever is read as a file name has the shape of one (`isFileName_of_readFileName?`): it begins with
a character that may begin a name, consists of name characters, and does not end in a blank. In
particular no name contains a hash sign, which begins a comment.
-/

set_option autoImplicit false

namespace EpisodeCut.Config

open Text

/-! ## Characters -/

theorem toNat_of_isAlphanum {c : Char} (h : c.isAlphanum = true) :
    48 ≤ c.toNat ∧ c.toNat ≤ 122 := by
  have hupper : c.isUpper = true → 65 ≤ c.toNat ∧ c.toNat ≤ 90 := of_decide_eq_true
  have hlower : c.isLower = true → 97 ≤ c.toNat ∧ c.toNat ≤ 122 := fun h =>
    (Bool.and_eq_true_iff.1 h).imp of_decide_eq_true of_decide_eq_true
  have hdigit : c.isDigit = true → 48 ≤ c.toNat ∧ c.toNat ≤ 57 := fun h =>
    (Bool.and_eq_true_iff.1 h).imp of_decide_eq_true of_decide_eq_true
  rw [Char.isAlphanum, Bool.or_eq_true] at h
  rcases h with h | h
  · rcases Bool.or_eq_true_iff.1 h with h | h
    · have hcode := hupper h
      omega
    · have hcode := hlower h
      omega
  · have hcode := hdigit h
    omega

theorem isWhiteSpace_eq_false_of_isNameStart {c : Char} (h : isNameStart c = true) :
    isWhiteSpace c = false := by
  simp only [isNameStart, Bool.or_eq_true, beq_iff_eq] at h
  rcases h with ((h | rfl) | rfl) | rfl
  · have hcode := toNat_of_isAlphanum h
    simp only [isWhiteSpace, whiteSpaceRanges, List.any_cons, List.any_nil, Bool.or_false,
      Bool.or_eq_false_iff, Bool.and_eq_false_iff, decide_eq_false_iff_not]
    omega
  · decide
  · decide
  · decide

/-- White space among the characters of names is layout. -/
theorem isLayout_of_isNameChar {c : Char} (hname : isNameChar c = true)
    (hblank : isWhiteSpace c = true) : isLayout c = true := by
  simp only [isNameChar, Bool.or_eq_true, beq_iff_eq] at hname
  rcases hname with ((hstart | rfl) | rfl) | rfl
  · rw [isWhiteSpace_eq_false_of_isNameStart hstart] at hblank
    cases hblank
  · exact absurd hblank (by decide)
  · decide
  · decide

theorem hash_not_mem_of_named {file : String} (h : ∀ c ∈ file.toList, isNameChar c = true) :
    '#' ∉ file.toList := by
  intro hmem
  exact absurd (h '#' hmem) (by decide)

/-! ## Names -/

/-- The shape of a file name. -/
structure IsFileName (file : String) : Prop where
  nonempty : file ≠ ""
  starts : ∀ c ∈ file.toList.head?, isNameStart c = true
  admitted : ∀ c ∈ file.toList, isNameChar c = true
  trimmed : ∀ c ∈ file.toList.getLast?, isWhiteSpace c = false

theorem isFileName_of_readFileName? {s rest : List Char} {name : String}
    (h : readFileName? s = some (name, rest)) : IsFileName name := by
  unfold readFileName? at h
  split at h
  · next hstart =>
    cases h
    cases s with
    | nil => cases hstart
    | cons first more =>
      have hfirst : isNameStart first = true := hstart
      have hchar : isNameChar first = true := by
        rw [isNameChar, hfirst, Bool.true_or, Bool.true_or, Bool.true_or]
      -- The first character is no blank, so it is kept.
      have hkept : trimRight ((first :: more).takeWhile isNameChar) =
          first :: trimRight (more.takeWhile isNameChar) := by
        rw [List.takeWhile_cons_of_pos hchar]
        exact dropRightWhile_cons (isWhiteSpace_eq_false_of_isNameStart hfirst) _
      refine ⟨?_, ?_, ?_, ?_⟩
      · rw [hkept]
        intro hempty
        have hlist := congrArg String.toList hempty
        rw [String.toList_ofList] at hlist
        cases hlist
      · rw [hkept, String.toList_ofList]
        intro c hc
        cases hc
        exact hfirst
      · rw [String.toList_ofList]
        intro c hc
        exact List.all_eq_true.1 List.all_takeWhile c (mem_of_mem_dropRightWhile hc)
      · rw [String.toList_ofList]
        exact getLast?_dropRightWhile
  · cases h

end EpisodeCut.Config
