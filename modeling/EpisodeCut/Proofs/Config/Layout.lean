import EpisodeCut.Config.Parser
import EpisodeCut.Proofs.Text.Span

/-!
# Layout between tokens

Blanks and comments may stand between the tokens of a configuration (`Gap`). Skipping goes over all
of them and stops at the next token (`skipBlank_gap`), and what comes next after a gap is known from
the first character that is no layout (`head?_eq_false_of_skipBlank`).
-/

set_option autoImplicit false

namespace EpisodeCut.Config

/-- A piece of layout: a blank character, or a comment to the end of its line. -/
inductive Filler where
  | blank (c : Char) (layout : Text.isLayout c = true)
  | comment (line : List Char) (whole : '\n' ∉ line)

/-- The text of a piece of layout. -/
def Filler.text : Filler → List Char
  | .blank c _ => [c]
  | .comment line _ => '#' :: line ++ ['\n']

/-- Layout between two tokens. -/
abbrev Gap : Type :=
  List Filler

/-- The text of layout between two tokens. -/
def Gap.text (gap : Gap) : List Char :=
  gap.flatMap Filler.text

/-- Characters with which a token may begin: neither blanks nor the beginning of a comment. -/
def isSolid (c : Char) : Bool :=
  !Text.isLayout c && c != '#'

theorem skipBlank_of_isSolid {c : Char} (solid : isSolid c = true) (s : List Char) :
    skipBlank (c :: s) = c :: s := by
  simp only [isSolid, Bool.and_eq_true, Bool.not_eq_true', bne_iff_ne, ne_eq] at solid
  obtain ⟨hlayout, hcomment⟩ := solid
  rw [skipBlank, if_neg (by simp [hlayout]), if_neg (by simpa using hcomment)]

theorem skipComment_append {line : List Char} (whole : '\n' ∉ line) (s : List Char) :
    skipComment (line ++ '\n' :: s) = skipBlank s := by
  induction line with
  | nil => rfl
  | cons c line ih =>
    rw [List.mem_cons, not_or] at whole
    rw [List.cons_append, skipComment, if_neg (by simpa using Ne.symm whole.1), ih whole.2]

/-- Skipping goes over blanks. -/
theorem skipBlank_blanks {blanks : List Char} (layout : ∀ c ∈ blanks, Text.isLayout c = true)
    (s : List Char) : skipBlank (blanks ++ s) = skipBlank s := by
  induction blanks with
  | nil => rfl
  | cons c blanks ih =>
    rw [List.cons_append, skipBlank, if_pos (layout c List.mem_cons_self)]
    exact ih fun d hd => layout d (List.mem_cons_of_mem c hd)

/-- Skipping goes over a gap. -/
theorem skipBlank_gap (gap : Gap) (s : List Char) : skipBlank (gap.text ++ s) = skipBlank s := by
  induction gap with
  | nil => rfl
  | cons filler gap ih =>
    rw [Gap.text, List.flatMap_cons, List.append_assoc]
    rw [Gap.text] at ih
    cases filler with
    | blank c layout =>
      rw [Filler.text, List.singleton_append, skipBlank, if_pos layout, ih]
    | comment line whole =>
      -- The comment is skipped up to its line break, and then the rest of the gap.
      have hblank : ¬Text.isLayout '#' = true := by decide
      rw [Filler.text, List.cons_append, List.cons_append, List.append_assoc,
        List.singleton_append, skipBlank, if_neg hblank,
        if_pos (beq_self_eq_true '#'), skipComment_append whole, ih]

mutual

theorem isSolid_head?_skipBlank : ∀ (s : List Char), ∀ c ∈ (skipBlank s).head?, isSolid c = true
  | [], c, h => by simp [skipBlank] at h
  | d :: rest, c, h => by
    rw [skipBlank] at h
    split at h
    · exact isSolid_head?_skipBlank rest c h
    · next hlayout =>
      split at h
      · exact isSolid_head?_skipComment rest c h
      · next hcomment =>
        cases h
        simpa [isSolid, hlayout] using hcomment

theorem isSolid_head?_skipComment :
    ∀ (s : List Char), ∀ c ∈ (skipComment s).head?, isSolid c = true
  | [], c, h => by simp [skipComment] at h
  | d :: rest, c, h => by
    rw [skipComment] at h
    split at h
    · exact isSolid_head?_skipBlank rest c h
    · exact isSolid_head?_skipComment rest c h

end

theorem skipBlank_skipBlank (s : List Char) : skipBlank (skipBlank s) = skipBlank s := by
  cases h : skipBlank s with
  | nil => rfl
  | cons c rest =>
    apply skipBlank_of_isSolid
    apply isSolid_head?_skipBlank s
    rw [h]
    rfl

/-- If the next token begins with no character of a class, the text begins with none, unless the
class contains layout. -/
theorem head?_eq_false_of_skipBlank {p : Char → Bool} {s : List Char}
    (solid : ∀ c, p c = true → isSolid c = true)
    (h : ∀ c ∈ (skipBlank s).head?, p c = false) : ∀ c ∈ s.head?, p c = false := by
  intro c hc
  cases s with
  | nil => cases hc
  | cons d rest =>
    cases hc
    cases hp : p c with
    | false => rfl
    | true =>
      rw [skipBlank_of_isSolid (solid c hp)] at h
      rw [← hp]
      exact h c rfl

theorem isSolid_of_isAlphanum {c : Char} (h : c.isAlphanum = true) : isSolid c = true := by
  rw [isSolid, Bool.and_eq_true, Bool.not_eq_true', bne_iff_ne]
  constructor
  · cases hlayout : Text.isLayout c with
    | false => rfl
    | true =>
      simp only [Text.isLayout, Bool.or_eq_true, beq_iff_eq] at hlayout
      rcases hlayout with (((rfl | rfl) | rfl) | rfl) | rfl <;> cases h
  · rintro rfl
    cases h

theorem isSolid_of_isDigit {c : Char} (h : c.isDigit = true) : isSolid c = true :=
  isSolid_of_isAlphanum (by rw [Char.isAlphanum, h, Bool.or_true])

theorem isSolid_of_isAlpha {c : Char} (h : c.isAlpha = true) : isSolid c = true :=
  isSolid_of_isAlphanum (by rw [Char.isAlphanum, h, Bool.true_or])

theorem isSolid_of_isNameStart {c : Char} (h : isNameStart c = true) : isSolid c = true := by
  simp only [isNameStart, Bool.or_eq_true, beq_iff_eq] at h
  rcases h with ((h | rfl) | rfl) | rfl
  · exact isSolid_of_isAlphanum h
  · decide
  · decide
  · decide

/-! ## Single characters -/

theorem eat?_of_skipBlank {c : Char} {s rest : List Char} (h : skipBlank s = c :: rest) :
    eat? c s = some rest := by
  rw [eat?, h]
  exact if_pos (beq_self_eq_true c)

theorem eat?_eq_none {c : Char} {s : List Char} (h : (skipBlank s).head? ≠ some c) :
    eat? c s = none := by
  rw [eat?]
  split
  · rfl
  · next d rest hs =>
    rw [hs] at h
    exact if_neg fun hd => h (congrArg some (beq_iff_eq.1 hd))

theorem expect_of_skipBlank {c : Char} {s rest : List Char} (h : skipBlank s = c :: rest) :
    expect c s = .ok rest := by
  rw [expect, eat?_of_skipBlank h]

end EpisodeCut.Config
