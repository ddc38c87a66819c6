import EpisodeCut.Proofs.Config.ReadTimes

/-!
# Derivable configurations are accepted

A text that the grammar derives is read to what the derivation says (`ConfigText.readGroups_eq`), if
no input that is only its kind stands before another input: the reader takes a colon after a kind
for the colon of the file, and gives back a colon only where an index might have stood. Each part is
read up to layout, so what stands behind it is known from the next token.
-/

set_option autoImplicit false

namespace EpisodeCut.Config

variable {rules : Rules}

/-! ## Groups -/

theorem GroupText.skipBlank_eq {s rest : List Char} {specs : List InputSpec}
    (h : GroupText rules s specs rest) : ∃ t, skipBlank s = '[' :: t := by
  obtain ⟨opening, -, -, -⟩ := h
  exact ⟨_, opening.skipBlank_cons (by decide)⟩

/-- A group is read back from where it begins, up to layout. -/
theorem GroupText.readGroup_eq {r s rest : List Char} {specs : List InputSpec}
    (h : GroupText rules s specs rest) (noneInside : rules.kindOnlyInside = false)
    (follows : FollowsGroup rest) (begins : skipBlank r = skipBlank s) :
    ∃ rest', readGroup r = .ok (specs, rest') ∧ skipBlank rest' = skipBlank rest := by
  obtain ⟨opening, heads, closing, timing⟩ := h
  rw [opening.skipBlank_cons (by decide)] at begins
  have hclose := closing.skipBlank_cons (by decide)
  obtain ⟨afterInputs, hinputs, hafter⟩ := heads.readInputs_eq noneInside ⟨_, hclose⟩
  rw [hclose] at hafter
  obtain ⟨rest', htimes, hrest⟩ := timing.readTimes_eq follows
  refine ⟨rest', ?_, hrest⟩
  simp only [readGroup, expect_of_skipBlank begins, expect_of_skipBlank hafter, hinputs, htimes,
    bind, Except.bind]

/-! ## Configurations -/

theorem readGroups_end {s : List Char} (hend : skipBlank s = []) : readGroups s = .ok [] := by
  rw [readGroups]
  split
  · rfl
  · next h => rw [hend] at h; cases h

/-- A group is read, and then what follows it. -/
theorem readGroups_open {s tail : List Char} (hopen : skipBlank s = '[' :: tail) :
    readGroups s = (readGroup ('[' :: tail)).bind fun found =>
      (readGroups found.2).map (found.1 ++ ·) := by
  rw [readGroups]
  split
  · next h => rw [hopen] at h; cases h
  · next h =>
    rw [hopen] at h
    cases h
    rw [if_pos rfl]
    split
    · next hgroup => rw [hgroup]; rfl
    · next specs rest hgroup =>
      simp only [hgroup, Except.bind]
      cases readGroups rest <;> rfl

theorem readGroups_other {s tail : List Char} {c : Char} (hs : skipBlank s = c :: tail)
    (hc : c ≠ '[') : readGroups s = .error ⟨.expectedSegment, c :: tail⟩ := by
  rw [readGroups]
  split
  · next h => rw [hs] at h; cases h
  · next h =>
    rw [hs] at h
    cases h
    rw [if_neg hc]

/-- Layout before a configuration does not matter. -/
theorem readGroups_congr {r s : List Char} (begins : skipBlank r = skipBlank s) :
    readGroups r = readGroups s := by
  cases hs : skipBlank s with
  | nil => rw [readGroups_end hs, readGroups_end (begins.trans hs)]
  | cons c tail =>
    by_cases hc : c = '['
    · subst hc
      rw [readGroups_open hs, readGroups_open (begins.trans hs)]
    · rw [readGroups_other hs hc, readGroups_other (begins.trans hs) hc]

theorem readGroups_cons {s tail rest : List Char} {specs others : List InputSpec}
    (hopen : skipBlank s = '[' :: tail) (hgroup : readGroup ('[' :: tail) = .ok (specs, rest))
    (hothers : readGroups rest = .ok others) : readGroups s = .ok (specs ++ others) := by
  rw [readGroups_open hopen, hgroup, Except.bind, hothers, Except.map]

theorem ConfigText.followsGroup {s : List Char} {specs : List InputSpec}
    (h : ConfigText rules s specs) : FollowsGroup s := by
  intro c hc
  cases h with
  | nil blank =>
    rw [blank.skipBlank_eq] at hc
    cases hc
  | cons first following =>
    obtain ⟨t, hopen⟩ := first.skipBlank_eq
    rw [hopen] at hc
    cases hc
    rfl

/-- A configuration is read back from where it begins, up to layout. -/
theorem ConfigText.readGroups_eq {r s : List Char} {specs : List InputSpec}
    (h : ConfigText rules s specs) (noneInside : rules.kindOnlyInside = false)
    (begins : skipBlank r = skipBlank s) : readGroups r = .ok specs := by
  induction h generalizing r with
  | nil blank => exact readGroups_end (begins.trans blank.skipBlank_eq)
  | cons first following ih =>
    obtain ⟨t, hopen⟩ := first.skipBlank_eq
    obtain ⟨rest', hgroup, hrest⟩ := first.readGroup_eq noneInside following.followsGroup
      ((skipBlank_skipBlank r).trans begins)
    have hr := begins.trans hopen
    rw [hr] at hgroup
    exact readGroups_cons hr hgroup (ih hrest)

end EpisodeCut.Config
