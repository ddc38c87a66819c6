import EpisodeCut.Proofs.Text.Span
import EpisodeCut.Text.Position
import Mathlib.Data.List.TakeWhile
import Mathlib.Data.Set.Function
import Mathlib.Data.String.Basic
import Mathlib.Order.Bounds.Basic

/-!
# What positions name

Line and column count lines and characters, but what they name is a byte: the one to which one gets by
going to the start of the line and on by the characters before the column (`Position.Lands`). A
position that is computed from an offset names the last character boundary that is not after it, so
positions of different boundaries differ, and it shows the rest of its line
(`Position.atByte_identifies`).
-/

set_option autoImplicit false

namespace EpisodeCut.Position

open Text

/-! ## Going to a line and column -/

/-- In the line with the number `line` one has passed `column - 1` characters. Then one stands at
`byte`, and `ahead` is left of the line. -/
def Lands (text : List Char) (line column byte : Nat) (ahead : List Char) : Prop :=
  ∃ earlier passed later, text.splitOn '\n' = earlier ++ (passed ++ ahead) :: later ∧
    line = earlier.length + 1 ∧ column = passed.length + 1 ∧
    byte = String.utf8Len (earlier.flatMap (· ++ ['\n'])) + String.utf8Len passed

variable {text ahead beyond before rest : List Char} {line column byte other : Nat}

/-- There is only one place to which a line and a column lead. -/
theorem Lands.unique (h : Lands text line column byte ahead)
    (hother : Lands text line column other beyond) : byte = other := by
  obtain ⟨earlier, passed, later, hlines, hline, hcolumn, rfl⟩ := h
  obtain ⟨earlier', passed', later', hlines', hline', hcolumn', rfl⟩ := hother
  rw [hlines] at hlines'
  obtain ⟨rfl, hrest⟩ := List.append_inj hlines' (by omega)
  have hcurrent : passed ++ ahead = passed' ++ beyond := (List.cons.inj hrest).1
  obtain ⟨rfl, -⟩ := List.append_inj hcurrent (by omega)
  rfl

theorem lastLine_eq_self (absent : '\n' ∉ before) : lastLine before = before := by
  rw [lastLine, takeWhile_ne_eq_self fun h => absent (List.mem_reverse.1 h), List.reverse_reverse]

/-- Before the last line feed nothing belongs to the last line. -/
theorem lastLine_cons {c : Char} (h : '\n' ∈ c :: before) :
    lastLine (c :: before) = lastLine before := by
  by_cases hbefore : '\n' ∈ before
  · have hshort : (before.reverse.takeWhile (· != '\n')).length ≠ before.reverse.length := by
      intro hall
      have hsame : before.reverse.takeWhile (· != '\n') = before.reverse :=
        (List.takeWhile_prefix _).eq_of_length hall
      have hnone := List.takeWhile_eq_self_iff.1 hsame '\n' (List.mem_reverse.2 hbefore)
      simp at hnone
    rw [lastLine, lastLine, List.reverse_cons, List.takeWhile_append, if_neg hshort]
  · have hc : c = '\n' := by simpa [hbefore, eq_comm] using h
    subst hc
    rw [lastLine, List.reverse_cons,
      takeWhile_ne_append_cons (fun h => hbefore (List.mem_reverse.1 h)), List.reverse_reverse,
      lastLine_eq_self hbefore]

/-- The first line of a text ends at the first line feed. -/
theorem exists_splitOn_eq_cons (s : List Char) :
    ∃ later, s.splitOn '\n' = s.takeWhile (· != '\n') :: later := by
  induction s with
  | nil => exact ⟨[], rfl⟩
  | cons c s ih =>
    obtain ⟨later, hlater⟩ := ih
    by_cases hc : c = '\n'
    · subst hc
      exact ⟨s.splitOn '\n', by simp [List.splitOn_cons_eq_if_modifyHead]⟩
    · exact ⟨later, by simp [List.splitOn_cons_eq_if_modifyHead, hlater, hc]⟩

/-- The lines of a text at a point of it: complete ones, and the one in which the point lies. -/
theorem exists_lines (before rest : List Char) :
    ∃ earlier later,
      (before ++ rest).splitOn '\n' =
        earlier ++ (lastLine before ++ rest.takeWhile (· != '\n')) :: later ∧
      earlier.length = before.count '\n' ∧
      before = earlier.flatMap (· ++ ['\n']) ++ lastLine before := by
  induction before with
  | nil =>
    obtain ⟨later, hlater⟩ := exists_splitOn_eq_cons rest
    exact ⟨[], later, hlater, rfl, rfl⟩
  | cons c before ih =>
    obtain ⟨earlier, later, hlines, hcount, hbefore⟩ := ih
    rw [List.cons_append, List.splitOn_cons_eq_if_modifyHead, hlines]
    by_cases hc : c = '\n'
    · -- A line feed completes an empty line.
      subst hc
      rw [lastLine_cons List.mem_cons_self]
      refine ⟨[] :: earlier, later, by simp, by simp [hcount], ?_⟩
      rw [List.flatMap_cons, List.append_assoc, ← hbefore]
      rfl
    · have hcount' : (c :: before).count '\n' = before.count '\n' := by simp [hc]
      rw [hcount']
      cases earlier with
      | nil =>
        -- No line is complete yet, and the first one is longer by the character.
        have habsent : '\n' ∉ before := List.count_eq_zero.1 hcount.symm
        have habsent' : '\n' ∉ c :: before := by simp [habsent, Ne.symm hc]
        rw [lastLine_eq_self habsent, lastLine_eq_self habsent']
        exact ⟨[], later, by simp [hc], hcount, rfl⟩
      | cons first earlier =>
        have hmem : '\n' ∈ before := by
          rw [← List.count_pos_iff, ← hcount]
          exact Nat.succ_pos _
        rw [lastLine_cons (List.mem_cons_of_mem c hmem)]
        refine ⟨(c :: first) :: earlier, later, by simp [hc], hcount, ?_⟩
        have hmore : ((c :: first) :: earlier).flatMap (· ++ ['\n']) =
            c :: (first :: earlier).flatMap (· ++ ['\n']) := rfl
        rw [hmore, List.cons_append, ← hbefore]

/-- A point of a text is named by its line and column. -/
theorem lands_between (before rest : List Char) :
    Lands (before ++ rest) (between before rest).line (between before rest).column
      (String.utf8Len before) (rest.takeWhile (· != '\n')) := by
  obtain ⟨earlier, later, hlines, hcount, hbefore⟩ := exists_lines before rest
  refine ⟨earlier, lastLine before, later, hlines, ?_, rfl, ?_⟩
  · rw [hcount]
    rfl
  · rw [← String.utf8Len_append, ← hbefore]

/-! ## Fragments -/

/-- What is left of a line is shown without its trailing white space; nothing at all is called the
end of the input. -/
def Shows (ahead : List Char) (fragment : String) : Prop :=
  ∃ shown blanks, ahead = shown ++ blanks ∧ (∀ c ∈ blanks, isWhiteSpace c = true) ∧
    (∀ c ∈ shown.getLast?, isWhiteSpace c = false) ∧
    fragment = if shown = [] then endOfInput else String.ofList shown

theorem shows_fragmentOf (rest : List Char) :
    Shows (rest.takeWhile (· != '\n')) (fragmentOf rest) := by
  obtain ⟨blanks, hahead, hblanks⟩ :=
    exists_eq_dropRightWhile_append isWhiteSpace (rest.takeWhile (· != '\n'))
  refine ⟨_, blanks, hahead, hblanks, getLast?_dropRightWhile, ?_⟩
  rw [fragmentOf, trimRight]
  cases dropRightWhile isWhiteSpace (rest.takeWhile (· != '\n')) with
  | nil => rfl
  | cons c shown => rfl

/-! ## Boundaries -/

/-- The bytes of a text at which no character is divided. -/
def boundaries (text : String) : Set Nat :=
  {byte | String.Pos.Raw.IsValid text ⟨byte⟩}

theorem mem_boundaries_iff {text : String} :
    byte ∈ boundaries text ↔
      ∃ before rest, text.toList = before ++ rest ∧ byte = String.utf8Len before := by
  refine String.Pos.Raw.isValid_iff_exists_append.trans ?_
  constructor
  · rintro ⟨before, rest, rfl, hbyte⟩
    refine ⟨before.toList, rest.toList, String.toList_append, ?_⟩
    rw [← String.utf8ByteSize_ofList, String.ofList_toList]
    exact congrArg String.Pos.Raw.byteIdx hbyte
  · rintro ⟨before, rest, htext, rfl⟩
    refine ⟨String.ofList before, String.ofList rest, ?_, ?_⟩
    · rw [← String.ofList_append, ← htext, String.ofList_toList]
    · rw [← String.utf8ByteSize_ofList]
      rfl

theorem utf8Len_splitAtByte_le (offset : Nat) (text : List Char) :
    String.utf8Len (splitAtByte offset text).1 ≤ offset := by
  induction text generalizing offset with
  | nil => exact Nat.zero_le offset
  | cons c text ih =>
    rw [splitAtByte]
    split
    · next hc =>
      have hrest := ih (offset - c.utf8Size)
      simp only [String.utf8Len_cons]
      omega
    · exact Nat.zero_le offset

/-- No division before an offset is later. -/
theorem utf8Len_le_splitAtByte {offset : Nat} (h : String.utf8Len before ≤ offset) :
    String.utf8Len before ≤ String.utf8Len (splitAtByte offset (before ++ rest)).1 := by
  induction before generalizing offset with
  | nil => exact Nat.zero_le _
  | cons c before ih =>
    rw [String.utf8Len_cons] at h
    have hrest : String.utf8Len before ≤
        String.utf8Len (splitAtByte (offset - c.utf8Size) (before ++ rest)).1 := ih (by omega)
    rw [List.cons_append, splitAtByte, if_pos (by omega)]
    simp only [String.utf8Len_cons]
    omega

/-- A text is divided at the last boundary that is not after an offset. -/
theorem isGreatest_splitAtByte (text : String) (offset : Nat) :
    IsGreatest {byte | byte ∈ boundaries text ∧ byte ≤ min offset text.utf8ByteSize}
      (String.utf8Len (splitAtByte offset text.toList).1) := by
  have htext := splitAtByte_append offset text.toList
  have hsize : text.utf8ByteSize = String.utf8Len text.toList := by
    rw [← String.utf8ByteSize_ofList, String.ofList_toList]
  refine ⟨⟨mem_boundaries_iff.2 ⟨_, _, htext.symm, rfl⟩, ?_⟩, ?_⟩
  · refine Nat.le_min.2 ⟨utf8Len_splitAtByte_le offset text.toList, ?_⟩
    rw [hsize]
    exact String.utf8Len_le_of_prefix ⟨_, htext⟩
  · rintro byte ⟨hbyte, hle⟩
    obtain ⟨before, rest, htext, rfl⟩ := mem_boundaries_iff.1 hbyte
    rw [htext]
    exact utf8Len_le_splitAtByte (Nat.le_trans hle (Nat.min_le_left _ _))

theorem lands_atByte (text : List Char) (offset : Nat) :
    Lands text (atByte text offset).line (atByte text offset).column
      (String.utf8Len (splitAtByte offset text).1)
      ((splitAtByte offset text).2.takeWhile (· != '\n')) := by
  have h := lands_between (splitAtByte offset text).1 (splitAtByte offset text).2
  rw [splitAtByte_append] at h
  exact h

/-- The line and column at an offset lead to the last character boundary that is not after the offset,
and the rest of the line there is shown. Different boundaries have different lines or columns. -/
theorem atByte_identifies (text : String) :
    (∀ offset, ∃ byte ahead,
      IsGreatest {byte | byte ∈ boundaries text ∧ byte ≤ min offset text.utf8ByteSize} byte ∧
      Lands text.toList (atByte text.toList offset).line (atByte text.toList offset).column byte
        ahead ∧
      Shows ahead (atByte text.toList offset).fragment) ∧
    Set.InjOn (fun byte => ((atByte text.toList byte).line, (atByte text.toList byte).column))
      (boundaries text) := by
  refine ⟨?_, ?_⟩
  · intro offset
    exact ⟨_, _, isGreatest_splitAtByte text offset, lands_atByte text.toList offset,
      shows_fragmentOf _⟩
  · -- At a boundary the text is divided there, and a line and a column lead to one place only.
    have hself : ∀ byte ∈ boundaries text,
        String.utf8Len (splitAtByte byte text.toList).1 = byte := by
      intro byte hbyte
      have hgreatest := isGreatest_splitAtByte text byte
      refine Nat.le_antisymm (utf8Len_splitAtByte_le byte text.toList) (hgreatest.2 ⟨hbyte, ?_⟩)
      exact Nat.le_min.2 ⟨Nat.le_refl byte, hbyte.le_rawEndPos⟩
    intro byte hbyte other hother heq
    obtain ⟨hline, hcolumn⟩ := Prod.mk.inj heq
    have hlands := lands_atByte text.toList byte
    rw [hline, hcolumn, hself byte hbyte] at hlands
    have hlands' := lands_atByte text.toList other
    rw [hself other hother] at hlands'
    exact hlands.unique hlands'

/-- An offset inside a character counts as the one at which the character begins. -/
example : atByte "é\n ñx \n".toList 5 = ⟨2, 2, "ñx"⟩ := by decide +kernel

end EpisodeCut.Position
