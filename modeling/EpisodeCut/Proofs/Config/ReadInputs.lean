import EpisodeCut.Proofs.Config.Grammar
import EpisodeCut.Proofs.Config.Names

/-!
# Reading inputs

The inputs of a group that the grammar derives are read to what the derivation says
(`InputsText.readInputs_eq`). A reader stops before the layout that follows, in the midst of it, or
after it; so what it leaves is known up to layout. A colon may belong to an index or separate two
inputs, which is decided by what stands behind it (`FollowsInput`).
-/

set_option autoImplicit false

namespace EpisodeCut.Config

open Text

variable {rules : Rules}

/-! ## File names -/

theorem isWhiteSpace_last_eq_false (name : FileName) :
    ∀ c ∈ name.text.getLast?, isWhiteSpace c = false := by
  intro c hc
  rw [FileName.text, List.getLast?_cons] at hc
  cases hlast : name.more.getLast? with
  | none =>
    rw [hlast] at hc
    cases hc
    exact isWhiteSpace_eq_false_of_isNameStart name.starts
  | some last =>
    rw [hlast] at hc
    cases hc
    have hadmitted := name.admitted last (List.mem_of_getLast? hlast)
    obtain ⟨hspace, htab⟩ := name.trimmed last hlast
    simp only [isNameChar, Bool.or_eq_true, beq_iff_eq, hspace, htab, or_false] at hadmitted
    have hminus : isWhiteSpace '-' = false := by decide
    rcases hadmitted with h | rfl
    · exact isWhiteSpace_eq_false_of_isNameStart h
    · exact hminus

theorem isNameChar_of_mem_text {name : FileName} {c : Char} (h : c ∈ name.text) :
    isNameChar c = true := by
  rcases List.mem_cons.1 h with rfl | h
  · rw [isNameChar, name.starts, Bool.true_or, Bool.true_or, Bool.true_or]
  · exact name.admitted c h

/-- Name characters before the next token are blanks, if the next token begins with none. -/
theorem isLayout_of_mem_takeWhile {s : List Char}
    (stop : ∀ c ∈ (skipBlank s).head?, isNameChar c = false) :
    ∀ c ∈ s.takeWhile isNameChar, isLayout c = true := by
  induction s with
  | nil => exact fun c hc => absurd hc List.not_mem_nil
  | cons d rest ih =>
    cases hname : isNameChar d with
    | false =>
      rw [List.takeWhile_cons_of_neg (by simp [hname])]
      exact fun c hc => absurd hc List.not_mem_nil
    | true =>
      -- A token that begins with a name character is excluded, and a comment begins with none.
      have hlayout : isLayout d = true := by
        cases hsolid : isSolid d with
        | true =>
          rw [skipBlank_of_isSolid hsolid] at stop
          rw [stop d rfl] at hname
          cases hname
        | false =>
          have hcomment : d ≠ '#' := by
            rintro rfl
            cases hname
          simpa [isSolid, hcomment] using hsolid
      rw [skipBlank, if_pos hlayout] at stop
      rw [List.takeWhile_cons_of_pos hname]
      exact List.forall_mem_cons.2 ⟨hlayout, ih stop⟩

/-- A file name is read back. Blanks after it are read with it, but do not belong to it. -/
theorem readFileName?_text (name : FileName) {s : List Char}
    (stop : ∀ c ∈ (skipBlank s).head?, isNameChar c = false) :
    ∃ rest, readFileName? (name.text ++ s) = some (String.ofList name.text, rest) ∧
      skipBlank rest = skipBlank s := by
  have hblanks := isLayout_of_mem_takeWhile stop
  have hrest : skipBlank (s.dropWhile isNameChar) = skipBlank s := by
    rw [← skipBlank_blanks hblanks, List.takeWhile_append_dropWhile]
  have hinside : ∀ c ∈ name.text, isNameChar c = true := fun c hc => isNameChar_of_mem_text hc
  have htrim : trimRight (name.text ++ s.takeWhile isNameChar) = name.text :=
    dropRightWhile_append_eq (isWhiteSpace_last_eq_false name) fun c hc =>
      isWhiteSpace_of_isLayout (hblanks c hc)
  have hstart : (name.text ++ s).head?.any isNameStart = true := name.starts
  -- The blanks are read up to the next token, and trimming takes them off again.
  refine ⟨s.dropWhile isNameChar, ?_, hrest⟩
  rw [readFileName?, if_pos hstart, List.takeWhile_append_of_pos hinside,
    List.dropWhile_append_of_pos hinside, htrim]

/-! ## Sources -/

theorem isNameStart_eq_false {c : Char} (h : isNameChar c = false) : isNameStart c = false := by
  simp only [isNameChar, Bool.or_eq_false_iff] at h
  exact h.1.1.1

theorem readFileName?_eq_none {s : List Char} (h : ∀ c ∈ s.head?, isNameStart c = false) :
    readFileName? s = none := by
  cases s with
  | nil => rfl
  | cons c rest => rw [readFileName?, if_neg (by simp [h c rfl])]

/-- A source is read back, whether it is written or left out. -/
theorem SourceText.readSource_eq {kind : MediaKind} {s rest : List Char}
    {source : Option SourceRef} (h : SourceText rules kind s source rest)
    (stop : ∀ c ∈ (skipBlank rest).head?, isNameChar c = false ∧ c ≠ '^') :
    ∃ rest', readSource kind s = (source, rest') ∧ skipBlank rest' = skipBlank rest := by
  cases h with
  | omitted allowed =>
    have hprevious : ¬(kind = .frame ∧ (skipBlank s).head? = some '^') := fun h =>
      (stop '^' h.2).2 rfl
    have hname : readFileName? (skipBlank s) = none :=
      readFileName?_eq_none fun c hc => isNameStart_eq_false (stop c hc).1
    refine ⟨skipBlank s, ?_, skipBlank_skipBlank s⟩
    rw [readSource, if_neg hprevious, hname]
  | file name text =>
    obtain ⟨rest', hread, hrest⟩ := readFileName?_text name fun c hc => (stop c hc).1
    have hskip : skipBlank s = name.text ++ rest :=
      text.skipBlank_cons (isSolid_of_isNameStart name.starts)
    have hprevious : ¬(kind = .frame ∧ (name.text ++ rest).head? = some '^') := by
      rintro ⟨-, h⟩
      have hstart := name.starts
      rw [Option.some.inj h] at hstart
      cases hstart
    refine ⟨rest', ?_, hrest⟩
    rw [readSource, hskip, if_neg hprevious, hread]
  | previous text =>
    refine ⟨rest, ?_, rfl⟩
    rw [readSource, text.skipBlank_cons (by decide), if_pos ⟨rfl, rfl⟩]
    rfl

/-! ## Indices -/

/-- Text that begins with a numeral begins with a digit. -/
theorem NumeralText.any_isDigit_head? {s rest : List Char} {n : Nat} (h : NumeralText s n rest) :
    s.head?.any Char.isDigit = true := by
  obtain ⟨digits, nonempty, inside, -, rfl⟩ := h
  obtain ⟨d, more, hd, htext⟩ := Numeral.exists_cons_of_digits nonempty inside rest
  rw [htext]
  exact hd

theorem skipBlank_of_digit {s : List Char} (h : s.head?.any Char.isDigit = true) :
    skipBlank s = s := by
  cases s with
  | nil => rfl
  | cons c rest => exact skipBlank_of_isSolid (isSolid_of_isDigit h) rest

theorem head?_ne_of_digit {s : List Char} {c : Char} (h : s.head?.any Char.isDigit = true)
    (hc : c.isDigit = false) : s.head? ≠ some c := by
  intro heq
  rw [heq] at h
  rw [Option.any_some, hc] at h
  cases h

theorem lastWord?_eq_some_iff {s rest : List Char} :
    lastWord? s = some rest ↔
      s = ['l', 'a', 's', 't'] ++ rest ∧ rest.head?.any Char.isAlphanum = false := by
  constructor
  · intro h
    unfold lastWord? at h
    split at h
    · split at h
      · cases h
      · next hword =>
        cases h
        exact ⟨rfl, by simpa using hword⟩
    · cases h
  · rintro ⟨rfl, hword⟩
    exact if_neg (by simp [hword])

theorem minusOne?_eq_some_iff {s rest : List Char} :
    minusOne? s = some rest ↔ s = ['-', '1'] ++ rest ∧ rest.head?.any Char.isDigit = false := by
  constructor
  · intro h
    unfold minusOne? at h
    split at h
    · split at h
      · cases h
      · next hnumber =>
        cases h
        exact ⟨rfl, by simpa using hnumber⟩
    · cases h
  · rintro ⟨rfl, hnumber⟩
    exact if_neg (by simp [hnumber])

theorem lastFrame?_of_isDigit {kind : MediaKind} {d : Char} (h : d.isDigit = true)
    (rest : List Char) : lastFrame? kind (d :: rest) = none := by
  have hl : d ≠ 'l' := by
    rintro rfl
    cases h
  have hminus : d ≠ '-' := by
    rintro rfl
    cases h
  have hword : lastWord? (d :: rest) = none := by
    rw [lastWord?]
    rintro rest' h
    exact hl (List.cons.inj h).1
  have hone : minusOne? (d :: rest) = none := by
    rw [minusOne?]
    rintro rest' h
    exact hminus (List.cons.inj h).1
  rw [lastFrame?, hword, hone]
  split <;> rfl

/-- A numeral that fits is read as an index, leading zeros included. -/
theorem NumeralText.readIndex_eq {n : UInt32} {s rest : List Char}
    (h : NumeralText s n.toNat rest) (stop : ∀ c ∈ rest.head?, c.isDigit = false)
    (kind : MediaKind) :
    startsIndex kind s = true ∧ readIndex kind s = .ok (.index n, rest) := by
  have hdigit := h.any_isDigit_head?
  obtain ⟨digits, nonempty, inside, value, rfl⟩ := h
  have hsmall : n.toNat < UInt32.size := n.toNat_lt_size
  obtain ⟨d, more, hd, htext⟩ := Numeral.exists_cons_of_digits nonempty inside rest
  have hlast : lastFrame? kind (digits ++ rest) = none := by
    rw [htext]
    exact lastFrame?_of_isDigit hd more
  constructor
  · rw [htext]
    simp [startsIndex, hd]
  · simp only [readIndex, hlast, takeWhile_append_eq inside stop, dropWhile_append_eq inside stop,
      value]
    rw [if_neg (head?_ne_of_digit hdigit rfl), if_pos hsmall, UInt32.ofNat_toNat]

theorem readIndex_last {s : List Char} (stop : ∀ c ∈ s.head?, c.isAlphanum = false) :
    startsIndex .frame (['l', 'a', 's', 't'] ++ s) = true ∧
      readIndex .frame (['l', 'a', 's', 't'] ++ s) = .ok (.last, s) := by
  have hnone : ¬s.head?.any Char.isAlphanum = true := by
    cases s with
    | nil => exact Bool.false_ne_true
    | cons c rest => simp [stop c rfl]
  have hword : lastWord? (['l', 'a', 's', 't'] ++ s) = some s := if_neg hnone
  constructor
  · rw [startsIndex, hword]
    exact Bool.or_true _
  · simp only [readIndex, lastFrame?, hword]
    rfl

theorem readIndex_minusOne {s : List Char} (stop : ∀ c ∈ s.head?, c.isAlphanum = false) :
    startsIndex .frame (['-', '1'] ++ s) = true ∧
      readIndex .frame (['-', '1'] ++ s) = .ok (.last, s) := by
  have hnone : ¬s.head?.any Char.isDigit = true := by
    cases s with
    | nil => exact Bool.false_ne_true
    | cons c rest =>
      have hc := stop c rfl
      rw [Char.isAlphanum, Bool.or_eq_false_iff] at hc
      simp [hc.2]
  have hone : minusOne? (['-', '1'] ++ s) = some s := if_neg hnone
  have hword : lastWord? (['-', '1'] ++ s) = none := rfl
  constructor
  · rfl
  · simp only [readIndex, lastFrame?, hword, hone]
    rfl

/-- An index is meant as an index, and it is read back. -/
theorem IndexText.readIndex_eq {kind : MediaKind} {s rest : List Char} {n : FrameNumber}
    (h : IndexText kind s n rest) (stop : ∀ c ∈ rest.head?, c.isAlphanum = false) :
    startsIndex kind (skipBlank s) = true ∧ readIndex kind (skipBlank s) = .ok (n, rest) := by
  cases h with
  | number n before text =>
    rw [before.skipBlank_eq, skipBlank_of_digit text.any_isDigit_head?]
    apply text.readIndex_eq
    intro c hc
    have hc := stop c hc
    rw [Char.isAlphanum, Bool.or_eq_false_iff] at hc
    exact hc.2
  | last text =>
    rw [text.skipBlank_eq, List.cons_append, skipBlank_of_isSolid (by decide)]
    exact readIndex_last stop
  | minusOne text =>
    rw [text.skipBlank_eq, List.cons_append, skipBlank_of_isSolid (by decide)]
    exact readIndex_minusOne stop

/-- An index with its colon is read back from where it begins. -/
theorem IndexText.readIndexField_eq {kind : MediaKind} {s rest : List Char} {n : FrameNumber}
    (h : IndexText kind s n rest) (stop : ∀ c ∈ (skipBlank rest).head?, c.isAlphanum = false)
    {r : List Char} (begins : skipBlank r = ':' :: s) :
    readIndexField kind r = .ok (some n, rest) := by
  obtain ⟨hstarts, hread⟩ := h.readIndex_eq
    (head?_eq_false_of_skipBlank (fun c => isSolid_of_isAlphanum) stop)
  simp only [readIndexField, eat?_of_skipBlank begins]
  rw [if_pos hstarts, hread]
  rfl

/-- What may follow an input without an index: the end of the group, or a colon and the next input,
which begins with the first letter of the word for a kind. -/
def FollowsInput (s : List Char) : Prop :=
  (∃ t, skipBlank s = ']' :: t) ∨
    ∃ t c rest, skipBlank s = ':' :: t ∧ skipBlank t = c :: rest ∧ c ∈ ['a', 'v', 'f']

theorem FollowsInput.head? {s : List Char} (follows : FollowsInput s) :
    ∀ c ∈ (skipBlank s).head?, c = ':' ∨ c = ']' := by
  intro c hc
  rcases follows with ⟨t, h⟩ | ⟨t, d, rest, h, -, -⟩
  · rw [h] at hc
    exact Or.inr (Option.some.inj hc).symm
  · rw [h] at hc
    exact Or.inl (Option.some.inj hc).symm

/-- The word for a kind is never taken for an index. -/
theorem startsIndex_eq_false (kind : MediaKind) {c : Char} (h : c ∈ ['a', 'v', 'f'])
    (rest : List Char) : startsIndex kind (c :: rest) = false := by
  simp only [List.mem_cons, List.not_mem_nil, or_false] at h
  rcases h with rfl | rfl | rfl <;> exact Bool.and_false _

/-- Where an index is left out, none is read. -/
theorem readIndexField_none (kind : MediaKind) {r s : List Char} (follows : FollowsInput s)
    (begins : skipBlank r = skipBlank s) : readIndexField kind r = .ok (none, r) := by
  rw [FollowsInput, ← begins] at follows
  rcases follows with ⟨t, hclose⟩ | ⟨t, c, rest, hcolon, hnext, hletter⟩
  · -- The group ends, and there is no colon.
    have heat : eat? ':' r = none := eat?_eq_none (by rw [hclose]; simp)
    rw [readIndexField, heat]
  · -- The colon is eaten, but the next input stands behind it, so it is given back.
    simp only [readIndexField, eat?_of_skipBlank hcolon, hnext]
    rw [startsIndex_eq_false kind hletter, if_neg Bool.false_ne_true]

/-! ## Kinds -/

theorem lookup_kindWords : ∀ entry ∈ kindWords, kindWords.lookup entry.1 = some entry.2 := by
  decide

theorem isAlpha_kindWords : ∀ entry ∈ kindWords, entry.1.all Char.isAlpha = true := by
  decide

theorem head?_kindWords :
    ∀ entry ∈ kindWords, entry.1.head? ∈ [some 'a', some 'v', some 'f'] := by
  decide

/-- The word for a kind begins with one of three letters. -/
theorem exists_cons_of_mem_kindWords {word : List Char} {kind : MediaKind}
    (known : (word, kind) ∈ kindWords) : ∃ c more, word = c :: more ∧ c ∈ ['a', 'v', 'f'] := by
  have hhead := head?_kindWords _ known
  cases word with
  | nil => simp at hhead
  | cons c more => exact ⟨c, more, rfl, by simpa using hhead⟩

theorem isSolid_of_mem_letters {c : Char} (h : c ∈ ['a', 'v', 'f']) : isSolid c = true := by
  simp only [List.mem_cons, List.not_mem_nil, or_false] at h
  rcases h with rfl | rfl | rfl <;> decide

/-- An input begins with the first letter of the word for a kind. -/
theorem KindText.exists_letter {s rest : List Char} {kind : MediaKind} (h : KindText s kind rest) :
    ∃ c t, skipBlank s = c :: t ∧ c ∈ ['a', 'v', 'f'] := by
  obtain ⟨word, known, text⟩ := h
  obtain ⟨c, more, rfl, hletter⟩ := exists_cons_of_mem_kindWords known
  exact ⟨c, more ++ rest, text.skipBlank_cons (isSolid_of_mem_letters hletter), hletter⟩

/-- The word for a kind is read back. -/
theorem KindText.readKind_eq {s rest : List Char} {kind : MediaKind} (h : KindText s kind rest)
    (stop : ∀ c ∈ (skipBlank rest).head?, c.isAlpha = false) :
    readKind s = .ok (kind, rest) := by
  obtain ⟨word, known, text⟩ := h
  have hskip : skipBlank s = word ++ rest := by
    obtain ⟨c, more, rfl, hletter⟩ := exists_cons_of_mem_kindWords known
    exact text.skipBlank_cons (isSolid_of_mem_letters hletter)
  have hstop : ∀ c ∈ rest.head?, c.isAlpha = false :=
    head?_eq_false_of_skipBlank (fun c => isSolid_of_isAlpha) stop
  have halpha : ∀ c ∈ word, c.isAlpha = true :=
    List.all_eq_true.1 (isAlpha_kindWords _ known)
  simp only [readKind, hskip, takeWhile_append_eq halpha hstop, dropWhile_append_eq halpha hstop,
    lookup_kindWords _ known]

/-! ## Inputs -/

theorem InputText.exists_letter {kindOnly : Bool} {s rest : List Char} {input : Input}
    (h : InputText rules kindOnly s input rest) :
    ∃ c t, skipBlank s = c :: t ∧ c ∈ ['a', 'v', 'f'] := by
  cases h with
  | kindOnly word => exact word.exists_letter
  | sourced word colon file => exact word.exists_letter
  | indexed word colon file indexColon index => exact word.exists_letter

theorem InputsText.exists_letter {s rest : List Char} {inputs : List Input}
    (h : InputsText rules s inputs rest) : ∃ c t, skipBlank s = c :: t ∧ c ∈ ['a', 'v', 'f'] := by
  cases h with
  | last text => exact text.exists_letter
  | cons first allowed colon following => exact first.exists_letter

/-- An input is read back up to layout, whatever follows it; only its kind has to be followed by the
end of the group. -/
theorem InputText.readInput_eq {kindOnly : Bool} {s rest : List Char} {input : Input}
    (h : InputText rules kindOnly s input rest) (follows : FollowsInput rest)
    (ends : kindOnly = true → ∃ t, skipBlank rest = ']' :: t) :
    ∃ rest', readInput s = .ok (input, rest') ∧ skipBlank rest' = skipBlank rest := by
  have hstop : ∀ c ∈ (skipBlank rest).head?, c.isAlphanum = false := fun c hc => by
    rcases follows.head? c hc with rfl | rfl <;> rfl
  cases h with
  | @kindOnly _ _ kind word =>
    obtain ⟨t, hclose⟩ := ends rfl
    have hkind := word.readKind_eq fun c hc => by
      have hc := hstop c hc
      rw [Char.isAlphanum, Bool.or_eq_false_iff] at hc
      exact hc.1
    have hcolon : eat? ':' rest = none := eat?_eq_none (by rw [hclose]; simp)
    refine ⟨rest, ?_, rfl⟩
    simp only [readInput, hkind, hcolon, bind, Except.bind]
  | @sourced _ afterKind afterColon _ kind source word colon file =>
    have hcolon := colon.skipBlank_cons (by decide)
    have hkind := word.readKind_eq (by rw [hcolon]; rintro c ⟨⟩; rfl)
    obtain ⟨afterSource, hsource, hafter⟩ := file.readSource_eq fun c hc => by
      rcases follows.head? c hc with rfl | rfl <;> decide
    -- Behind the source there is no index: a colon there belongs to the next input.
    have hindex := readIndexField_none kind follows hafter
    refine ⟨afterSource, ?_, hafter⟩
    simp only [readInput, hkind, eat?_of_skipBlank hcolon, hsource, hindex, bind, Except.bind]
  | @indexed _ afterKind afterColon afterSource beforeIndex _ kind source n word colon file
      indexColon index =>
    have hcolon := colon.skipBlank_cons (by decide)
    have hindexColon := indexColon.skipBlank_cons (by decide)
    have hkind := word.readKind_eq (by rw [hcolon]; rintro c ⟨⟩; rfl)
    obtain ⟨afterSource', hsource, hafter⟩ := file.readSource_eq fun c hc => by
      rw [hindexColon] at hc
      cases hc
      decide
    rw [hindexColon] at hafter
    have hindex := index.readIndexField_eq hstop hafter
    refine ⟨rest, ?_, rfl⟩
    simp only [readInput, hkind, eat?_of_skipBlank hcolon, hsource, hindex, bind, Except.bind]

/-- An input is read, and then the others if a colon follows. -/
theorem readInputs_step (s : List Char) :
    readInputs s = (readInput s).bind fun found =>
      match eat? ':' found.2 with
      | none => .ok ([found.1], found.2)
      | some more => (readInputs more).map fun others => (found.1 :: others.1, others.2) := by
  rw [readInputs]
  split
  · next hfirst => rw [hfirst]; rfl
  · next hfirst =>
    simp only [hfirst, Except.bind]
    split
    · next hend => simp only [hend]
    · next more hmore =>
      simp only [hmore]
      cases readInputs more <;> rfl

theorem readInputs_last {s rest : List Char} {first : Input}
    (hfirst : readInput s = .ok (first, rest)) (hend : eat? ':' rest = none) :
    readInputs s = .ok ([first], rest) := by
  rw [readInputs_step, hfirst]
  simp only [Except.bind, hend]

theorem readInputs_cons {s rest more rest' : List Char} {first : Input} {others : List Input}
    (hfirst : readInput s = .ok (first, rest)) (hmore : eat? ':' rest = some more)
    (hothers : readInputs more = .ok (others, rest')) :
    readInputs s = .ok (first :: others, rest') := by
  rw [readInputs_step, hfirst]
  simp only [Except.bind, hmore, hothers, Except.map]

/-- The inputs of a group are read back up to the end of the group. -/
theorem InputsText.readInputs_eq {s rest : List Char} {inputs : List Input}
    (h : InputsText rules s inputs rest) (noneInside : rules.kindOnlyInside = false)
    (close : ∃ t, skipBlank rest = ']' :: t) :
    ∃ rest', readInputs s = .ok (inputs, rest') ∧ skipBlank rest' = skipBlank rest := by
  induction h with
  | last text =>
    obtain ⟨rest', hread, hrest⟩ := text.readInput_eq (.inl close) fun _ => close
    obtain ⟨t, hclose⟩ := close
    have hend : eat? ':' rest' = none := by
      apply eat?_eq_none
      rw [hrest, hclose]
      simp
    exact ⟨rest', readInputs_last hread hend, hrest⟩
  | @cons s afterFirst more rest kindOnly input others first allowed colon following ih =>
    obtain ⟨c, t, hnext, hletter⟩ := following.exists_letter
    have hcolon := colon.skipBlank_cons (by decide)
    have hsourced : kindOnly = true → ∃ t, skipBlank afterFirst = ']' :: t := by
      intro honly
      rw [allowed honly] at noneInside
      cases noneInside
    obtain ⟨afterFirst', hfirst, hafter⟩ :=
      first.readInput_eq (.inr ⟨more, c, t, hcolon, hnext, hletter⟩) hsourced
    obtain ⟨rest', hothers, hrest⟩ := ih close
    rw [hcolon] at hafter
    exact ⟨rest', readInputs_cons hfirst (eat?_of_skipBlank hafter) hothers, hrest⟩

end EpisodeCut.Config
