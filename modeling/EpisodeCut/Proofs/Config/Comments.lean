import EpisodeCut.Proofs.Config.Recognized

/-!
# Comments

A comment runs from a hash sign to the end of its line. A configuration is accepted if and only if it
is without its comments, and then it specifies the same (`parse_withoutComments_iff`). Where a hash
sign stood, a line break or the end of the text comes next when the comment is gone, and no reader
tells these three apart. So every reader commutes with taking the comments away, for what it reads,
for what it leaves, and for where it stops.
-/

set_option autoImplicit false

namespace EpisodeCut.Config

mutual

/-- The text without its comments. The line breaks behind them stay. -/
def uncommented : List Char → List Char
  | [] => []
  | c :: rest => if c == '#' then afterComment rest else c :: uncommented rest

/-- The text without the comment in which it begins and without the comments that follow. -/
def afterComment : List Char → List Char
  | [] => []
  | c :: rest => if c == '\n' then c :: uncommented rest else afterComment rest

end

/-- A configuration without its comments. -/
def withoutComments (text : String) : String :=
  String.ofList (uncommented text.toList)

theorem uncommented_cons {c : Char} (h : c ≠ '#') (s : List Char) :
    uncommented (c :: s) = c :: uncommented s := by
  rw [uncommented, if_neg (by simpa using h)]

theorem uncommented_hash (s : List Char) : uncommented ('#' :: s) = afterComment s := by
  rw [uncommented, if_pos (beq_self_eq_true '#')]

/-- A comment that is taken away leaves a line break, or nothing. -/
theorem head?_afterComment (s : List Char) : ∀ c ∈ (afterComment s).head?, c = '\n' := by
  induction s with
  | nil => exact fun c hc => by cases hc
  | cons d rest ih =>
    rw [afterComment]
    split
    · next hbreak =>
      intro c hc
      cases hc
      exact beq_iff_eq.1 hbreak
    · exact ih

/-! ## What comes next -/

section Next

variable {p : Char → Bool} (hash : p '#' = false) (newline : p '\n' = false)

include newline in
theorem eq_false_of_head?_afterComment (s : List Char) :
    ∀ c ∈ (afterComment s).head?, p c = false := by
  intro c hc
  rw [head?_afterComment s c hc, newline]

include hash newline

/-- Whether a character of a class comes next does not depend on comments, if the class has neither
hash signs nor line breaks. -/
theorem any_head?_uncommented (s : List Char) : (uncommented s).head?.any p = s.head?.any p := by
  cases s with
  | nil => rfl
  | cons c rest =>
    by_cases hc : c = '#'
    · subst hc
      have hstop := eq_false_of_head?_afterComment newline rest
      rw [uncommented_hash, List.head?_cons, Option.any_some, hash]
      cases hhead : (afterComment rest).head? with
      | none => rfl
      | some d => exact hstop d hhead
    · rw [uncommented_cons hc, List.head?_cons, List.head?_cons]

theorem takeWhile_uncommented (s : List Char) :
    (uncommented s).takeWhile p = s.takeWhile p := by
  induction s with
  | nil => rfl
  | cons c rest ih =>
    by_cases hc : c = '#'
    · subst hc
      rw [uncommented_hash, List.takeWhile_cons_of_neg (by simp [hash])]
      exact Text.takeWhile_eq_nil_of_head? (eq_false_of_head?_afterComment newline rest)
    · rw [uncommented_cons hc, List.takeWhile_cons, List.takeWhile_cons, ih]

theorem dropWhile_uncommented (s : List Char) :
    (uncommented s).dropWhile p = uncommented (s.dropWhile p) := by
  induction s with
  | nil => rfl
  | cons c rest ih =>
    by_cases hc : c = '#'
    · subst hc
      rw [List.dropWhile_cons_of_neg (by simp [hash]), uncommented_hash]
      exact Text.dropWhile_eq_self_of_head? (eq_false_of_head?_afterComment newline rest)
    · rw [uncommented_cons hc, List.dropWhile_cons, List.dropWhile_cons, ih]
      split
      · rfl
      · rw [uncommented_cons hc]

end Next

/-- A character other than a hash sign and a line break comes next without the comments if and only
if it does with them. -/
theorem uncommented_eq_cons_iff {c : Char} (hash : c ≠ '#') (newline : c ≠ '\n')
    {s t : List Char} :
    uncommented s = c :: t ↔ ∃ rest, s = c :: rest ∧ uncommented rest = t := by
  constructor
  · intro h
    cases s with
    | nil => cases h
    | cons d rest =>
      by_cases hd : d = '#'
      · subst hd
        rw [uncommented_hash] at h
        exact absurd (head?_afterComment rest c (by rw [h]; rfl)) newline
      · rw [uncommented_cons hd, List.cons.injEq] at h
        obtain ⟨rfl, ht⟩ := h
        exact ⟨rest, rfl, ht⟩
  · rintro ⟨rest, rfl, rfl⟩
    exact uncommented_cons hash rest

/-- Likewise for a word. -/
theorem uncommented_eq_append_iff {word : List Char} (plain : ∀ c ∈ word, c ≠ '#' ∧ c ≠ '\n')
    {s t : List Char} :
    uncommented s = word ++ t ↔ ∃ rest, s = word ++ rest ∧ uncommented rest = t := by
  induction word generalizing s with
  | nil => simp
  | cons c word ih =>
    obtain ⟨⟨hash, newline⟩, hword⟩ := List.forall_mem_cons.1 plain
    rw [List.cons_append, uncommented_eq_cons_iff hash newline]
    constructor
    · rintro ⟨rest, rfl, hrest⟩
      obtain ⟨rest', rfl, ht⟩ := (ih hword).1 hrest
      exact ⟨rest', rfl, ht⟩
    · rintro ⟨rest, rfl, ht⟩
      exact ⟨word ++ rest, rfl, (ih hword).2 ⟨rest, rfl, ht⟩⟩

/-- The next character and what stands behind it. -/
theorem head?_uncommented_iff {c : Char} (hash : c ≠ '#') (newline : c ≠ '\n') (s : List Char) :
    (uncommented s).head? = some c ↔ s.head? = some c := by
  rw [List.head?_eq_some_iff, List.head?_eq_some_iff]
  constructor
  · rintro ⟨t, ht⟩
    obtain ⟨rest, hs, -⟩ := (uncommented_eq_cons_iff hash newline).1 ht
    exact ⟨rest, hs⟩
  · rintro ⟨rest, rfl⟩
    exact ⟨_, uncommented_cons hash rest⟩

theorem drop_one_uncommented {c : Char} (hash : c ≠ '#') {s : List Char} (h : s.head? = some c) :
    (uncommented s).drop 1 = uncommented (s.drop 1) := by
  obtain ⟨rest, rfl⟩ := List.head?_eq_some_iff.1 h
  rw [uncommented_cons hash]
  rfl

mutual

theorem skipBlank_uncommented : ∀ s : List Char,
    skipBlank (uncommented s) = uncommented (skipBlank s)
  | [] => rfl
  | c :: rest => by
    by_cases hc : c = '#'
    · subst hc
      rw [uncommented_hash, skipBlank_afterComment rest, skipBlank, if_neg (by decide),
        if_pos (by decide)]
    · have hhash : ¬(c == '#') = true := by simpa using hc
      rw [uncommented_cons hc, skipBlank, skipBlank, if_neg hhash, if_neg hhash,
        skipBlank_uncommented rest]
      split
      · rfl
      · rw [uncommented_cons hc]

theorem skipBlank_afterComment : ∀ s : List Char,
    skipBlank (afterComment s) = uncommented (skipComment s)
  | [] => rfl
  | c :: rest => by
    rw [afterComment, skipComment]
    split
    · next hbreak =>
      obtain rfl := beq_iff_eq.1 hbreak
      rw [skipBlank, if_pos (by decide), skipBlank_uncommented rest]
    · exact skipBlank_afterComment rest

end

/-! ## Results without comments -/

/-- A refusal of the text without its comments. -/
def Stop.uncommented (stop : Stop) : Stop :=
  ⟨stop.fault, Config.uncommented stop.rest⟩

/-- The result of a reader of the text without its comments: the same is read or refused, and what is
left has no comments. -/
def uncommentedResult {α : Type} :
    Except Stop (α × List Char) → Except Stop (α × List Char)
  | .ok (a, rest) => .ok (a, uncommented rest)
  | .error stop => .error stop.uncommented

section Results

variable {α β : Type}

/-- Readers one after another. -/
theorem uncommentedResult_bind {result : Except Stop (α × List Char)}
    {next bare : α × List Char → Except Stop (β × List Char)}
    (h : ∀ a rest, result = .ok (a, rest) →
      bare (a, uncommented rest) = uncommentedResult (next (a, rest))) :
    (uncommentedResult result).bind bare = uncommentedResult (result.bind next) := by
  cases result with
  | error stop => rfl
  | ok found => exact h found.1 found.2 rfl

theorem uncommentedResult_map (result : Except Stop (α × List Char)) (f : α → β) :
    (uncommentedResult result).map (fun found => (f found.1, found.2)) =
      uncommentedResult (result.map fun found => (f found.1, found.2)) := by
  cases result <;> rfl

theorem mapError_ok (f : Stop → Stop) (a : α) :
    (Except.ok a : Except Stop α).mapError f = .ok a :=
  rfl

theorem mapError_error (f : Stop → Stop) (stop : Stop) :
    (Except.error stop : Except Stop α).mapError f = .error (f stop) :=
  rfl

end Results

/-! ## Single characters -/

theorem eat?_uncommented {c : Char} (hash : c ≠ '#') (newline : c ≠ '\n') (s : List Char) :
    eat? c (uncommented s) = (eat? c s).map uncommented := by
  ext t
  have hiff {r u : List Char} : eat? c r = some u ↔ skipBlank r = c :: u :=
    ⟨skipBlank_of_eat?, eat?_of_skipBlank⟩
  rw [hiff, skipBlank_uncommented, uncommented_eq_cons_iff hash newline, Option.map_eq_some_iff]
  simp only [hiff]

/-- The character that has to come next is sought with and without comments alike. -/
theorem expect_uncommented {c : Char} (hash : c ≠ '#') (newline : c ≠ '\n') (s : List Char) :
    expect c (uncommented s) = ((expect c s).map uncommented).mapError Stop.uncommented := by
  rw [expect, expect, eat?_uncommented hash newline]
  cases eat? c s with
  | none => rw [skipBlank_uncommented]; rfl
  | some rest => rfl

/-! ## Inputs -/

theorem readKind_uncommented (s : List Char) :
    readKind (uncommented s) = uncommentedResult (readKind s) := by
  simp only [readKind, skipBlank_uncommented, takeWhile_uncommented (p := Char.isAlpha) rfl rfl,
    dropWhile_uncommented (p := Char.isAlpha) rfl rfl]
  split
  · rfl
  · split <;> rfl

theorem readFileName?_uncommented (s : List Char) :
    readFileName? (uncommented s) =
      (readFileName? s).map fun found => (found.1, uncommented found.2) := by
  have hstart : isNameStart '#' = false ∧ isNameStart '\n' = false := by decide
  have hchar : isNameChar '#' = false ∧ isNameChar '\n' = false := by decide
  rw [readFileName?, readFileName?, any_head?_uncommented hstart.1 hstart.2,
    takeWhile_uncommented hchar.1 hchar.2, dropWhile_uncommented hchar.1 hchar.2]
  split <;> rfl

/-- The word for the last frame ends at a comment as it does at a line break. -/
theorem lastWord?_uncommented (s : List Char) :
    lastWord? (uncommented s) = (lastWord? s).map uncommented := by
  ext t
  rw [lastWord?_eq_some_iff, uncommented_eq_append_iff (by simp), Option.map_eq_some_iff]
  constructor
  · rintro ⟨⟨rest, rfl, rfl⟩, hword⟩
    rw [any_head?_uncommented rfl rfl] at hword
    exact ⟨rest, lastWord?_eq_some_iff.2 ⟨rfl, hword⟩, rfl⟩
  · rintro ⟨rest, hlast, rfl⟩
    obtain ⟨rfl, hword⟩ := lastWord?_eq_some_iff.1 hlast
    rw [any_head?_uncommented rfl rfl]
    exact ⟨⟨rest, rfl, rfl⟩, hword⟩

theorem minusOne?_uncommented (s : List Char) :
    minusOne? (uncommented s) = (minusOne? s).map uncommented := by
  ext t
  rw [minusOne?_eq_some_iff, uncommented_eq_append_iff (by simp), Option.map_eq_some_iff]
  constructor
  · rintro ⟨⟨rest, rfl, rfl⟩, hnumber⟩
    rw [any_head?_uncommented rfl rfl] at hnumber
    exact ⟨rest, minusOne?_eq_some_iff.2 ⟨rfl, hnumber⟩, rfl⟩
  · rintro ⟨rest, hone, rfl⟩
    obtain ⟨rfl, hnumber⟩ := minusOne?_eq_some_iff.1 hone
    rw [any_head?_uncommented rfl rfl]
    exact ⟨⟨rest, rfl, rfl⟩, hnumber⟩

theorem lastFrame?_uncommented (kind : MediaKind) (s : List Char) :
    lastFrame? kind (uncommented s) = (lastFrame? kind s).map uncommented := by
  rw [lastFrame?, lastFrame?, lastWord?_uncommented, minusOne?_uncommented]
  split
  · rw [Option.map_or]
  · rfl

theorem startsIndex_uncommented (kind : MediaKind) (s : List Char) :
    startsIndex kind (uncommented s) = startsIndex kind s := by
  rw [startsIndex, startsIndex, lastWord?_uncommented, Option.isSome_map,
    any_head?_uncommented (p := fun c => c.isDigit || c == '-') (by decide) (by decide)]

theorem readIndex_uncommented (kind : MediaKind) (s : List Char) :
    readIndex kind (uncommented s) = uncommentedResult (readIndex kind s) := by
  simp only [readIndex, lastFrame?_uncommented, takeWhile_uncommented (p := Char.isDigit) rfl rfl,
    dropWhile_uncommented (p := Char.isDigit) rfl rfl,
    head?_uncommented_iff (c := '-') (by decide) (by decide)]
  cases lastFrame? kind s with
  | some rest => rfl
  | none =>
    simp only [Option.map_none]
    split
    · rfl
    · split <;> rfl

theorem readSource_uncommented (kind : MediaKind) (s : List Char) :
    readSource kind (uncommented s) =
      ((readSource kind s).1, uncommented (readSource kind s).2) := by
  simp only [readSource, skipBlank_uncommented, readFileName?_uncommented,
    head?_uncommented_iff (c := '^') (by decide) (by decide)]
  split
  · next hprevious => rw [drop_one_uncommented (by decide) hprevious.2]
  · cases readFileName? (skipBlank s) <;> rfl

theorem readIndexField_uncommented (kind : MediaKind) (s : List Char) :
    readIndexField kind (uncommented s) = uncommentedResult (readIndexField kind s) := by
  simp only [readIndexField, eat?_uncommented (c := ':') (by decide) (by decide)]
  cases eat? ':' s with
  | none => rfl
  | some rest =>
    simp only [Option.map_some, skipBlank_uncommented, startsIndex_uncommented,
      readIndex_uncommented]
    split
    · exact uncommentedResult_map _ some
    · rfl

theorem readInput_uncommented (s : List Char) :
    readInput (uncommented s) = uncommentedResult (readInput s) := by
  rw [readInput, readInput, readKind_uncommented]
  refine uncommentedResult_bind fun kind afterKind _ => ?_
  simp only [eat?_uncommented (c := ':') (by decide) (by decide)]
  cases eat? ':' afterKind with
  | none => rfl
  | some afterColon =>
    simp only [Option.map_some, readSource_uncommented, readIndexField_uncommented]
    exact uncommentedResult_bind fun _ _ _ => rfl

theorem readInputs_uncommented (s : List Char) :
    readInputs (uncommented s) = uncommentedResult (readInputs s) := by
  rw [readInputs_step, readInputs_step, readInput_uncommented]
  refine uncommentedResult_bind fun first rest hfirst => ?_
  simp only [eat?_uncommented (c := ':') (by decide) (by decide)]
  cases hmore : eat? ':' rest with
  | none => rfl
  | some more =>
    have : more.length < s.length :=
      Nat.lt_of_lt_of_le (length_lt_of_eat? hmore) (readInput_suffix hfirst).length_le
    simp only [Option.map_some, readInputs_uncommented more]
    exact uncommentedResult_map _ (first :: ·)
termination_by s.length

/-! ## Times -/

/-- A further field follows with and without comments alike. -/
theorem fieldFollows_uncommented (s : List Char) :
    ((uncommented s).head? = some ':' ∧
        ((uncommented s).drop 1).head?.any Char.isDigit = true) ↔
      s.head? = some ':' ∧ (s.drop 1).head?.any Char.isDigit = true := by
  rw [head?_uncommented_iff (by decide) (by decide)]
  refine and_congr_right fun hcolon => ?_
  rw [drop_one_uncommented (by decide) hcolon, any_head?_uncommented rfl rfl]

theorem readClockFields_uncommented (start : List Char) (clock : ClockTime) (room : Nat)
    (s : List Char) :
    readClockFields (uncommented start) clock room (uncommented s) =
      uncommentedResult (readClockFields start clock room s) := by
  induction room generalizing clock s with
  | zero =>
    rw [readClockFields, readClockFields]
    simp only [takeWhile_uncommented (p := Char.isDigit) rfl rfl,
      dropWhile_uncommented (p := Char.isDigit) rfl rfl, fieldFollows_uncommented]
    split
    · split <;> rfl
    · rfl
  | succ room ih =>
    rw [readClockFields, readClockFields]
    simp only [takeWhile_uncommented (p := Char.isDigit) rfl rfl,
      dropWhile_uncommented (p := Char.isDigit) rfl rfl, fieldFollows_uncommented]
    split
    · split
      · next hcolon => rw [drop_one_uncommented (by decide) hcolon.1, ih]
      · rfl
    · rfl

theorem readFraction_uncommented (clock : ClockTime) (s : List Char) :
    readFraction clock (uncommented s) = uncommentedResult (readFraction clock s) := by
  simp only [readFraction, head?_uncommented_iff (c := '.') (by decide) (by decide)]
  split
  · next hpoint =>
    rw [drop_one_uncommented (by decide) hpoint, takeWhile_uncommented rfl rfl,
      dropWhile_uncommented rfl rfl]
    split <;> rfl
  · rfl

/-- A timestamp may stand before a comment as before a line break and before the end. -/
theorem all_head?_uncommented (s : List Char) :
    (uncommented s).head?.all endsTimestamp = s.head?.all endsTimestamp := by
  have hnone (head : Option Char) :
      head.all endsTimestamp = !head.any fun c => !endsTimestamp c := by
    cases head <;> simp
  rw [hnone, hnone, any_head?_uncommented (by decide) (by decide)]

theorem readTimestamp_uncommented (s : List Char) :
    readTimestamp (uncommented s) = uncommentedResult (readTimestamp s) := by
  rw [readTimestamp, readTimestamp, readClockFields_uncommented]
  refine uncommentedResult_bind fun clock afterFields _ => ?_
  simp only [readFraction_uncommented]
  refine uncommentedResult_bind fun whole rest _ => ?_
  simp only [all_head?_uncommented]
  split
  · split <;> rfl
  · rfl

theorem readReference_uncommented (s : List Char) :
    readReference (uncommented s) = uncommentedResult (readReference s) := by
  rw [readReference, readReference, skipBlank_uncommented, readFileName?_uncommented]
  cases readFileName? (skipBlank s) <;> rfl

theorem readTimestamps_uncommented (first : Bool) (s : List Char) :
    readTimestamps first (uncommented s) = uncommentedResult (readTimestamps first s) := by
  have hhead := any_head?_uncommented (p := Char.isDigit) rfl rfl s
  by_cases digit : s.head?.any Char.isDigit = true
  · rw [readTimestamps_step first digit, readTimestamps_step first (hhead.trans digit),
      readTimestamp_uncommented]
    refine uncommentedResult_bind fun clock rest hclock => ?_
    simp only [skipBlank_uncommented, head?_uncommented_iff (c := '@') (by decide) (by decide)]
    split
    · next hsign =>
      split
      · rw [drop_one_uncommented (by decide) hsign, readReference_uncommented]
        exact uncommentedResult_map _ ([TimeToken.timestamp clock, ·])
      · rfl
    · have : (skipBlank rest).length < s.length := by
        cases s with
        | nil => cases digit
        | cons d tail => exact length_lt_of_readTimestamp digit hclock
      rw [readTimestamps_uncommented false (skipBlank rest)]
      exact uncommentedResult_map _ (TimeToken.timestamp clock :: ·)
  · have hnone (t : List Char) (h : ¬t.head?.any Char.isDigit = true) :
        readTimestamps first t = .ok ([], t) := by
      apply readTimestamps_end
      intro c hc
      rw [Option.mem_def.1 hc] at h
      simpa using h
    rw [hnone s digit, hnone _ (by rwa [hhead])]
    rfl
termination_by s.length

theorem readTimes_uncommented (s : List Char) :
    readTimes (uncommented s) = uncommentedResult (readTimes s) := by
  simp only [readTimes, skipBlank_uncommented,
    head?_uncommented_iff (c := '@') (by decide) (by decide)]
  split
  · next hsign =>
    rw [drop_one_uncommented (by decide) hsign, readReference_uncommented]
    exact uncommentedResult_map _ ([TimeToken.timestamp .zero, ·])
  · exact readTimestamps_uncommented true _

/-! ## Configurations -/

theorem readGroup_uncommented (s : List Char) :
    readGroup (uncommented s) = uncommentedResult (readGroup s) := by
  simp only [readGroup, bind, Except.bind, expect_uncommented (c := '[') (by decide) (by decide)]
  cases expect '[' s with
  | error stop => rfl
  | ok afterOpen =>
    simp only [Except.map, mapError_ok, readInputs_uncommented]
    cases readInputs afterOpen with
    | error stop => rfl
    | ok heads =>
      obtain ⟨inputs, afterInputs⟩ := heads
      simp only [uncommentedResult, expect_uncommented (c := ']') (by decide) (by decide)]
      cases expect ']' afterInputs with
      | error stop => rfl
      | ok afterClose =>
        simp only [Except.map, mapError_ok, readTimes_uncommented]
        cases readTimes afterClose <;> rfl

/-- A configuration is read or refused alike without its comments. -/
theorem readGroups_uncommented (s : List Char) :
    readGroups (uncommented s) = (readGroups s).mapError Stop.uncommented := by
  have hskip := skipBlank_uncommented s
  cases hs : skipBlank s with
  | nil =>
    rw [hs] at hskip
    rw [readGroups_end hs, readGroups_end hskip]
    rfl
  | cons c tail =>
    have hhash : c ≠ '#' := by
      rintro rfl
      exact absurd (isSolid_head?_skipBlank s '#' (by rw [hs]; rfl)) (by decide)
    rw [hs, uncommented_cons hhash] at hskip
    by_cases hc : c = '['
    · subst hc
      have hgroup := readGroup_uncommented ('[' :: tail)
      rw [uncommented_cons hhash] at hgroup
      rw [readGroups_open hs, readGroups_open hskip, hgroup]
      cases hread : readGroup ('[' :: tail) with
      | error stop => rfl
      | ok found =>
        have : found.2.length < s.length :=
          Nat.lt_of_lt_of_le (length_lt_of_readGroup hread) (hs ▸ (skipBlank_suffix s).length_le)
        simp only [uncommentedResult, Except.bind, readGroups_uncommented found.2]
        cases readGroups found.2 <;> rfl
    · rw [readGroups_other hs hc, readGroups_other hskip hc, mapError_error, Stop.uncommented,
        uncommented_cons hhash]
termination_by s.length

/-- A configuration specifies the same without its comments, and it is accepted without them only if
it is accepted with them. -/
theorem parse_withoutComments_iff (text : String) (specs : List InputSpec) :
    parse (withoutComments text) = .ok specs ↔ parse text = .ok specs := by
  rw [parse, parse, withoutComments, String.toList_ofList, readGroups_uncommented]
  cases readGroups text.toList with
  | ok found => rfl
  | error stop => constructor <;> rintro ⟨⟩

/-- The line break after a comment stays, and so does the end of the timestamp. -/
example : withoutComments "[a:x] 5#é\n6" = "[a:x] 5\n6" := by decide

end EpisodeCut.Config
