import EpisodeCut.Config.Spec
import EpisodeCut.Failure

/-!
# Reading configuration text

A configuration is a sequence of bracket groups, each a list of inputs that share one list of
times. Every reader takes the text still to be read and gives what it read with the text after it,
which is a suffix of the text it was given; that bounds all recursion. A reader that refuses the
text stops at a suffix too (`Stop`), from which `Config.parse` computes the position shown to the
author. Blanks and comments may stand between any two tokens.
-/

set_option autoImplicit false

namespace EpisodeCut.Config

/-- A refusal: the fault, and the text from the point at which it is reported. -/
structure Stop where
  fault : Fault
  rest : List Char
  deriving DecidableEq, Repr

/-! ## Blanks and single characters -/

mutual

/-- The text after all layout characters and comments at its head. -/
def skipBlank : List Char → List Char
  | [] => []
  | c :: rest =>
    if Text.isLayout c then skipBlank rest
    else if c == '#' then skipComment rest
    else c :: rest

/-- The text after the comment in which it begins and the blanks that follow. -/
def skipComment : List Char → List Char
  | [] => []
  | c :: rest => if c == '\n' then skipBlank rest else skipComment rest

end

/-- The text after the character `c`, if that is what comes next. -/
def eat? (c : Char) (s : List Char) : Option (List Char) :=
  match skipBlank s with
  | [] => none
  | d :: rest => if d == c then some rest else none

/-- The text after the character `c`, which has to come next. -/
def expect (c : Char) (s : List Char) : Except Stop (List Char) :=
  match eat? c s with
  | some rest => .ok rest
  | none => .error ⟨.expected c, skipBlank s⟩

/-! ## Inputs -/

/-- The words for each kind of input. -/
def kindWords : List (List Char × MediaKind) :=
  [("a".toList, .audio), ("audio".toList, .audio), ("v".toList, .video), ("video".toList, .video),
   ("f".toList, .frame), ("frame".toList, .frame)]

/-- Read the word for a kind of input. -/
def readKind (s : List Char) : Except Stop (MediaKind × List Char) :=
  let s := skipBlank s
  let word := s.takeWhile Char.isAlpha
  match kindWords.lookup word with
  | some kind => .ok (kind, s.dropWhile Char.isAlpha)
  | none =>
    if word.isEmpty then .error ⟨.expectedKind, s⟩
    else .error ⟨.unknownKind (String.ofList word), s⟩

/-- The characters with which a file name may begin. -/
def isNameStart (c : Char) : Bool :=
  c.isAlphanum || c == '_' || c == '.' || c == '/'

/-- The characters of a file name. -/
def isNameChar (c : Char) : Bool :=
  isNameStart c || c == '-' || c == ' ' || c == '\t'

/-- Read a file name, if one comes next; blanks at its end do not belong to it. -/
def readFileName? (s : List Char) : Option (String × List Char) :=
  if s.head?.any isNameStart then
    some (String.ofList (Text.trimRight (s.takeWhile isNameChar)), s.dropWhile isNameChar)
  else
    none

/-- The text after the word `last`, if that is what comes next. -/
def lastWord? : List Char → Option (List Char)
  | 'l' :: 'a' :: 's' :: 't' :: rest => if rest.head?.any Char.isAlphanum then none else some rest
  | _ => none

/-- The text after the number `-1`, if that is what comes next. -/
def minusOne? : List Char → Option (List Char)
  | '-' :: '1' :: rest => if rest.head?.any Char.isDigit then none else some rest
  | _ => none

/-- The text after a name for the last frame, which only a frame input can have. -/
def lastFrame? (kind : MediaKind) (s : List Char) : Option (List Char) :=
  if kind = .frame then (lastWord? s).or (minusOne? s) else none

/-- Whether what comes next is meant as an index. -/
def startsIndex (kind : MediaKind) (s : List Char) : Bool :=
  s.head?.any (fun c => c.isDigit || c == '-') || (kind = .frame && (lastWord? s).isSome)

/-- Read an index. -/
def readIndex (kind : MediaKind) (s : List Char) : Except Stop (FrameNumber × List Char) :=
  match lastFrame? kind s with
  | some rest => .ok (.last, rest)
  | none =>
    if s.head? = some '-' then
      .error ⟨if kind = .frame then .negativeFrame else .negativeStream, s⟩
    else
      let digits := s.takeWhile Char.isDigit
      if Text.Numeral.value digits < UInt32.size then
        .ok (.index (UInt32.ofNat (Text.Numeral.value digits)), s.dropWhile Char.isDigit)
      else
        .error ⟨.indexTooLarge (String.ofList digits), s⟩

/-- One input of a bracket group, which has no times of its own. -/
structure Input where
  kind : MediaKind
  source : Option SourceRef
  index : Option FrameNumber
  deriving DecidableEq, Repr

/-- Read the source of an input, which may be left out. -/
def readSource (kind : MediaKind) (s : List Char) : Option SourceRef × List Char :=
  let s := skipBlank s
  if kind = .frame ∧ s.head? = some '^' then
    (some .previousSegment, s.drop 1)
  else
    match readFileName? s with
    | some (name, rest) => (some (.file name), rest)
    | none => (none, s)

/-- Read the index of an input, which may be left out. A colon that no index follows is left to
separate this input from the next one. -/
def readIndexField (kind : MediaKind) (s : List Char) :
    Except Stop (Option FrameNumber × List Char) :=
  match eat? ':' s with
  | none => .ok (none, s)
  | some rest =>
    let rest := skipBlank rest
    if startsIndex kind rest then
      (readIndex kind rest).map fun (n, rest) => (some n, rest)
    else
      -- The colon is given back with the blanks before it.
      .ok (none, s)

/-- Read one input. -/
def readInput (s : List Char) : Except Stop (Input × List Char) := do
  let (kind, s) ← readKind s
  match eat? ':' s with
  | none => .ok (⟨kind, none, none⟩, s)
  | some s =>
    let (source, s) := readSource kind s
    let (index, s) ← readIndexField kind s
    .ok (⟨kind, source, index⟩, s)

/-! ## Times -/

/-- Characters that may follow a timestamp. -/
def endsTimestamp (c : Char) : Bool :=
  Text.isLayout c || c == '#' || c == '[' || c == '@'

/-- The clock with a further field: the fields before it move up by one place. -/
def pushField (clock : ClockTime) (field : UInt64) : ClockTime :=
  { clock with hours := clock.minutes, minutes := clock.seconds, seconds := field }

/-- Read the fields of a timestamp that begins at `start`, `room` more after the next one at
most. -/
def readClockFields (start : List Char) (clock : ClockTime) (room : Nat) (s : List Char) :
    Except Stop (ClockTime × List Char) :=
  let digits := s.takeWhile Char.isDigit
  let rest := s.dropWhile Char.isDigit
  if Text.Numeral.value digits < UInt64.size then
    let clock := pushField clock (UInt64.ofNat (Text.Numeral.value digits))
    if rest.head? = some ':' ∧ (rest.drop 1).head?.any Char.isDigit then
      match room with
      | 0 => .error ⟨.tooManyFields, rest⟩
      | room + 1 => readClockFields start clock room (rest.drop 1)
    else
      .ok (clock, rest)
  else
    .error ⟨.fieldTooLarge, start⟩

/-- Read the fraction of a second after the fields of a timestamp, if there is one. -/
def readFraction (clock : ClockTime) (s : List Char) : Except Stop (ClockTime × List Char) :=
  if s.head? = some '.' then
    let digits := (s.drop 1).takeWhile Char.isDigit
    if digits.isEmpty then .error ⟨.expectedFraction, s.drop 1⟩
    else
      .ok ({ clock with millis := UInt64.ofNat (Timecode.fractionMillis digits) },
        (s.drop 1).dropWhile Char.isDigit)
  else
    .ok (clock, s)

/-- Read a timestamp; what comes next is known to be a digit. -/
def readTimestamp (start : List Char) : Except Stop (ClockTime × List Char) := do
  let (clock, s) ← readClockFields start .zero 2 start
  let (clock, s) ← readFraction clock s
  if s.head?.all endsTimestamp then
    if clock.toTimecode?.isSome then .ok (clock, s)
    else .error ⟨.timestampTooLarge, start⟩
  else
    .error ⟨.malformedTimestamp, start⟩

/-- Read the file name of a duration reference. -/
def readReference (s : List Char) : Except Stop (TimeToken × List Char) :=
  match readFileName? (skipBlank s) with
  | some (name, rest) => .ok (.durationOf name, rest)
  | none => .error ⟨.expectedReference, skipBlank s⟩

/-! ## The rest of a reader's text is a suffix -/

mutual

theorem skipBlank_suffix : ∀ s : List Char, skipBlank s <:+ s
  | [] => by simp [skipBlank]
  | c :: rest => by
    rw [skipBlank]
    split
    · exact (skipBlank_suffix rest).trans (List.suffix_cons c rest)
    · split
      · exact (skipComment_suffix rest).trans (List.suffix_cons c rest)
      · exact List.suffix_refl _

theorem skipComment_suffix : ∀ s : List Char, skipComment s <:+ s
  | [] => by simp [skipComment]
  | c :: rest => by
    rw [skipComment]
    split
    · exact (skipBlank_suffix rest).trans (List.suffix_cons c rest)
    · exact (skipComment_suffix rest).trans (List.suffix_cons c rest)

end

theorem cons_suffix_of_eat? {c : Char} {s rest : List Char} (h : eat? c s = some rest) :
    c :: rest <:+ s := by
  unfold eat? at h
  split at h
  · cases h
  · next d tail hs =>
    split at h
    · next hd =>
      cases h
      rw [← beq_iff_eq.1 hd, ← hs]
      exact skipBlank_suffix s
    · cases h

theorem length_lt_of_eat? {c : Char} {s rest : List Char} (h : eat? c s = some rest) :
    rest.length < s.length :=
  Nat.lt_of_succ_le (by simpa using (cons_suffix_of_eat? h).length_le)

theorem eat?_of_expect {c : Char} {s rest : List Char} (h : expect c s = .ok rest) :
    eat? c s = some rest := by
  unfold expect at h
  split at h
  · next heq => cases h; exact heq
  · cases h

theorem readKind_suffix {s : List Char} {found : MediaKind × List Char}
    (h : readKind s = .ok found) : found.2 <:+ s := by
  simp only [readKind] at h
  split at h
  · cases h
    exact (List.dropWhile_suffix _).trans (skipBlank_suffix s)
  · split at h <;> cases h

theorem readFileName?_suffix {s rest : List Char} {name : String}
    (h : readFileName? s = some (name, rest)) : rest <:+ s := by
  unfold readFileName? at h
  split at h
  · cases h
    exact List.dropWhile_suffix _
  · cases h

theorem lastFrame?_suffix {k : MediaKind} {s rest : List Char} (h : lastFrame? k s = some rest) :
    rest <:+ s := by
  unfold lastFrame? at h
  split at h
  · rcases Option.or_eq_some_iff.1 h with h | ⟨_, h⟩
    · unfold lastWord? at h
      split at h
      · split at h
        · cases h
        · cases h
          exact ⟨['l', 'a', 's', 't'], rfl⟩
      · cases h
    · unfold minusOne? at h
      split at h
      · split at h
        · cases h
        · cases h
          exact ⟨['-', '1'], rfl⟩
      · cases h
  · cases h

theorem readIndex_suffix {k : MediaKind} {s : List Char} {found : FrameNumber × List Char}
    (h : readIndex k s = .ok found) : found.2 <:+ s := by
  simp only [readIndex] at h
  split at h
  · next hs => cases h; exact lastFrame?_suffix hs
  · split at h
    · cases h
    · split at h
      · cases h; exact List.dropWhile_suffix _
      · cases h

theorem readSource_suffix (k : MediaKind) (s : List Char) : (readSource k s).2 <:+ s := by
  simp only [readSource]
  split
  · exact (List.drop_suffix 1 _).trans (skipBlank_suffix s)
  · split
    · next hs => exact (readFileName?_suffix hs).trans (skipBlank_suffix s)
    · exact skipBlank_suffix s

theorem readIndexField_suffix {k : MediaKind} {s : List Char}
    {found : Option FrameNumber × List Char} (h : readIndexField k s = .ok found) :
    found.2 <:+ s := by
  simp only [readIndexField] at h
  split at h
  · cases h; exact List.suffix_refl _
  · next hs =>
    split at h
    · cases hi : readIndex k (skipBlank _) with
      | error stop => rw [hi] at h; cases h
      | ok found =>
        rw [hi] at h
        cases h
        exact ((readIndex_suffix hi).trans (skipBlank_suffix _)).trans
          ((List.suffix_cons _ _).trans (cons_suffix_of_eat? hs))
    · cases h; exact List.suffix_refl _

theorem readInput_suffix {s : List Char} {found : Input × List Char}
    (h : readInput s = .ok found) : found.2 <:+ s := by
  simp only [readInput, bind, Except.bind] at h
  split at h
  · cases h
  · next found hk =>
    have hkind : found.2 <:+ s := readKind_suffix hk
    split at h
    · cases h; exact hkind
    · next hs =>
      split at h
      · cases h
      · next field hi =>
        cases h
        exact ((readIndexField_suffix hi).trans
          (readSource_suffix _ _)).trans
          (((List.suffix_cons _ _).trans (cons_suffix_of_eat? hs)).trans hkind)

theorem readClockFields_suffix {start : List Char} {room : Nat} {clock : ClockTime}
    {s : List Char} {found : ClockTime × List Char}
    (h : readClockFields start clock room s = .ok found) :
    found.2 <:+ s.dropWhile Char.isDigit := by
  induction room generalizing clock s with
  | zero =>
    rw [readClockFields] at h
    split at h
    · split at h
      · cases h
      · cases h; exact List.suffix_refl _
    · cases h
  | succ room ih =>
    rw [readClockFields] at h
    split at h
    · split at h
      · exact ((ih h).trans (List.dropWhile_suffix _)).trans (List.drop_suffix 1 _)
      · cases h; exact List.suffix_refl _
    · cases h

theorem readFraction_suffix {clock : ClockTime} {s : List Char}
    {found : ClockTime × List Char} (h : readFraction clock s = .ok found) : found.2 <:+ s := by
  simp only [readFraction] at h
  split at h
  · split at h
    · cases h
    · cases h
      exact (List.dropWhile_suffix _).trans (List.drop_suffix 1 _)
  · cases h; exact List.suffix_refl _

theorem readTimestamp_suffix {s : List Char} {found : ClockTime × List Char}
    (h : readTimestamp s = .ok found) : found.2 <:+ s.dropWhile Char.isDigit := by
  simp only [readTimestamp, bind, Except.bind] at h
  split at h
  · cases h
  · next fields hfields =>
    split at h
    · cases h
    · next whole hwhole =>
      split at h
      · split at h
        · cases h
          exact (readFraction_suffix hwhole).trans
            (readClockFields_suffix hfields)
        · cases h
      · cases h

theorem readReference_suffix {s : List Char} {found : TimeToken × List Char}
    (h : readReference s = .ok found) : found.2 <:+ s := by
  unfold readReference at h
  split at h
  · next hname => cases h; exact (readFileName?_suffix hname).trans (skipBlank_suffix s)
  · cases h

theorem length_lt_of_readTimestamp {d : Char} {s rest : List Char} {clock : ClockTime}
    (hd : d.isDigit = true) (h : readTimestamp (d :: s) = .ok (clock, rest)) :
    (skipBlank rest).length < (d :: s).length := by
  have hrest := (readTimestamp_suffix h).length_le
  have hblank := (skipBlank_suffix rest).length_le
  have hdrop := ((List.dropWhile_suffix Char.isDigit : s.dropWhile Char.isDigit <:+ s)).length_le
  simp only [List.dropWhile_cons, hd, if_true] at hrest
  simp only [List.length_cons]
  omega

/-! ## Groups -/

/-- Read the inputs of a bracket group, separated by colons. -/
def readInputs (s : List Char) : Except Stop (List Input × List Char) :=
  match hi : readInput s with
  | .error stop => .error stop
  | .ok (first, rest) =>
    match he : eat? ':' rest with
    | none => .ok ([first], rest)
    | some more =>
      have : more.length < s.length :=
        Nat.lt_of_lt_of_le (length_lt_of_eat? he) (readInput_suffix hi).length_le
      match readInputs more with
      | .error stop => .error stop
      | .ok (others, rest) => .ok (first :: others, rest)
termination_by s.length

/-- Read timestamps. A duration reference may follow the `first` one and ends the list. -/
def readTimestamps (first : Bool) (s : List Char) : Except Stop (List TimeToken × List Char) :=
  match s with
  | [] => .ok ([], [])
  | d :: tail =>
    if hd : d.isDigit = true then
      match ht : readTimestamp (d :: tail) with
      | .error stop => .error stop
      | .ok (clock, rest) =>
        have : (skipBlank rest).length < (d :: tail).length := length_lt_of_readTimestamp hd ht
        if (skipBlank rest).head? = some '@' then
          if first then
            match readReference ((skipBlank rest).drop 1) with
            | .error stop => .error stop
            | .ok (token, rest) => .ok ([.timestamp clock, token], rest)
          else
            .error ⟨.misplacedReference, skipBlank rest⟩
        else
          match readTimestamps false (skipBlank rest) with
          | .error stop => .error stop
          | .ok (others, rest) => .ok (.timestamp clock :: others, rest)
    else
      .ok ([], d :: tail)
termination_by s.length
decreasing_by exact this

/-- Read the times after a bracket group. A lone duration reference counts from zero. -/
def readTimes (s : List Char) : Except Stop (List TimeToken × List Char) :=
  let s := skipBlank s
  if s.head? = some '@' then
    (readReference (s.drop 1)).map fun (token, rest) => ([.timestamp .zero, token], rest)
  else
    readTimestamps true s

/-- Read a bracket group with its times. -/
def readGroup (s : List Char) : Except Stop (List InputSpec × List Char) := do
  let s ← expect '[' s
  let (inputs, s) ← readInputs s
  let s ← expect ']' s
  let (times, s) ← readTimes s
  .ok (inputs.map fun i => ⟨i.kind, i.source, i.index, times⟩, s)

theorem readInputs_suffix {s : List Char} {found : List Input × List Char}
    (h : readInputs s = .ok found) : found.2 <:+ s := by
  fun_induction readInputs s generalizing found with
  | case1 => cases h
  | case2 s first rest' hi he => cases h; exact readInput_suffix hi
  | case3 => cases h
  | case4 s first rest' hi more he hlt others rest'' hm ih =>
    cases h
    exact (ih hm).trans (((List.suffix_cons _ _).trans (cons_suffix_of_eat? he)).trans
      (readInput_suffix hi))

theorem readTimestamps_suffix {first : Bool} {s : List Char} {found : List TimeToken × List Char}
    (h : readTimestamps first s = .ok found) : found.2 <:+ s := by
  fun_induction readTimestamps first s generalizing found with
  | case1 => cases h; exact List.suffix_refl _
  | case2 => cases h
  | case3 => cases h
  | case4 d tail hd clock rest' ht hlt hat token rest'' hr =>
    cases h
    exact ((((readReference_suffix hr).trans (List.drop_suffix 1 _)).trans (skipBlank_suffix _)).trans
      (readTimestamp_suffix ht)).trans (List.dropWhile_suffix _)
  | case5 => cases h
  | case6 => cases h
  | case7 first d tail hd clock rest' ht hlt hat others rest'' hm ih =>
    cases h
    exact (((ih hm).trans (skipBlank_suffix _)).trans (readTimestamp_suffix ht)).trans
      (List.dropWhile_suffix _)
  | case8 => cases h; exact List.suffix_refl _

theorem readTimes_suffix {s : List Char} {found : List TimeToken × List Char}
    (h : readTimes s = .ok found) : found.2 <:+ s := by
  simp only [readTimes] at h
  split at h
  · cases hr : readReference ((skipBlank s).drop 1) with
    | error stop => rw [hr] at h; cases h
    | ok token =>
      rw [hr] at h
      cases h
      exact ((readReference_suffix hr).trans
        (List.drop_suffix 1 _)).trans (skipBlank_suffix s)
  · exact (readTimestamps_suffix h).trans (skipBlank_suffix s)

theorem length_lt_of_readGroup {s rest : List Char} {found : List InputSpec}
    (h : readGroup s = .ok (found, rest)) : rest.length < s.length := by
  simp only [readGroup, bind, Except.bind] at h
  split at h
  · cases h
  · next afterOpen hopen =>
    split at h
    · cases h
    · next found hinputs =>
      split at h
      · cases h
      · next afterClose hclose =>
        split at h
        · cases h
        · next timed htimes =>
          cases h
          have h1 := length_lt_of_eat? (eat?_of_expect hopen)
          have h2 := (readInputs_suffix hinputs).length_le
          have h3 := length_lt_of_eat? (eat?_of_expect hclose)
          have h4 := (readTimes_suffix htimes).length_le
          omega

/-- Read bracket groups up to the end of the text. -/
def readGroups (s : List Char) : Except Stop (List InputSpec) :=
  match hs : skipBlank s with
  | [] => .ok []
  | c :: tail =>
    if c = '[' then
      match hg : readGroup (c :: tail) with
      | .error stop => .error stop
      | .ok (specs, rest) =>
        have : rest.length < s.length :=
          Nat.lt_of_lt_of_le (length_lt_of_readGroup hg) (hs ▸ (skipBlank_suffix s).length_le)
        match readGroups rest with
        | .error stop => .error stop
        | .ok others => .ok (specs ++ others)
    else
      .error ⟨.expectedSegment, c :: tail⟩
termination_by s.length

/-- Read a configuration: the specifications of all inputs in the order of the text. -/
def parse (text : String) : Except Failure (List InputSpec) :=
  match readGroups text.toList with
  | .ok specs => .ok specs
  | .error stop => .error (.malformed (Position.ofSuffix text.toList stop.rest) stop.fault)

end EpisodeCut.Config
