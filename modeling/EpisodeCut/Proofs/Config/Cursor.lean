import EpisodeCut.Config.Parser
import EpisodeCut.Proofs.Text.Bytes

/-!
# Reading with a byte cursor

The language of configurations is read here a second time, by an offset that moves over the bytes of
the text. In a comment the offset passes through characters byte by byte, and where a colon turns out
to separate two inputs it goes back. What is needed as text, such as the word for a kind, digits or a
file name, is cut out between two offsets. A stretch that does not fit cannot be cut out and ends the
run (`Halt.divided`); every cut is recorded before it is tried.

No reader ends before the offset from which it began (`Scan.forward`), which bounds the loops.
-/

set_option autoImplicit false

namespace EpisodeCut.Config

open Text

/-! ## Blanks -/

/-- The first offset from `offset` on that is behind all blanks and comments. -/
def blankEnd (text : String) (offset : Nat) : Nat :=
  match h : byte? text offset with
  | none => offset
  | some c =>
    if isLayout c then blankEnd text (offset + 1)
    else if c = '#' then blankEnd text (passWhile text (· != '\n') offset)
    else offset
termination_by text.utf8ByteSize - offset
decreasing_by
  · have := lt_of_byte? h
    omega
  · next hhash =>
    have hin := lt_of_byte? h
    have hpassed : offset < passWhile text (· != '\n') offset := lt_passWhile (by simp [h, hhash])
    omega

theorem le_blankEnd (text : String) (offset : Nat) : offset ≤ blankEnd text offset := by
  fun_induction blankEnd text offset with
  | case1 => exact Nat.le_refl _
  | case2 offset c h hlayout ih => omega
  | case3 offset h hlayout ih => exact Nat.le_trans (le_passWhile text _ offset) ih
  | case4 => exact Nat.le_refl _

/-! ## Cursors -/

/-- Where a run stands, and what it has cut out so far, in this order. -/
structure Cursor where
  offset : Nat
  cuts : List Cut
  deriving DecidableEq, Repr

/-- Ways in which a run ends early. -/
inductive Halt where
  | refused (failure : Failure)
  /-- A timestamp has a field without digits. -/
  | missingDigits (position : Position)
  /-- A stretch cannot be cut out. -/
  | divided (cut : Cut)
  deriving DecidableEq, Repr

/-- The number of bytes that a cursor has not passed. -/
def Cursor.bytesLeft (text : String) (cursor : Cursor) : Nat :=
  text.utf8ByteSize - cursor.offset

/-- A reader of `text` that moves a cursor. It does not end before the offset where it began. -/
structure Scan (text : String) (α : Type) where
  run : Cursor → EStateM.Result Halt Cursor α
  forward : ∀ cursor a next, run cursor = .ok a next → next.bytesLeft text ≤ cursor.bytesLeft text

namespace Scan

variable {text : String} {α β σ : Type}

instance : Monad (Scan text) where
  pure a := ⟨fun cursor => .ok a cursor, by rintro cursor _ _ ⟨⟩; exact Nat.le_refl _⟩
  bind scan next :=
    { run := fun cursor =>
        match scan.run cursor with
        | .ok a middle => (next a).run middle
        | .error halt middle => .error halt middle
      forward := by
        intro cursor b last h
        split at h
        · next a middle hscan =>
          exact Nat.le_trans ((next a).forward middle b last h) (scan.forward cursor a middle hscan)
        · cases h }

/-- End the run. -/
def halt (cause : Halt) : Scan text α :=
  ⟨fun cursor => .error cause cursor, by rintro _ _ _ ⟨⟩⟩

/-- The offset. -/
def offset : Scan text Nat :=
  ⟨fun cursor => .ok cursor.offset cursor, by rintro cursor _ _ ⟨⟩; exact Nat.le_refl _⟩

/-- The byte that comes after `passed` more bytes. -/
def peekAt (passed : Nat) : Scan text (Option Char) :=
  ⟨fun cursor => .ok (byte? text (cursor.offset + passed)) cursor, by
    rintro cursor _ _ ⟨⟩; exact Nat.le_refl _⟩

/-- The next byte. -/
def peek : Scan text (Option Char) :=
  peekAt 0

/-- Move the offset on. -/
def move (target : Nat → Nat) (onward : ∀ offset, offset ≤ target offset) : Scan text Unit where
  run cursor := .ok () { cursor with offset := target cursor.offset }
  forward := by
    rintro cursor _ _ ⟨⟩
    exact Nat.sub_le_sub_left (onward cursor.offset) _

/-- Pass some bytes, whatever they are. -/
def pass (bytes : Nat) : Scan text Unit :=
  move (· + bytes) fun offset => Nat.le_add_right offset bytes

/-- Cut a stretch out of the text. -/
def cut (start stop : Nat) : Scan text String where
  run cursor :=
    let tried := { cursor with cuts := cursor.cuts ++ [⟨start, stop⟩] }
    match cut? text ⟨start, stop⟩ with
    | some piece => .ok piece tried
    | none => .error (.divided ⟨start, stop⟩) tried
  forward := by
    intro cursor piece next h
    split at h
    · cases h; exact Nat.le_refl _
    · cases h

/-- Pass all bytes of a class, and cut out what has been passed. -/
def takeWhile (p : Char → Bool) : Scan text String := do
  let start ← offset
  move (passWhile text p) (le_passWhile text p)
  cut start (← offset)

/-- What is ahead, up to the end of the text. -/
def ahead : Scan text String := do
  cut (← offset) text.utf8ByteSize

section Runs

variable {next : Scan text β} {cursor : Cursor}

theorem run_bind (scan : Scan text α) (next : α → Scan text β) (cursor : Cursor) :
    (scan >>= next).run cursor =
      match scan.run cursor with
      | .ok a middle => (next a).run middle
      | .error cause middle => .error cause middle :=
  rfl

/-- It does not matter how readers one after another are grouped. -/
theorem run_bind_assoc {γ : Type} (scan : Scan text α) (next : α → Scan text β)
    (last : β → Scan text γ) (cursor : Cursor) :
    (scan >>= next >>= last).run cursor = (scan >>= fun a => next a >>= last).run cursor := by
  rw [run_bind, run_bind, run_bind]
  cases scan.run cursor <;> rfl

@[simp] theorem run_offset_bind (next : Nat → Scan text β) :
    (offset >>= next).run cursor = (next cursor.offset).run cursor := rfl

@[simp] theorem run_peek_bind (next : Option Char → Scan text β) :
    (peek >>= next).run cursor = (next (byte? text cursor.offset)).run cursor := rfl

@[simp] theorem run_peekAt_bind (passed : Nat) (next : Option Char → Scan text β) :
    (peekAt passed >>= next).run cursor = (next (byte? text (cursor.offset + passed))).run cursor :=
  rfl

end Runs

/-! ## Loops -/

/-- Carry out `step` again and again, until it gives a result. Each round moves the offset on. -/
def loopFrom (step : σ → Scan text (σ ⊕ α))
    (onward : ∀ s cursor s' next, (step s).run cursor = .ok (.inl s') next →
      next.bytesLeft text < cursor.bytesLeft text)
    (s : σ) (cursor : Cursor) : EStateM.Result Halt Cursor α :=
  match h : (step s).run cursor with
  | .error cause next => .error cause next
  | .ok (.inr a) next => .ok a next
  | .ok (.inl s') next =>
    have := onward s cursor s' next h
    loopFrom step onward s' next
termination_by cursor.bytesLeft text

/-- The loop as a reader. -/
def loop (step : σ → Scan text (σ ⊕ α))
    (onward : ∀ s cursor s' next, (step s).run cursor = .ok (.inl s') next →
      next.bytesLeft text < cursor.bytesLeft text)
    (s : σ) : Scan text α where
  run := loopFrom step onward s
  forward := by
    intro cursor a last h
    fun_induction loopFrom step onward s cursor with
    | case1 => cases h
    | case2 s cursor b next hstep =>
      cases h
      exact (step s).forward _ _ _ hstep
    | case3 s cursor s' next hstep hlt ih => exact Nat.le_trans (ih h) (Nat.le_of_lt hlt)

theorem run_loop {step : σ → Scan text (σ ⊕ α)}
    {onward : ∀ s cursor s' next, (step s).run cursor = .ok (.inl s') next →
      next.bytesLeft text < cursor.bytesLeft text}
    (s : σ) (cursor : Cursor) :
    (loop step onward s).run cursor = (step s >>= Sum.elim (loop step onward) pure).run cursor := by
  rw [run_bind]
  simp only [loop]
  rw [loopFrom]
  split
  · next hstep => simp only [hstep]
  · next hstep =>
    simp only [hstep]
    rfl
  · next hstep =>
    simp only [hstep]
    rfl

/-! ## Single characters -/

/-- Pass blanks and comments. -/
def skipBlank : Scan text Unit :=
  move (blankEnd text) (le_blankEnd text)

/-- Pass the character `c` behind blanks, if it comes next. -/
def consume (c : Char) : Scan text Bool := do
  skipBlank
  if (← peek) = some c then
    pass 1
    return true
  else
    return false

/-! ## Refusals -/

/-- The position that is shown for an offset. -/
def locate (offset : Nat) : Scan text Position := do
  -- A refusal may come at any offset, so the next boundary before it is looked for.
  let offset := lastBoundary text (min offset text.utf8ByteSize)
  let before ← cut 0 offset
  let line ← cut (lineStart text offset) offset
  let rest ← cut offset text.utf8ByteSize
  return ⟨before.toList.count '\n' + 1, line.length + 1, Position.fragmentOf rest.toList⟩

/-- Refuse the text at an offset. -/
def refuseAt (offset : Nat) (fault : Fault) : Scan text α := do
  halt (.refused (.malformed (← locate offset) fault))

/-- Refuse the text where the cursor stands. -/
def refuse (fault : Fault) : Scan text α := do
  refuseAt (← offset) fault

/-- Pass the character `c`, which has to come next. -/
def expect (c : Char) : Scan text Unit := do
  if ← consume c then
    return ()
  else
    refuse (.expected c)

/-! ## Inputs -/

/-- Read the word for a kind of input. -/
def readKind : Scan text MediaKind := do
  skipBlank
  let start ← offset
  let word ← takeWhile Char.isAlpha
  match kindWords.lookup word.toList with
  | some kind => return kind
  | none => if word.isEmpty then refuse .expectedKind else refuseAt start (.unknownKind word)

/-- Whether `word` comes next and no character of the class `p` continues it. -/
def atWord (word : List Char) (p : Char → Bool) : Scan text Bool := do
  let tail ← ahead
  return word.isPrefixOf tail.toList && !(← peekAt word.length).any p

/-- Pass a name for the last frame, which only a frame input can have, if one comes next. -/
def passLastFrame (kind : MediaKind) : Scan text Bool := do
  if kind = .frame then
    if ← atWord ['l', 'a', 's', 't'] Char.isAlphanum then
      pass 4
      return true
    else if ← atWord ['-', '1'] Char.isDigit then
      pass 2
      return true
    else
      return false
  else
    return false

/-- Whether what comes next is meant as an index. -/
def atIndex (kind : MediaKind) : Scan text Bool := do
  match ← peek with
  | none => return false
  | some c =>
    if c.isDigit || c == '-' then return true
    else if c = 'l' ∧ kind = .frame then atWord ['l', 'a', 's', 't'] Char.isAlphanum
    else return false

/-- Read an index. -/
def readIndex (kind : MediaKind) : Scan text FrameNumber := do
  let start ← offset
  if ← passLastFrame kind then
    return .last
  else if (← peek) = some '-' then
    refuse (if kind = .frame then .negativeFrame else .negativeStream)
  else
    let digits ← takeWhile Char.isDigit
    match Numeral.readBelow? UInt32.size digits.toList with
    | some n => return .index (UInt32.ofNat n)
    | none => refuseAt start (.indexTooLarge digits)

/-- Read a file name, if one comes next. -/
def readFileName? : Scan text (Option String) := do
  if (← peek).any isNameStart then
    let name ← takeWhile isNameChar
    return some (String.ofList (trimRight name.toList))
  else
    return none

/-- Read the source of an input, which may be left out. -/
def readSource (kind : MediaKind) : Scan text (Option SourceRef) := do
  skipBlank
  if kind = .frame ∧ (← peek) = some '^' then
    pass 1
    return some .previousSegment
  else
    return (← readFileName?).map .file

/-- Read an index, if one comes next. -/
def readIndex? (kind : MediaKind) : Scan text (Option FrameNumber) := do
  skipBlank
  if ← atIndex kind then
    return some (← readIndex kind)
  else
    return none

/-- Read what comes behind the character `c`. If it gives nothing, go back before the character and
the blanks before it. -/
def behind (c : Char) (scan : Scan text (Option α)) : Scan text (Option α) where
  run cursor :=
    match (consume c).run cursor with
    | .error cause next => .error cause next
    | .ok false next => .ok none next
    | .ok true next =>
      match scan.run next with
      | .error cause last => .error cause last
      -- What has been cut out on the way stays recorded.
      | .ok none last => .ok none { last with offset := cursor.offset }
      | .ok (some a) last => .ok (some a) last
  forward := by
    intro cursor a last h
    split at h
    · cases h
    · next next hconsume =>
      cases h
      exact (consume c).forward _ _ _ hconsume
    · next next hconsume =>
      split at h
      · cases h
      · cases h
        exact Nat.le_refl _
      · next b after hscan =>
        cases h
        exact Nat.le_trans (scan.forward _ _ _ hscan) ((consume c).forward _ _ _ hconsume)

/-- Read the index of an input, which may be left out. -/
def readIndexField (kind : MediaKind) : Scan text (Option FrameNumber) :=
  behind ':' (readIndex? kind)

/-- Read one input. -/
def readInput : Scan text Input := do
  let kind ← readKind
  if ← consume ':' then
    let source ← readSource kind
    let index ← readIndexField kind
    return ⟨kind, source, index⟩
  else
    return ⟨kind, none, none⟩

/-! ## Times -/

/-- Read one field of a timestamp that begins at `start`. -/
def readField (start : Nat) : Scan text UInt64 := do
  let digits ← takeWhile Char.isDigit
  if digits.isEmpty then
    halt (.missingDigits (← locate (← offset)))
  else
    match Numeral.readBelow? UInt64.size digits.toList with
    | some field => return UInt64.ofNat field
    | none => refuseAt start .fieldTooLarge

/-- Whether a further field follows. -/
def atField : Scan text Bool := do
  return (← peek) = some ':' && (← peekAt 1).any Char.isDigit

/-- Read the fields of a timestamp that begins at `start`, `room` more after the next one at most. -/
def readClockFields (start : Nat) (clock : ClockTime) (room : Nat) : Scan text ClockTime := do
  let field ← readField start
  if ← atField then
    match room with
    | 0 => refuse .tooManyFields
    | room + 1 =>
      pass 1
      readClockFields start (pushField clock field) room
  else
    return pushField clock field

/-- Read the fraction of a second after the fields of a timestamp, if there is one. -/
def readFraction (clock : ClockTime) : Scan text ClockTime := do
  if (← peek) = some '.' then
    pass 1
    let digits ← takeWhile Char.isDigit
    if digits.isEmpty then refuse .expectedFraction
    else return { clock with millis := UInt64.ofNat (Timecode.fractionMillis digits.toList) }
  else
    return clock

/-- Read a timestamp. -/
def readTimestamp : Scan text ClockTime := do
  let start ← offset
  let clock ← readClockFields start .zero 2
  let clock ← readFraction clock
  if (← peek).all endsTimestamp then
    if clock.toTimecode?.isSome then return clock
    else refuseAt start .timestampTooLarge
  else
    refuseAt start .malformedTimestamp

/-- Read the file name of a duration reference. -/
def readReference : Scan text TimeToken := do
  skipBlank
  match ← readFileName? with
  | some name => return .durationOf name
  | none => refuse .expectedReference

/-! ## Readers that move on -/

section Onward

variable {scan : Scan text α} {next : α → Scan text β} {cursor middle last : Cursor} {a : α} {b : β}

theorem run_bind_eq_ok (h : (scan >>= next).run cursor = .ok b last) :
    ∃ a middle, scan.run cursor = .ok a middle ∧ (next a).run middle = .ok b last := by
  rw [run_bind] at h
  split at h
  · next a middle hscan => exact ⟨a, middle, hscan, h⟩
  · cases h

theorem consume_run (c : Char) (cursor : Cursor) :
    (consume c : Scan text Bool).run cursor =
      if byte? text (blankEnd text cursor.offset) = some c then
        .ok true { cursor with offset := blankEnd text cursor.offset + 1 }
      else
        .ok false { cursor with offset := blankEnd text cursor.offset } := by
  have hrun : (consume c : Scan text Bool).run cursor =
      (if byte? text (blankEnd text cursor.offset) = some c then do pass 1; return true
        else return false : Scan text Bool).run
          { cursor with offset := blankEnd text cursor.offset } :=
    rfl
  rw [hrun]
  split <;> rfl

theorem consume_onward {c : Char} (h : (consume c : Scan text Bool).run cursor = .ok true middle) :
    middle.bytesLeft text < cursor.bytesLeft text := by
  rw [consume_run] at h
  split at h
  · next hc =>
    cases h
    have hin := lt_of_byte? hc
    have hle := le_blankEnd text cursor.offset
    simp only [Cursor.bytesLeft]
    omega
  · cases h

theorem refuseAt_ne_ok {offset : Nat} {fault : Fault} :
    (refuseAt offset fault : Scan text α).run cursor ≠ .ok a middle := by
  intro h
  obtain ⟨position, located, -, hhalt⟩ := run_bind_eq_ok h
  cases hhalt

theorem refuse_ne_ok {fault : Fault} : (refuse fault : Scan text α).run cursor ≠ .ok a middle :=
  refuseAt_ne_ok

theorem expect_onward {c : Char} (h : (expect c : Scan text Unit).run cursor = .ok () middle) :
    middle.bytesLeft text < cursor.bytesLeft text := by
  obtain ⟨eaten, next, hconsume, hrest⟩ := run_bind_eq_ok h
  cases eaten with
  | true =>
    cases hrest
    exact consume_onward hconsume
  | false =>
    rw [if_neg Bool.false_ne_true] at hrest
    exact absurd hrest refuse_ne_ok

theorem takeWhile_onward {p : Char → Bool} {piece : String}
    (inside : (byte? text cursor.offset).any p = true)
    (h : (takeWhile p : Scan text String).run cursor = .ok piece middle) :
    middle.bytesLeft text < cursor.bytesLeft text := by
  obtain ⟨c, hc, -⟩ := (Option.any_eq_true p _).1 inside
  have hin := lt_of_byte? hc
  have hpassed := lt_passWhile inside
  have hcut : (cut cursor.offset (passWhile text p cursor.offset) : Scan text String).run
      { cursor with offset := passWhile text p cursor.offset } = .ok piece middle := h
  have hforward := (cut _ _).forward _ _ _ hcut
  simp only [Cursor.bytesLeft] at hforward ⊢
  omega

theorem readTimestamp_onward {clock : ClockTime}
    (digit : (byte? text cursor.offset).any Char.isDigit = true)
    (h : (readTimestamp : Scan text ClockTime).run cursor = .ok clock last) :
    last.bytesLeft text < cursor.bytesLeft text := by
  obtain ⟨start, _, ⟨⟩, hafterStart⟩ := run_bind_eq_ok h
  obtain ⟨fields, middle, hfields, hrest⟩ := run_bind_eq_ok hafterStart
  -- The first field passes a digit, and nothing behind it goes back.
  rw [readClockFields] at hfields
  obtain ⟨field, next, hfield, hmore⟩ := run_bind_eq_ok hfields
  obtain ⟨digits, passed, hdigits, hvalue⟩ := run_bind_eq_ok hfield
  have hpassed := takeWhile_onward digit hdigits
  have hnext := Scan.forward _ _ _ _ hvalue
  have hmiddle := Scan.forward _ _ _ _ hmore
  have hlast := Scan.forward _ _ _ _ hrest
  omega

end Onward

/-! ## Groups -/

/-- Read one more input, if a colon comes before it. -/
def nextInput (inputs : List Input) : Scan text (List Input ⊕ List Input) := do
  if ← consume ':' then
    let input ← readInput
    return .inl (inputs ++ [input])
  else
    return .inr inputs

theorem nextInput_onward (inputs : List Input) (cursor : Cursor) (more : List Input) (next : Cursor)
    (h : (nextInput inputs : Scan text _).run cursor = .ok (.inl more) next) :
    next.bytesLeft text < cursor.bytesLeft text := by
  obtain ⟨eaten, middle, hconsume, hrest⟩ := run_bind_eq_ok h
  cases eaten with
  | true => exact Nat.lt_of_le_of_lt (Scan.forward _ _ _ _ hrest) (consume_onward hconsume)
  | false => cases hrest

/-- Read the inputs of a bracket group, separated by colons. -/
def readInputs : Scan text (List Input) := do
  let first ← readInput
  loop nextInput nextInput_onward [first]

/-- Go on behind the last one of `times`. A duration reference may follow the first one and ends the
list. -/
def afterTimestamp (times : List TimeToken) : Scan text (List TimeToken ⊕ List TimeToken) := do
  skipBlank
  if (← peek) = some '@' then
    if times.length = 1 then
      pass 1
      let reference ← readReference
      return .inr (times ++ [reference])
    else
      refuse .misplacedReference
  else
    return .inl times

/-- Read one more timestamp, if a digit begins one. -/
def nextTimestamp (times : List TimeToken) : Scan text (List TimeToken ⊕ List TimeToken) := do
  if (← peek).any Char.isDigit then
    let clock ← readTimestamp
    afterTimestamp (times ++ [.timestamp clock])
  else
    return .inr times

theorem nextTimestamp_onward (times : List TimeToken) (cursor : Cursor) (more : List TimeToken)
    (next : Cursor) (h : (nextTimestamp times : Scan text _).run cursor = .ok (.inl more) next) :
    next.bytesLeft text < cursor.bytesLeft text := by
  obtain ⟨c?, _, ⟨⟩, hrest⟩ := run_bind_eq_ok h
  split at hrest
  · next hdigit =>
    obtain ⟨clock, middle, hclock, hafter⟩ := run_bind_eq_ok hrest
    exact Nat.lt_of_le_of_lt (Scan.forward _ _ _ _ hafter) (readTimestamp_onward hdigit hclock)
  · cases hrest

/-- Read the times after a bracket group. A lone duration reference counts from zero. -/
def readTimes : Scan text (List TimeToken) := do
  skipBlank
  if (← peek) = some '@' then
    pass 1
    let reference ← readReference
    return [.timestamp .zero, reference]
  else
    loop nextTimestamp nextTimestamp_onward []

/-- Read a bracket group with its times. -/
def readGroup : Scan text (List InputSpec) := do
  expect '['
  let inputs ← readInputs
  expect ']'
  let times ← readTimes
  return inputs.map fun i => ⟨i.kind, i.source, i.index, times⟩

/-- Read one more bracket group, unless the text has ended. -/
def nextGroup (specs : List InputSpec) : Scan text (List InputSpec ⊕ List InputSpec) := do
  skipBlank
  match ← peek with
  | none => return .inr specs
  | some c =>
    if c = '[' then
      let group ← readGroup
      return .inl (specs ++ group)
    else
      refuse .expectedSegment

theorem nextGroup_onward (specs : List InputSpec) (cursor : Cursor) (more : List InputSpec)
    (next : Cursor) (h : (nextGroup specs : Scan text _).run cursor = .ok (.inl more) next) :
    next.bytesLeft text < cursor.bytesLeft text := by
  obtain ⟨_, blank, hblank, hrest⟩ := run_bind_eq_ok h
  have hskip := Scan.forward _ _ _ _ hblank
  obtain ⟨c?, _, ⟨⟩, hfound⟩ := run_bind_eq_ok hrest
  split at hfound
  · cases hfound
  · split at hfound
    -- The opening bracket is passed.
    · obtain ⟨group, middle, hgroup, hafter⟩ := run_bind_eq_ok hfound
      obtain ⟨_, opened, hopen, hinside⟩ := run_bind_eq_ok hgroup
      have hlt := expect_onward hopen
      have hgroupLeft := Scan.forward _ _ _ _ hinside
      have hleft := Scan.forward _ _ _ _ hafter
      omega
    · exact absurd hfound refuse_ne_ok

/-- Read bracket groups up to the end of the text. -/
def readGroups : Scan text (List InputSpec) :=
  loop nextGroup nextGroup_onward []

end Scan

/-- What a run gave, and what it cut out or tried to. -/
structure Scanned where
  answer : Except Halt (List InputSpec)
  cuts : List Cut

/-- Read a whole text from its beginning. -/
def scan (text : String) : Scanned :=
  match (Scan.readGroups : Scan text (List InputSpec)).run ⟨0, []⟩ with
  | .ok specs last => ⟨.ok specs, last.cuts⟩
  | .error cause last => ⟨.error cause, last.cuts⟩

end EpisodeCut.Config
