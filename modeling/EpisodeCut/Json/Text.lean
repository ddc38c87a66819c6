import EpisodeCut.Json.Reader

/-!
# Strings in JSON text

A string is read from behind its opening quote up to its closing quote. Between them stand bytes of
UTF-8 text and escapes, some of which denote UTF-16 units by number; two units can stand together
for one character, and then neither may stand alone (`readText`). In a string whose value does not
matter only the form of the escapes is checked (`skipText`).
-/

set_option autoImplicit false

namespace EpisodeCut.Json

/-! ## Units -/

/-- Units that begin a pair. -/
def isHighUnit (unit : Nat) : Bool :=
  0xD800 ≤ unit && unit < 0xDC00

/-- Units that end a pair. -/
def isLowUnit (unit : Nat) : Bool :=
  0xDC00 ≤ unit && unit < 0xE000

/-- The code point of a pair of units. -/
def pairValue (high low : Nat) : Nat :=
  0x10000 + (high - 0xD800) * 0x400 + (low - 0xDC00)

/-- The value of a hexadecimal digit. -/
def hexValue? (c : Char) : Option Nat :=
  if c.isDigit then some (c.toNat - 0x30)
  else if 'a' ≤ c && c ≤ 'f' then some (c.toNat - 0x57)
  else if 'A' ≤ c && c ≤ 'F' then some (c.toNat - 0x37)
  else none

/-- Read the four hexadecimal digits of a unit. -/
def readUnit (s : Bytes) : Except Refusal (Nat × Bytes) :=
  if (s.take 4).length < 4 then .error ⟨.ended .text, []⟩
  else
    match (s.take 4).mapM fun b => hexValue? (Char.ofUInt8 b) with
    | some digits => .ok (digits.foldl (fun n digit => 16 * n + digit) 0, s.drop 4)
    | none => .error ⟨.unknownEscape, s.drop 4⟩

/-! ## Escapes -/

/-- The byte that a one-letter escape stands for. -/
def escapedByte? (c : Char) : Option UInt8 :=
  [('\x22', 0x22), ('\\', 0x5C), ('/', 0x2F), ('b', 0x08), ('f', 0x0C), ('n', 0x0A), ('r', 0x0D),
   ('t', 0x09)].lookup c

/-- Read the character `c` of the escape that has to follow the first unit of a pair. -/
def expectInPair (c : Char) : Bytes → Except Refusal (Unit × Bytes)
  | [] => .error ⟨.ended .text, []⟩
  | b :: s => if Char.ofUInt8 b = c then .ok ((), s) else .error ⟨.missingUnit, s⟩

/-- Read the escape of the second unit of a pair: the bytes of the character that the pair denotes. -/
def readLowUnit (high : Nat) (s : Bytes) : Except Refusal (Bytes × Bytes) := do
  let (_, s) ← expectInPair '\\' s
  let (_, s) ← expectInPair 'u' s
  let (low, s) ← readUnit s
  if isLowUnit low then .ok (String.utf8EncodeChar (Char.ofNat (pairValue high low)), s)
  else .error ⟨.loneUnit, s⟩

/-- Read the escape of a unit behind its letter: the bytes of the character that it denotes. -/
def readCharacter (s : Bytes) : Except Refusal (Bytes × Bytes) := do
  let (unit, s) ← readUnit s
  if isLowUnit unit then .error ⟨.loneUnit, s⟩
  else if isHighUnit unit then readLowUnit unit s
  else .ok (String.utf8EncodeChar (Char.ofNat unit), s)

/-- Read an escape behind its backslash: the bytes that it stands for. -/
def readEscape : Bytes → Except Refusal (Bytes × Bytes)
  | [] => .error ⟨.ended .text, []⟩
  | b :: s =>
    if Char.ofUInt8 b = 'u' then readCharacter s
    else
      match escapedByte? (Char.ofUInt8 b) with
      | some byte => .ok ([byte], s)
      | none => .error ⟨.unknownEscape, s⟩

/-- Pass an escape behind its backslash. -/
def skipEscape : Bytes → Except Refusal (Unit × Bytes)
  | [] => .error ⟨.ended .text, []⟩
  | b :: s =>
    if Char.ofUInt8 b = 'u' then (readUnit s).map fun (_, s) => ((), s)
    else if (escapedByte? (Char.ofUInt8 b)).isSome then .ok ((), s)
    else .error ⟨.unknownEscape, s⟩

theorem readUnit_within (s : Bytes) : Within s (readUnit s) := by
  unfold readUnit
  split
  · exact Within.error _ _
  · split
    · exact Within.ok _ (List.drop_suffix 4 s)
    · exact Within.error _ _

theorem expectInPair_within (c : Char) (s : Bytes) : Within s (expectInPair c s) := by
  cases s with
  | nil => exact Within.error _ _
  | cons b s =>
    exact Within.ite (Within.ok _ (List.suffix_cons b s)) (Within.error _ _)

theorem readLowUnit_within (high : Nat) (s : Bytes) : Within s (readLowUnit high s) :=
  (expectInPair_within '\\' s).bind fun _ s => (expectInPair_within 'u' s).bind fun _ s =>
    (readUnit_within s).bind fun _ s =>
      Within.ite (Within.ok _ (List.suffix_refl s)) (Within.error _ _)

theorem readCharacter_within (s : Bytes) : Within s (readCharacter s) :=
  (readUnit_within s).bind fun unit s =>
    Within.ite (Within.error _ _)
      (Within.ite (readLowUnit_within unit s) (Within.ok _ (List.suffix_refl s)))

theorem readEscape_within (s : Bytes) : Within s (readEscape s) := by
  cases s with
  | nil => exact Within.error _ _
  | cons b s =>
    rw [readEscape]
    split
    · exact (readCharacter_within s).trans (List.suffix_cons b s)
    · split
      · exact Within.ok _ (List.suffix_cons b s)
      · exact Within.error _ _

theorem skipEscape_within (s : Bytes) : Within s (skipEscape s) := by
  cases s with
  | nil => exact Within.error _ _
  | cons b s =>
    exact Within.ite (Within.map (readUnit_within s) (List.suffix_cons b s) fun _ => rfl)
      (Within.ite (Within.ok _ (List.suffix_cons b s)) (Within.error _ _))

/-! ## Strings -/

/-- The text of a string, given its bytes with the last one in front. -/
def textOfReversed? (taken : Bytes) : Option String :=
  String.fromUTF8? ⟨taken.reverse.toArray⟩

/-- Read a string up to its closing quote, after the bytes `taken` with the last one in front. -/
def readText (taken : Bytes) (s : Bytes) : Except Refusal (String × Bytes) :=
  match s with
  | [] => .error ⟨.ended .text, []⟩
  | b :: rest =>
    if Char.ofUInt8 b = '\x22' then
      match textOfReversed? taken with
      | some content => .ok (content, rest)
      | none => .error ⟨.malformedText, rest⟩
    else if Char.ofUInt8 b = '\\' then
      match h : readEscape rest with
      | .error refusal => .error refusal
      | .ok (bytes, next) =>
        have : next.length ≤ rest.length := (readEscape_within rest _ h).length_le
        readText (bytes.reverse ++ taken) next
    else if b < 0x20 then .error ⟨.controlCharacter, rest⟩
    else readText (b :: taken) rest
termination_by s.length

/-- Pass a string up to its closing quote. A control character is refused before it is passed. -/
def skipText (s : Bytes) : Except Refusal (Unit × Bytes) :=
  match s with
  | [] => .error ⟨.ended .text, []⟩
  | b :: rest =>
    if Char.ofUInt8 b = '\x22' then .ok ((), rest)
    else if Char.ofUInt8 b = '\\' then
      match h : skipEscape rest with
      | .error refusal => .error refusal
      | .ok (_, next) =>
        have : next.length ≤ rest.length := (skipEscape_within rest _ h).length_le
        skipText next
    else if b < 0x20 then .error ⟨.controlCharacter, b :: rest⟩
    else skipText rest
termination_by s.length

theorem readText_within (taken s : Bytes) : Within s (readText taken s) := by
  fun_induction readText taken s with
  | case1 => exact Within.error _ _
  | case2 taken b rest hquote content hcontent => exact Within.ok _ (List.suffix_cons b rest)
  | case3 => exact Within.error _ _
  | case4 => exact Within.error _ _
  | case5 taken b rest hquote hescape bytes next h hlt ih =>
    exact ih.trans ((readEscape_within rest _ h).trans (List.suffix_cons b rest))
  | case6 => exact Within.error _ _
  | case7 taken b rest hquote hescape hcontrol ih => exact ih.trans (List.suffix_cons b rest)

theorem skipText_within (s : Bytes) : Within s (skipText s) := by
  fun_induction skipText s with
  | case1 => exact Within.error _ _
  | case2 b rest hquote => exact Within.ok _ (List.suffix_cons b rest)
  | case3 => exact Within.error _ _
  | case4 b rest hquote hescape _ next h hlt ih =>
    exact ih.trans ((skipEscape_within rest _ h).trans (List.suffix_cons b rest))
  | case5 => exact Within.error _ _
  | case6 b rest hquote hescape hcontrol ih => exact ih.trans (List.suffix_cons b rest)

end EpisodeCut.Json
