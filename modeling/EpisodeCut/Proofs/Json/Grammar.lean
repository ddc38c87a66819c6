import EpisodeCut.Json.Value
import Mathlib.Data.List.Forall2

/-!
# The grammar of JSON texts

What makes a text one of a value, without regard to any reader. A string may be written with any
escapes (`StringText`), a number in any notation (`NumberText`), and white space may stand around
the items of arrays and the members of objects (`ItemsText`). A value that nobody looks at may be
any value (`ValueText`); of its strings only the form is asked for, so they may hold units that
denote no character (`RawText`). A record is an object in which some members are given; they may
stand in any order, and others may stand between them (`RecordText`).
-/

set_option autoImplicit false

namespace EpisodeCut.Json

/-- The bytes of ASCII text. -/
def ascii (text : String) : Bytes :=
  text.toList.map Char.toUInt8

/-- White space, or nothing. -/
def IsBlank (s : Bytes) : Prop :=
  ∀ b ∈ s, isSpace b = true

/-! ## Strings -/

/-- A hexadecimal digit, in either case. -/
def IsHexDigit (value : Nat) (b : UInt8) : Prop :=
  value < 16 ∧ (b = (Nat.digitChar value).toUInt8 ∨ b = (Nat.digitChar value).toUpper.toUInt8)

/-- The four digits of a UTF-16 unit. -/
inductive UnitText : Nat → Bytes → Prop where
  | digits {i j k l : Nat} {p q r s : UInt8} (hi : IsHexDigit i p) (hj : IsHexDigit j q)
    (hk : IsHexDigit k r) (hl : IsHexDigit l s) :
    UnitText (16 * (16 * (16 * i + j) + k) + l) [p, q, r, s]

/-- The letters that are escapes, with the characters that they stand for. -/
def letterEscapes : List (Char × Char) :=
  [('\x22', '\x22'), ('\\', '\\'), ('/', '/'), ('b', '\x08'), ('f', '\x0C'), ('n', '\n'),
   ('r', '\r'), ('t', '\t')]

/-- The ways in which a character is written in a string. -/
inductive CharText : Char → Bytes → Prop where
  | plain {c : Char} (printable : 0x20 ≤ c.toNat) (noQuote : c ≠ '\x22') (noEscape : c ≠ '\\') :
    CharText c (String.utf8EncodeChar c)
  | short {letter c : Char} (h : (letter, c) ∈ letterEscapes) : CharText c [0x5C, letter.toUInt8]
  | unit {c : Char} {digits : Bytes} (h : UnitText c.toNat digits) :
    CharText c (ascii "\\u" ++ digits)
  /-- A character beyond the units is written as a pair of units. -/
  | pair {c : Char} {offset : Nat} {first second : Bytes} (beyond : c.toNat = 0x10000 + offset)
    (high : UnitText (0xD800 + offset / 0x400) first)
    (low : UnitText (0xDC00 + offset % 0x400) second) :
    CharText c (ascii "\\u" ++ (first ++ (ascii "\\u" ++ second)))

/-- Characters one after another. -/
inductive CharsText : List Char → Bytes → Prop where
  | nil : CharsText [] []
  | cons {c : Char} {rest : List Char} {s t : Bytes} (char : CharText c s)
    (chars : CharsText rest t) : CharsText (c :: rest) (s ++ t)

/-- A string between its quotes. -/
inductive StringText (content : String) : Bytes → Prop where
  | quoted {s : Bytes} (chars : CharsText content.toList s) :
    StringText content (0x22 :: (s ++ [0x22]))

theorem charsText_plain {cs : List Char}
    (plain : ∀ c ∈ cs, 0x20 ≤ c.toNat ∧ c ≠ '\x22' ∧ c ≠ '\\') :
    CharsText cs (cs.flatMap String.utf8EncodeChar) := by
  induction cs with
  | nil => exact .nil
  | cons c cs ih =>
    obtain ⟨⟨hprintable, hquote, hescape⟩, hrest⟩ := List.forall_mem_cons.1 plain
    exact .cons (.plain hprintable hquote hescape) (ih hrest)

/-- Most strings may be written as they are. -/
theorem stringText_plain {content : String}
    (plain : content.toList.all fun c => 0x20 ≤ c.toNat ∧ c ≠ '\x22' ∧ c ≠ '\\') :
    StringText content (0x22 :: (content.toList.flatMap String.utf8EncodeChar ++ [0x22])) :=
  .quoted (charsText_plain fun c hc => of_decide_eq_true (List.all_eq_true.1 plain c hc))

/-- What has the form of the inside of a string, whatever it denotes, if anything. -/
inductive RawText : Bytes → Prop where
  | nil : RawText []
  | plain {b : UInt8} {s : Bytes} (printable : 0x20 ≤ b) (noQuote : b ≠ 0x22) (noEscape : b ≠ 0x5C)
    (rest : RawText s) : RawText (b :: s)
  | short {letter c : Char} {s : Bytes} (h : (letter, c) ∈ letterEscapes) (rest : RawText s) :
    RawText (0x5C :: letter.toUInt8 :: s)
  | unit {unit : Nat} {digits s : Bytes} (h : UnitText unit digits) (rest : RawText s) :
    RawText (ascii "\\u" ++ (digits ++ s))

/-- What has the form of a string. -/
inductive RawString : Bytes → Prop where
  | quoted {s : Bytes} (raw : RawText s) : RawString (0x22 :: (s ++ [0x22]))

/-! ## Numbers -/

/-- One digit or more. -/
structure DigitsText (s : Bytes) : Prop where
  nonempty : s ≠ []
  digits : ∀ b ∈ s, isDigit b = true

/-- The digits before the point: a zero in front stands alone. -/
structure WholeText (s : Bytes) : Prop extends DigitsText s where
  alone : s.head? = some 0x30 → s = [0x30]

/-- The point and the digits behind it, which may be missing together. -/
inductive FractionText : Bytes → Prop where
  | missing : FractionText []
  | point {s : Bytes} (digits : DigitsText s) : FractionText (0x2E :: s)

/-- The power of ten, which may be missing. -/
inductive PowerText : Bytes → Prop where
  | missing : PowerText []
  | power {e : UInt8} {sign s : Bytes} (he : e = 0x65 ∨ e = 0x45)
    (hsign : sign = [] ∨ sign = [0x2B] ∨ sign = [0x2D]) (digits : DigitsText s) :
    PowerText (e :: (sign ++ s))

/-- A number behind its sign. -/
inductive UnsignedText : Bytes → Prop where
  | parts {whole fraction power : Bytes} (hwhole : WholeText whole)
    (hfraction : FractionText fraction) (hpower : PowerText power) :
    UnsignedText (whole ++ (fraction ++ power))

/-- A number. -/
inductive NumberText : Bytes → Prop where
  | plain {s : Bytes} (h : UnsignedText s) : NumberText s
  | minus {s : Bytes} (h : UnsignedText s) : NumberText (0x2D :: s)

/-! ## Arrays and objects -/

/-- Items with a comma between each two, and white space around each. -/
inductive ItemsText : List Bytes → Bytes → Prop where
  | last {before item after : Bytes} (hbefore : IsBlank before) (hafter : IsBlank after) :
    ItemsText [item] (before ++ (item ++ after))
  | cons {before item after : Bytes} {items : List Bytes} {s : Bytes} (hbefore : IsBlank before)
    (hafter : IsBlank after) (more : ItemsText items s) :
    ItemsText (item :: items) (before ++ (item ++ (after ++ 0x2C :: s)))

/-- The byte that opens an array or object. -/
def Bracket.openByte : Bracket → UInt8
  | .array => 0x5B
  | .object => 0x7B

/-- The byte that closes an array or object. -/
def Bracket.closeByte : Bracket → UInt8
  | .array => 0x5D
  | .object => 0x7D

/-- Items between the brackets of an array or object. -/
inductive BracketText (bracket : Bracket) : List Bytes → Bytes → Prop where
  | empty {blank : Bytes} (h : IsBlank blank) :
    BracketText bracket [] (bracket.openByte :: (blank ++ [bracket.closeByte]))
  | items {items : List Bytes} {s : Bytes} (h : ItemsText items s) :
    BracketText bracket items (bracket.openByte :: (s ++ [bracket.closeByte]))

theorem BracketText.exists_inner {bracket : Bracket} {items : List Bytes} {s : Bytes}
    (h : BracketText bracket items s) :
    ∃ inner, s = bracket.openByte :: (inner ++ [bracket.closeByte]) ∧
      (items = [] ∧ IsBlank inner ∨ ItemsText items inner) := by
  cases h with
  | empty h => exact ⟨_, rfl, .inl ⟨rfl, h⟩⟩
  | items h => exact ⟨_, rfl, .inr h⟩

/-- A member of an object, given the texts of its key and its value. -/
inductive MemberText : Bytes × Bytes → Bytes → Prop where
  | pair {key before after value : Bytes} (hbefore : IsBlank before) (hafter : IsBlank after) :
    MemberText (key, value) (key ++ (before ++ 0x3A :: (after ++ value)))

/-- An object, given the texts of its keys and values. -/
def ObjectText (members : List (Bytes × Bytes)) (s : Bytes) : Prop :=
  ∃ items, List.Forall₂ MemberText members items ∧ BracketText .object items s

/-- Any value. -/
inductive ValueText : Bytes → Prop where
  | word {word : String} (h : word ∈ ["null", "true", "false"]) : ValueText (ascii word)
  | number {s : Bytes} (h : NumberText s) : ValueText s
  | string {s : Bytes} (h : RawString s) : ValueText s
  | array {items : List Bytes} {s : Bytes} (values : ∀ item ∈ items, ValueText item)
    (h : BracketText .array items s) : ValueText s
  | object {members : List (Bytes × Bytes)} {s : Bytes}
    (keys : ∀ member ∈ members, RawString member.1)
    (values : ∀ member ∈ members, ValueText member.2) (h : ObjectText members s) : ValueText s

/-! ## Records -/

/-- A member of a record: its name, and the texts that its value may have. -/
abbrev Entry := String × (Bytes → Prop)

/-- The key and the value of a member are written. -/
def Entry.Written (entry : Entry) (member : Bytes × Bytes) : Prop :=
  StringText entry.1 member.1 ∧ entry.2 member.2

/-- A record in which the entries `known` are given. Beside them there may be members with any
values and with any names but `names`, and all of them may stand in any order. -/
def RecordText (names : List String) (known : List Entry) (s : Bytes) : Prop :=
  ∃ others order members, (∀ entry ∈ others, entry.1 ∉ names ∧ entry.2 = ValueText) ∧
    order.Perm (known ++ others) ∧ List.Forall₂ Entry.Written order members ∧ ObjectText members s

/-- A list of values, given the texts that each of them may have. -/
def ListText {α : Type} (Text : α → Bytes → Prop) (values : List α) (s : Bytes) : Prop :=
  ∃ items, List.Forall₂ Text values items ∧ BracketText .array items s

/-- A natural number in digits. -/
def WordText (n : UInt32) (s : Bytes) : Prop :=
  s = (Text.Numeral.write n.toNat).map Char.toUInt8

/-- A value that may be missing from a record, or null. -/
inductive Presence (α : Type) where
  | absent
  | null
  | present (a : α)
  deriving DecidableEq, Repr

namespace Presence

variable {α : Type}

/-- The value, if there is one. -/
def value? : Presence α → Option α
  | .absent | .null => none
  | .present a => some a

/-- The entry of a record for a value of which the texts are given, or no entry. -/
def entries (name : String) (Text : α → Bytes → Prop) : Presence α → List Entry
  | .absent => []
  | .null => [(name, (· = ascii "null"))]
  | .present a => [(name, Text a)]

end Presence

end EpisodeCut.Json
