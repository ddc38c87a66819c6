/-!
# Text for terminals

Some characters are orders to a terminal rather than text. A log shows them as escapes (`logged`);
a plain message leaves them out, together with the sequences that they open (`plain`), and with them
the styles in which parts of the message are set off (`styled`).
-/

set_option autoImplicit false

namespace EpisodeCut.Text.Terminal

/-- The ASCII control characters up to the space. -/
def isControl (c : Char) : Bool :=
  c.toNat < 0x20

/-- Control characters that only lay text out. -/
def isLayoutControl (c : Char) : Bool :=
  "\t\n\x0c\r".toList.contains c

/-- Whether the code point of a character lies in a closed range. -/
def isWithin (first last : Nat) (c : Char) : Bool :=
  first ≤ c.toNat && c.toNat ≤ last

/-- A number below 256 in two hexadecimal digits. -/
def hexPair (n : Nat) : List Char :=
  [Nat.digitChar (n / 16), Nat.digitChar (n % 16)]

/-- A character as a log shows it: the bell, backspace, form feed, escape and delete characters and
the controls beyond ASCII appear as escapes. -/
def escaped (c : Char) : List Char :=
  if "\x07\x08\x0c\x1b\x7f".toList.contains c then '\\' :: 'x' :: hexPair c.toNat
  else if isWithin 0x80 0x9f c then ['\\', 'u', '\x7b'] ++ hexPair c.toNat ++ ['\x7d']
  else [c]

/-- A text as a log shows it. -/
def logged (text : String) : String :=
  String.ofList (text.toList.flatMap escaped)

/-- A text set off in a style, given by its number. -/
def styled (style text : String) : String :=
  "\x1b[" ++ style ++ "m" ++ text ++ "\x1b[0m"

/-- What a terminal is in the middle of reading. -/
inductive Mode where
  | text
  /-- An escape character has been read. -/
  | escape
  /-- A sequence whose last character has a code point from 30 to 7e. -/
  | sequence
  /-- A control sequence, whose last character has a code point from 40 to 7e. -/
  | controlSequence
  /-- A command for the operating system, which the bell ends. -/
  | systemCommand
  /-- The head of a string for a device, before its parameters. -/
  | deviceHead
  | deviceParameters
  /-- The head of a string for a device, behind its parameters. -/
  | deviceTail
  /-- A string that is not shown, which the byte 9c ends. -/
  | string
  deriving DecidableEq, Repr

namespace Mode

/-- How a terminal goes on after an escape character and `c`. -/
def afterEscape (c : Char) : Mode :=
  if c == '[' then .controlSequence
  else if c == ']' then .systemCommand
  else if c == 'P' then .deviceHead
  else if "X^_".toList.contains c then .string
  else if isWithin 0x20 0x2f c then .sequence
  else if isWithin 0x30 0x7e c then .text
  else .escape

/-- How a terminal goes on after a character that neither is a control nor opens a sequence. -/
def after (mode : Mode) (c : Char) : Mode :=
  match mode with
  | .text => .text
  | .escape => afterEscape c
  | .sequence => if isWithin 0x30 0x7e c then .text else .sequence
  | .controlSequence => if isWithin 0x40 0x7e c then .text else .controlSequence
  | .systemCommand => .systemCommand
  | .deviceHead =>
    if isWithin 0x20 0x2f c then .deviceTail
    else if isWithin 0x30 0x3f c then .deviceParameters
    else if isWithin 0x40 0x7e c then .string
    else .deviceHead
  | .deviceParameters =>
    if isWithin 0x20 0x2f c then .deviceTail
    else if isWithin 0x3c 0x7e c then .string
    else .deviceParameters
  | .deviceTail => if isWithin 0x30 0x7e c then .string else .deviceTail
  | .string => if (String.utf8EncodeChar c).contains 0x9c then .text else .string

/-- Whether layout takes effect in the middle of what is read. -/
def admitsLayout : Mode → Bool
  | .text | .escape | .sequence | .controlSequence => true
  | _ => false

end Mode

/-- A terminal: what it is in the middle of, and whether layout has interrupted that. Then text is
shown until the next control, which takes up again what was interrupted. -/
structure Screen where
  mode : Mode
  interrupted : Bool
  deriving DecidableEq, Repr

namespace Screen

/-- The screen in the middle of text. -/
def blank : Screen := ⟨.text, false⟩

/-- Read a character that is shown if the screen is in the middle of text: layout leaves a sequence
to be taken up again, a character beyond ASCII ends it. -/
def readText (screen : Screen) (c : Char) : Screen × Bool :=
  if isLayoutControl c || isWithin 0x20 0x7e c then (⟨screen.mode, true⟩, true)
  else if isControl c || c == '\x7f' then (⟨screen.mode, false⟩, false)
  else (blank, true)

/-- Read a character in the middle of a sequence. -/
def readSequence (screen : Screen) (c : Char) : Screen × Bool :=
  if isLayoutControl c && screen.mode.admitsLayout then (⟨screen.mode, true⟩, true)
  else if screen.mode == .systemCommand && c == '\x07' then (blank, false)
  else if isControl c then (screen, false)
  else (⟨screen.mode.after c, false⟩, false)

/-- Read a character; the answer tells whether it is shown. An escape character opens a sequence
wherever it stands, and two controls break any sequence off. -/
def read (screen : Screen) (c : Char) : Screen × Bool :=
  if c == '\x1b' then (⟨.escape, false⟩, false)
  else if c == '\x18' || c == '\x1a' then (blank, false)
  else if screen.interrupted || screen.mode == .text then screen.readText c
  else screen.readSequence c

/-- What a screen shows of a text. -/
def shown (screen : Screen) : List Char → List Char
  | [] => []
  | c :: rest =>
    let (next, isShown) := screen.read c
    if isShown then c :: next.shown rest else next.shown rest

end Screen

/-- A text without what is no text to a terminal. -/
def plain (text : String) : String :=
  String.ofList (Screen.blank.shown text.toList)

end EpisodeCut.Text.Terminal
