/-!
# Shell words

A list of words is shown as one shell command line (`commandLine`). A word is cut into pieces, each
as long as one style of quoting admits all its characters, and every piece is written in the most
readable style that it admits: bare, in single quotes, or in double quotes with backslashes. Only
single quotes keep a caret from history expansion, and only at their start; so a caret always opens
a piece of its own. No style carries a NUL, and a command line with a NUL is shown unquoted.
-/

set_option autoImplicit false

namespace EpisodeCut.Text.ShellWord

/-- Ways to write a piece of a word, the most readable one first. -/
inductive Style where
  | bare
  | single
  | double
  deriving DecidableEq, Repr

/-- The characters that need no quotes. -/
def isPlain (c : Char) : Bool :=
  c.isAlphanum || "+-./:@]_".toList.contains c

/-- The characters that a style carries inside a piece. -/
def Style.admits : Style → Char → Bool
  | .bare, c => isPlain c
  | .single, c => !"\x27\\^".toList.contains c
  | .double, c => !"\x60$!^".toList.contains c

/-- All styles in order of preference. -/
def styles : List Style :=
  [.bare, .single, .double]

/-- The styles that a piece beginning with `c` may have. -/
def opening (c : Char) : List Style :=
  if c == '^' then [.single] else styles.filter (·.admits c)

/-- A part of a word that is written in one style. -/
structure Piece where
  style : Style
  text : List Char
  deriving DecidableEq, Repr

/-- The piece with the characters `taken`, last one first, in the first of the styles `left`. -/
def Piece.close (left : List Style) (taken : List Char) : Piece :=
  ⟨left.headD .double, taken.reverse⟩

/-- Continue a piece that holds the characters `taken`, last one first, and may still be written
in any of the styles `left`. -/
def extend (left : List Style) (taken : List Char) : List Char → List Piece
  | [] => [Piece.close left taken]
  | c :: rest =>
    match left.filter (·.admits c) with
    -- No style is left that carries both the piece and `c`, so `c` begins the next piece.
    | [] => Piece.close left taken :: extend (opening c) [c] rest
    | kept => extend kept (c :: taken) rest

/-- The pieces of a word. -/
def pieces : List Char → List Piece
  | [] => []
  | c :: rest => extend (opening c) [c] rest

/-- A character inside double quotes. -/
def escaped (c : Char) : List Char :=
  if c == '\x22' || c == '\\' then ['\\', c] else [c]

/-- A piece with its quotes. -/
def Piece.quoted (piece : Piece) : List Char :=
  match piece.style with
  | .bare => piece.text
  | .single => '\x27' :: piece.text ++ ['\x27']
  | .double => '\x22' :: piece.text.flatMap escaped ++ ['\x22']

/-- A word with the quotes it needs; the empty word is a pair of single quotes. -/
def quoted (word : List Char) : List Char :=
  match pieces word with
  | [] => ['\x27', '\x27']
  | parts => parts.flatMap Piece.quoted

/-- The words as one command line. -/
def commandLine (words : List String) : String :=
  if words.any (·.toList.contains '\x00') then
    " ".intercalate words
  else
    " ".intercalate (words.map fun word => String.ofList (quoted word.toList))

end EpisodeCut.Text.ShellWord
