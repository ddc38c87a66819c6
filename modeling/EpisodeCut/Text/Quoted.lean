import EpisodeCut.Text.Shape

/-!
# Quoted text

Text is quoted in a message so that every character can be told: quotes, backslashes and characters
without a shape of their own appear as escapes.
-/

set_option autoImplicit false

namespace EpisodeCut.Text.Quoted

/-- The escapes of one letter. -/
def letterEscapes : List (Char × Char) :=
  [('\x00', '0'), ('\t', 't'), ('\r', 'r'), ('\n', 'n'), ('\\', '\\'), ('\x22', '\x22')]

/-- A character of a quoted text. -/
def quoteChar (c : Char) : List Char :=
  match letterEscapes.lookup c with
  | some letter => ['\\', letter]
  | none =>
    if hasShape c then [c] else ['\\', 'u', '\x7b'] ++ Nat.toDigits 16 c.toNat ++ ['\x7d']

/-- A text in quotes. -/
def quote (text : String) : String :=
  String.ofList ('\x22' :: text.toList.flatMap quoteChar ++ ['\x22'])

end EpisodeCut.Text.Quoted
