/-!
# Blank characters

Configuration text is laid out with five ASCII characters (`isLayout`). Text that comes from
outside, such as the output of a tool, is trimmed of the wider Unicode class `White_Space`
(`isWhiteSpace`, `trim`); every layout character is white space (`isWhiteSpace_of_isLayout`).
-/

set_option autoImplicit false

namespace EpisodeCut.Text

/-- Layout of configuration text: space, tab, line feed, form feed and carriage return. -/
def isLayout (c : Char) : Bool :=
  c == ' ' || c == '\t' || c == '\n' || c == '\x0c' || c == '\r'

/-- The code points of the Unicode property `White_Space`, as closed ranges. -/
def whiteSpaceRanges : List (Nat × Nat) :=
  [(0x09, 0x0D), (0x20, 0x20), (0x85, 0x85), (0xA0, 0xA0), (0x1680, 0x1680), (0x2000, 0x200A),
   (0x2028, 0x2029), (0x202F, 0x202F), (0x205F, 0x205F), (0x3000, 0x3000)]

/-- Membership in the Unicode property `White_Space`. -/
def isWhiteSpace (c : Char) : Bool :=
  whiteSpaceRanges.any fun range => range.1 ≤ c.toNat && c.toNat ≤ range.2

theorem isWhiteSpace_of_isLayout {c : Char} (h : isLayout c = true) : isWhiteSpace c = true := by
  simp only [isLayout, Bool.or_eq_true, beq_iff_eq] at h
  rcases h with (((rfl | rfl) | rfl) | rfl) | rfl <;> decide

/-- `s` without its longest suffix of characters in the class `p`. -/
def dropRightWhile (p : Char → Bool) (s : List Char) : List Char :=
  (s.reverse.dropWhile p).reverse

/-- `s` without its trailing white space. -/
def trimRight (s : List Char) : List Char :=
  dropRightWhile isWhiteSpace s

/-- `s` without the white space at its two ends. -/
def trim (s : List Char) : List Char :=
  trimRight (s.dropWhile isWhiteSpace)

end EpisodeCut.Text
