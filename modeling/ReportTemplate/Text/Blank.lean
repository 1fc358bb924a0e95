import ReportTemplate.Text.Ranges

/-!
# ReportTemplate.Text.Blank — white space

The twenty-five characters of the Unicode property White_Space, and the cut of them from both ends
of a text.
-/

namespace ReportTemplate.Text

/-- White space, as closed ranges of code points. -/
def blankRanges : List (Nat × Nat) := [
  (0x09, 0x0D), (0x20, 0x20), (0x85, 0x85), (0xA0, 0xA0), (0x1680, 0x1680), (0x2000, 0x200A),
  (0x2028, 0x2029), (0x202F, 0x202F), (0x205F, 0x205F), (0x3000, 0x3000)]

/-- A character of the property White_Space. -/
def isBlank (c : Char) : Bool := inRanges blankRanges c.toNat

/-- The text without the white space in front of it. -/
def trimStart (s : List Char) : List Char := s.dropWhile isBlank

/-- The text without the white space behind it. -/
def trimEnd (s : List Char) : List Char := (s.reverse.dropWhile isBlank).reverse

/-- The text without the white space around it. -/
def trim (s : List Char) : List Char := trimEnd (trimStart s)

end ReportTemplate.Text
