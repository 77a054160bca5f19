import TradeScript.Text.Ranges

/-!
# TradeScript.Text.Blank

White space (the `White_Space` property) and trimming it from the ends of a
text. The newline is white space too, so blanks may run across lines.
-/

namespace TradeScript.Text

/-- The white space characters, as increasing inclusive ranges of code points. -/
def blankRanges : List (Nat × Nat) :=
  [(0x9, 0xD), (0x20, 0x20), (0x85, 0x85), (0xA0, 0xA0), (0x1680, 0x1680), (0x2000, 0x200A),
   (0x2028, 0x2029), (0x202F, 0x202F), (0x205F, 0x205F), (0x3000, 0x3000)]

/-- White space. -/
def isBlank (c : Char) : Bool :=
  inRanges blankRanges c

/-- The text from its first character that is not white space. -/
def trimStart (cs : List Char) : List Char :=
  cs.dropWhile isBlank

/-- The text up to its last character that is not white space. -/
def trimEnd (cs : List Char) : List Char :=
  (cs.reverse.dropWhile isBlank).reverse

/-- The text without the white space at both ends. -/
def trim (cs : List Char) : List Char :=
  trimEnd (trimStart cs)

/-- The string without the white space at both ends. -/
def trimString (s : String) : String :=
  String.ofList (trim s.toList)

end TradeScript.Text
