import TradeScript.Text.Basic

/-!
# TradeScript.Data.Yaml.Cursor

A place in a YAML text: what follows it, and how far it is from the start of the
text and of its line. Blanks are spaces and tabs. There are five kinds of line
breaks, and what stands at the end of the text counts as a break where one is asked
for.
-/

namespace TradeScript.Yaml

/-- A space or a tab. -/
def isBlank (c : Char) : Bool :=
  c == ' ' || c == '\t'

/-- A character that ends a line. -/
def isBreak (c : Char) : Bool :=
  c == '\n' || c == '\r' || c == '\u0085' || c == '\u2028' || c == '\u2029'

/-- A blank or a line break. -/
def isGap (c : Char) : Bool :=
  isBlank c || isBreak c

/-- A character of a name: of an anchor, a directive or a tag handle. -/
def isNameChar (c : Char) : Bool :=
  c.isAlphanum || c == '_' || c == '-'

/-- A character that has a meaning inside of flow collections. -/
def isFlowMark (c : Char) : Bool :=
  c == ',' || c == '[' || c == ']' || c == '\x7b' || c == '\x7d'

/-- May the character stand in a text? -/
def isPrintable (c : Char) : Bool :=
  let n := c.toNat
  c == '\t' || c == '\n' || c == '\r' || (0x20 ≤ n && n ≤ 0x7E) || n == 0x85 ||
    (0xA0 ≤ n && n ≤ 0xD7FF) || (0xE000 ≤ n && n ≤ 0xFFFD) || 0x10000 ≤ n

/-- Does nothing, or a gap, stand at the front of the text? -/
def startsGap : List Char → Bool
  | [] => true
  | c :: _ => isGap c

/-- A place in a text. -/
structure Cursor where
  /-- The text from here on. -/
  rest : List Char
  /-- The number of bytes before it. -/
  index : Nat := 0
  /-- The number of lines before its line. -/
  line : Nat := 0
  /-- The number of characters before it on its line. -/
  column : Nat := 0

namespace Cursor

/-- The place behind the next characters, which are not line breaks. -/
def skip (count : Nat) (c : Cursor) : Cursor :=
  { c with
    rest := c.rest.drop count
    index := c.index + Text.byteLength (c.rest.take count)
    column := c.column + (c.rest.take count).length }

/-- The longest front of the text whose characters, which are not line breaks, are
all of a class, and the place behind it. -/
def span (p : Char → Bool) (c : Cursor) : List Char × Cursor :=
  let front := c.rest.takeWhile p
  (front, c.skip front.length)

/-- The place behind blanks. -/
def skipBlanks (c : Cursor) : Cursor :=
  (c.span isBlank).2

/-- The place behind what is left of the line. -/
def skipLine (c : Cursor) : Cursor :=
  (c.span fun ch => !isBreak ch).2

/-- The place behind a comment, if one stands here. -/
def skipComment (c : Cursor) : Cursor :=
  match c.rest with
  | '#' :: _ => c.skipLine
  | _ => c

/-- The start of the next line. -/
def nextLine (c : Cursor) (rest : List Char) (bytes : Nat) : Cursor :=
  { rest, index := c.index + bytes, line := c.line + 1, column := 0 }

/-- The line break that stands here and the place behind it. It counts as a newline,
unless it separates lines or paragraphs by its name. -/
def break? (c : Cursor) : Option (Char × Cursor) :=
  match c.rest with
  | '\r' :: '\n' :: rest => some ('\n', c.nextLine rest 2)
  | ch :: rest =>
      if isBreak ch then
        let kept := ch == '\u2028' || ch == '\u2029'
        some (if kept then ch else '\n', c.nextLine rest ch.utf8Size)
      else none
  | [] => none

/-- Does the line, or the text, end here? -/
def atLineEnd (c : Cursor) : Bool :=
  c.rest.isEmpty || c.rest.head?.any isBreak

/-- Does a mark of three characters stand here, at the start of a line and with a gap
behind it? -/
def atMark (mark : List Char) (c : Cursor) : Bool :=
  c.column == 0 && mark.isPrefixOf c.rest && startsGap (c.rest.drop mark.length)

/-- Does a mark stand here that starts a document? -/
def atStartMark (c : Cursor) : Bool :=
  c.atMark ['-', '-', '-']

/-- Does a mark stand here that ends a document? -/
def atEndMark (c : Cursor) : Bool :=
  c.atMark ['.', '.', '.']

end Cursor

end TradeScript.Yaml
