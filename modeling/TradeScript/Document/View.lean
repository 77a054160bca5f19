/-!
# TradeScript.Document.View

The two views of a source line. The *code view* has every comment blanked; the
*bare view* has the inside of string and character literals blanked too. A
blanked character becomes as many spaces as it has UTF-8 bytes, so a byte offset
into a view is a byte offset into the line itself.

Comment markers are recognised before literals are: `"http://host"` holds the
start of a line comment.
-/

namespace TradeScript

/-- A run of spaces as wide as the character's UTF-8 encoding. -/
def blankOut (c : Char) : List Char :=
  List.replicate c.utf8Size ' '

/-- Every character blanked. -/
def blankAll (cs : List Char) : List Char :=
  cs.flatMap blankOut

/-- The code view of a line and whether the line ends inside a block comment,
given whether it starts inside one. Markers are taken two characters at a time,
so `/*/` opens a comment and does not close it. -/
def codeView : Bool → List Char → List Char × Bool
  | inBlock, [] => ([], inBlock)
  | true, '*' :: '/' :: rest =>
      let r := codeView false rest
      (' ' :: ' ' :: r.1, r.2)
  | true, c :: rest =>
      let r := codeView true rest
      (blankOut c ++ r.1, r.2)
  | false, '/' :: '/' :: rest => (' ' :: ' ' :: blankAll rest, false)
  | false, '/' :: '*' :: rest =>
      let r := codeView true rest
      (' ' :: ' ' :: r.1, r.2)
  | false, c :: rest =>
      let r := codeView false rest
      (c :: r.1, r.2)

/-- The code views of consecutive lines; a block comment runs on from one line
to the next. Each view is paired with the state after its line. -/
def codeViews : Bool → List (List Char) → List (List Char × Bool)
  | _, [] => []
  | inBlock, line :: rest =>
      let view := codeView inBlock line
      view :: codeViews view.2 rest

/-- Blank the inside of literals. `quote` is the quote that opened the literal
the text starts in, if any. The quotes stay; a backslash inside a literal takes
the next character with it; a literal left open runs to the end. -/
def maskFrom : Option Char → List Char → List Char
  | _, [] => []
  | none, c :: rest =>
      c :: maskFrom (if c = '"' ∨ c = '\'' then some c else none) rest
  | some _, ['\\'] => [' ']
  | some q, '\\' :: e :: rest => ' ' :: blankOut e ++ maskFrom (some q) rest
  | some q, c :: rest =>
      if c = q then c :: maskFrom none rest
      else blankOut c ++ maskFrom (some q) rest

/-- The bare view of a code view. -/
def bareView (code : List Char) : List Char :=
  maskFrom none code

end TradeScript
