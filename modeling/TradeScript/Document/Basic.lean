import TradeScript.Document.View
import TradeScript.Position
import TradeScript.Text.Basic
import TradeScript.Text.Blank

/-!
# TradeScript.Document.Basic

A document is the list of its lines, each in three views: as written (`raw`),
without comments (`code`), and without comments and literal contents (`bare`).
Scanners work on the bare views, or on the *bare text*, which is the bare lines
joined by newlines, and give byte offsets; this module turns offsets into
positions.
-/

namespace TradeScript

open Text (byteLength column)

/-- One line of a document in its three views. -/
structure Line where
  /-- The line as written, without its terminator. -/
  raw : List Char
  /-- Comments blanked. -/
  code : List Char
  /-- Comments and literal contents blanked. -/
  bare : List Char
  deriving Repr, DecidableEq

/-- A text cut into lines and seen through its views. -/
structure Document where
  lines : List Line
  /-- The lengths of the bare lines in bytes. -/
  lengths : List Nat := lines.map fun line => byteLength line.bare
  deriving Repr, DecidableEq

/-- Drop one carriage return at the end of a line. -/
def dropReturn : List Char → List Char
  | [] => []
  | ['\r'] => []
  | c :: cs => c :: dropReturn cs

/-- The lines of a text: it is cut at every newline, and a carriage return
before a newline or at the end of the text is not part of the line. -/
def rawLines (text : List Char) : List (List Char) :=
  (Text.splitAt '\n' text).map dropReturn

namespace Line

/-- A line from its raw text and its code view. -/
def ofCode (raw code : List Char) : Line :=
  ⟨raw, code, bareView code⟩

/-- Is the line a preprocessor line, one whose first visible character is `#`? -/
def isDirective (line : Line) : Bool :=
  (Text.trimStart line.bare).head? == some '#'

end Line

namespace Document

/-- Cut a text into lines and compute their views. -/
def ofText (text : List Char) : Document :=
  let raws := rawLines text
  { lines := raws.zipWith (fun raw view => Line.ofCode raw view.1) (codeViews false raws) }

/-- The number of lines, at least one. -/
def lineCount (doc : Document) : Nat :=
  doc.lines.length

/-- The lines with their indices. In positions an index is a number of 32 bits. -/
def numbered (doc : Document) : List (Line × Nat) :=
  doc.lines.zipIdx

/-- The raw text of a line; empty past the last line. -/
def rawLine (doc : Document) (line : Nat) : List Char :=
  match doc.lines[line]? with
  | some l => l.raw
  | none => []

/-- The length of a raw line in UTF-16 code units. -/
def lineLength (doc : Document) (line : UInt32) : UInt32 :=
  let raw := doc.rawLine line.toNat
  column raw (byteLength raw)

/-- The bare lines joined by newlines. -/
def bareText (doc : Document) : List Char :=
  Text.joinWith '\n' (doc.lines.map Line.bare)

/-- The range between two byte offsets of one line, whose columns are looked up on
the line that the range names. -/
def span (doc : Document) (index first last : Nat) : Range :=
  let line := UInt32.ofNatClamp index
  let raw := doc.rawLine line.toNat
  Range.onLine line (column raw first) (column raw last)

/-- The range of a whole raw line. -/
def fullLine (doc : Document) (index : Nat) : Range :=
  let line := UInt32.ofNatClamp index
  Range.onLine line 0 (doc.lineLength line)

/-- The line and byte column of an offset into lines of the given byte lengths,
each followed by one newline. An offset past the end lies on the last line. -/
def locateIn : List Nat → Nat → Nat × Nat
  | [], offset => (0, offset)
  | [_], offset => (0, offset)
  | len :: next :: rest, offset =>
      if offset ≤ len then (0, offset)
      else
        let (line, column) := locateIn (next :: rest) (offset - (len + 1))
        (line + 1, column)

/-- The index of the line of a byte offset into the bare text, and its byte column. -/
def placeOf (doc : Document) (offset : Nat) : Nat × Nat :=
  locateIn doc.lengths offset

/-- The line of a byte offset into the bare text, and its byte column. -/
def locate (doc : Document) (offset : Nat) : UInt32 × Nat :=
  let (index, column) := doc.placeOf offset
  (.ofNatClamp index, column)

/-- Is the byte offset into the bare text on a preprocessor line? -/
def onDirective (doc : Document) (offset : Nat) : Bool :=
  match doc.lines[(doc.placeOf offset).1]? with
  | some line => line.isDirective
  | none => false

/-- The range of a stretch of the bare text that stays on one line. -/
def spanAt (doc : Document) (first last : Nat) : Range :=
  let (line, column) := doc.locate first
  doc.span line.toNat column (column + (last - first))

/-- The position of a byte offset into the bare text. -/
def positionAt (doc : Document) (offset : Nat) : Position :=
  (doc.spanAt offset offset).start

end Document

end TradeScript
