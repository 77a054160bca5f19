import TradeScript.Diagnostic.Basic
import TradeScript.Document.Basic
import TradeScript.Scan.Reader
import TradeScript.Vocabulary.Types

/-!
# TradeScript.Check.Statement

Two checks of statements, line by line. A statement line has to end in a
semicolon; a statement may run over several lines only where a line ends in a
mark that continues it. Code after a `return` is never reached, as far as lines
tell: the search stops at an empty line and at a closing brace on its own.
-/

namespace TradeScript.Check

open Scan (inTurn exactly gap blanks wordOf)

/-! ### Missing semicolons -/

/-- What may end a line instead of a semicolon. -/
def lineEnds : List (List Char) :=
  [[';'], [','], ['&', '&'], ['|', '|'], ['{'], ['}'], [')']]

/-- The words at the start of lines that take no semicolon. -/
def controlWords : List String :=
  ["if", "else", "for", "while", "do", "switch", "case", "default"]

/-- Does the code start with a control word? -/
def startsControl (code : List Char) : Bool :=
  controlWords.contains (String.ofList (code.takeWhile Text.isWord))

/-- Is the code the heading of a group of inputs, `input group "title"`? -/
def isInputGroup (code : List Char) : Bool :=
  match inTurn [exactly "input".toList, gap, exactly "group".toList, gap, exactly ['"']] code with
  | some (_, title) => title.getLast? == some '"'
  | none => false

/-- Is the code the label of a part of a class, as `public:` is? -/
def isAccessLabel (code : List Char) : Bool :=
  match inTurn [wordOf Vocabulary.accessWords, blanks, exactly [':']] code with
  | some (_, rest) => rest.isEmpty
  | none => false

/-- May the code of a line, without blanks at its ends, stand without a
semicolon? -/
def needsNoSemicolon (code : List Char) : Bool :=
  code.isEmpty || code.head? == some '#' || lineEnds.any (Text.endsIn · code) ||
    startsControl code || isInputGroup code || isAccessLabel code

/-- Report a statement line without a semicolon, at its end. -/
def semicolon (doc : Document) (line : Line) (number : Nat) : List Diagnostic :=
  if needsNoSemicolon (Text.trim line.code) then []
  else
    let number := UInt32.ofNatClamp number
    [Finding.missingSemicolon.report (Range.point number (doc.lineLength number))]

/-! ### Unreachable code -/

/-- Is the code of a line, without blanks at its ends, a `return`? -/
def isReturn (code : List Char) : Bool :=
  code == "return;".toList || "return ".toList.isPrefixOf code

/-- The first line with code, unless an empty line or a closing brace on its own
comes before it. Lines that hold only comments are passed over. -/
def nextStatement : List (Line × Nat) → Option Nat
  | [] => none
  | (line, number) :: rest =>
      let code := Text.trim line.code
      if (Text.trim line.raw).isEmpty || code == ['}'] then none
      else if code.isEmpty then nextStatement rest
      else some number

/-- The lines that follow a `return` directly. -/
def unreachableLines : List (Line × Nat) → List Nat
  | [] => []
  | (line, _) :: rest =>
      (if isReturn (Text.trim line.code) then (nextStatement rest).toList else []) ++
        unreachableLines rest

/-- Report the first statement after each `return`, as a whole line. -/
def unreachable (doc : Document) : List Diagnostic :=
  (unreachableLines doc.numbered).map fun number =>
    Finding.unreachableCode.report (doc.fullLine number)

end TradeScript.Check
