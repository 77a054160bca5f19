import TradeScript.Diagnostic.Basic
import TradeScript.Document.Basic
import TradeScript.Scan.Occurrence
import TradeScript.Text.Digit

/-!
# TradeScript.Check.Literal

Checks of literals. A literal in the initialisation of a variable has to suit
the variable's type; nothing follows later assignments or expressions. A number
of several digits is better given a name.
-/

namespace TradeScript.Check

open Scan

/-! ### Literals of the wrong type -/

/-- A variable that is declared and given a literal: `type name = value`. -/
structure Initialisation where
  /-- The text up to the value. -/
  lead : List Char
  type : List Char
  name : List Char
  value : List Char
  deriving Repr, DecidableEq

instance : Matched Initialisation where
  text i := i.lead ++ i.value

/-- Recognise the initialisation of a variable of one of the types. -/
def initialising (types : List String) (value : Reader) : Recogniser Initialisation :=
  fun previous cs =>
    if opensWord previous then do
      let (type, rest) ← wordOf types cs
      let (space, rest) ← gap rest
      let (name, rest) ← identifier rest
      let (equals, rest) ← inTurn [blanks, exactly ['='], blanks] rest
      let (value, _) ← value rest
      some ⟨type ++ space ++ name ++ equals, type, name, value⟩
    else none

/-- A text literal. In the bare view its inside is blank. -/
def textLiteral : Reader :=
  inTurn [exactly ['"'], manyOf (· != '"'), exactly ['"']]

/-- A number. -/
def numberLiteral : Reader :=
  inTurn [someOf Char.isDigit, optional (exactly ['.']), manyOf Char.isDigit]

/-- A truth value. -/
def truthLiteral : Reader :=
  inTurn [oneOf [exactly "true".toList, exactly "false".toList], wordEnd]

/-- The name of a colour, as `clrRed` is. -/
def colorLiteral : Reader :=
  inTurn [exactly "clr".toList, single Char.isUpper, someOf Char.isAlpha, wordEnd]

/-- A kind of literal that does not suit variables of certain types. -/
structure Mismatch where
  pattern : Recogniser Initialisation
  /-- What is found, unless the type is exempt. -/
  finding : Initialisation → Option Finding

/-- Text for a number. -/
def textMismatch : Mismatch where
  pattern := initialising ["int", "double", "float", "char", "short", "long", "uchar", "ushort",
    "uint", "ulong"] textLiteral
  finding i := some (.textForNumber (String.ofList i.type) (String.ofList i.name))

/-- A number for text. -/
def numberMismatch : Mismatch where
  pattern := initialising ["string"] numberLiteral
  finding i := some (.numberForText (String.ofList i.value) (String.ofList i.name))

/-- A truth value for something else. -/
def truthMismatch : Mismatch where
  pattern := initialising ["string", "datetime", "color"] truthLiteral
  finding i := some (.truthForOther (String.ofList i.type) (String.ofList i.name))

/-- The types that may hold a colour. -/
def colorHolders : List String :=
  ["int", "uint", "long", "ulong"]

/-- A colour for something else. -/
def colorMismatch : Mismatch where
  pattern := initialising ["int", "uint", "long", "ulong", "double", "float", "string", "bool",
    "datetime"] colorLiteral
  finding i :=
    let type := String.ofList i.type
    if colorHolders.contains type then none
    else some (.colorForOther type (String.ofList i.name))

/-- All kinds, in the order in which they are reported. -/
def mismatches : List Mismatch :=
  [textMismatch, numberMismatch, truthMismatch, colorMismatch]

/-- Report the first initialisation of the line that fits the pattern, unless
its type is exempt. -/
def mismatchOfLine (doc : Document) (line : Line) (number : Nat) (m : Mismatch) :
    Option Diagnostic := do
  let o ← (occurrences m.pattern line.bare).head?
  let finding ← m.finding o.found
  let start := o.offset + Text.byteLength o.found.lead
  let stop := start + Text.byteLength o.found.value
  some (finding.report (doc.span number start stop))

/-- Report literals of the wrong type: per line, one of each kind at most. -/
def typeMismatches (doc : Document) : List Diagnostic :=
  doc.numbered.flatMap fun (line, number) =>
    mismatches.filterMap (mismatchOfLine doc line number)

/-! ### Magic numbers -/

/-- A word of two or more decimal digits. -/
def digitWord : Recogniser Found := fun previous cs =>
  if opensWord previous then
    Scan.naming nothing (passing (fun word => 2 ≤ word.length) (someOf Text.isDecimalDigit))
      wordEnd cs
  else none

/-- Report the numbers of two or more digits. -/
def magicNumbers (doc : Document) : List Diagnostic :=
  doc.numbered.flatMap fun (line, number) =>
    (occurrences digitWord line.bare).map fun o =>
      (Finding.magicNumber o.name).report (doc.span number o.start o.stop)

end TradeScript.Check
