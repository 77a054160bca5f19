import TradeScript.Diagnostic.Basic
import TradeScript.Document.Basic

/-!
# TradeScript.Check.Bracket

Two checks of brackets over the bare views of all lines. Brackets have to be
well nested: every closing bracket closes the innermost open one, which is of
its kind, and none stays open. Braces may be nested only so deep.

A closing bracket of the wrong kind leaves the open one open, so that one stray
bracket does not upset the rest of the document.
-/

namespace TradeScript

/-- The kinds of brackets. -/
inductive Bracket where
  | round
  | square
  | curly
  deriving Repr, DecidableEq, Inhabited

namespace Bracket

def opener : Bracket → Char
  | round => '('
  | square => '['
  | curly => '{'

def closer : Bracket → Char
  | round => ')'
  | square => ']'
  | curly => '}'

end Bracket

/-- A bracket character: which kind, and which side. -/
inductive BracketMark where
  | opening (kind : Bracket)
  | closing (kind : Bracket)
  deriving Repr, DecidableEq

/-- The bracket that a character is. -/
def BracketMark.ofChar? : Char → Option BracketMark
  | '(' => some (opening .round)
  | '[' => some (opening .square)
  | '{' => some (opening .curly)
  | ')' => some (closing .round)
  | ']' => some (closing .square)
  | '}' => some (closing .curly)
  | _ => none

/-- An open bracket that waits for its partner, with its line and byte column. -/
structure OpenBracket where
  kind : Bracket
  line : Nat
  column : Nat
  deriving Repr, DecidableEq

namespace Check

/-! ### Matching -/

/-- Match the characters of one line, given with their byte columns, against the
open brackets, the innermost of which comes first. The result is what was found
at which column, and the brackets open afterwards. -/
def matchBrackets (line : Nat) :
    List OpenBracket → List (Nat × Char) → List (Nat × Finding) × List OpenBracket
  | pending, [] => ([], pending)
  | pending, (column, c) :: rest =>
      match BracketMark.ofChar? c with
      | none => matchBrackets line pending rest
      | some (.opening kind) => matchBrackets line (⟨kind, line, column⟩ :: pending) rest
      | some (.closing kind) =>
          match pending with
          | [] =>
              let r := matchBrackets line [] rest
              ((column, .unmatchedBracket c) :: r.1, r.2)
          | top :: below =>
              if top.kind = kind then matchBrackets line below rest
              else
                let r := matchBrackets line (top :: below) rest
                ((column, .mismatchedBracket top.kind.closer c) :: r.1, r.2)

/-- Match one line of a document: what is reported, and the brackets open
afterwards. -/
def bracketsOfLine (doc : Document) (pending : List OpenBracket) (line : Line) (number : Nat) :
    List Diagnostic × List OpenBracket :=
  let r := matchBrackets number pending (Text.withOffsets 0 line.bare)
  (r.1.map fun (column, finding) => finding.report (doc.span number column (column + 1)), r.2)

/-- Report the brackets that stay open, in the order in which they were opened. -/
def unclosedBrackets (doc : Document) (pending : List OpenBracket) : List Diagnostic :=
  pending.reverse.map fun b =>
    (Finding.unclosedBracket b.kind.opener).report (doc.span b.line b.column (b.column + 1))

/-- Match consecutive lines: what is reported for each, and the brackets open at
the end. -/
def bracketsOfLines (doc : Document) :
    List OpenBracket → List (Line × Nat) → List (List Diagnostic) × List OpenBracket
  | pending, [] => ([], pending)
  | pending, (line, number) :: rest =>
      let here := bracketsOfLine doc pending line number
      let r := bracketsOfLines doc here.2 rest
      (here.1 :: r.1, r.2)

/-- Report every bracket that is out of place, and then those that stay open. -/
def brackets (doc : Document) : List Diagnostic :=
  let r := bracketsOfLines doc [] doc.numbered
  r.1.flatten ++ unclosedBrackets doc r.2

/-! ### Nesting -/

/-- The deepest level of braces that is not reported. -/
def maxNesting : Nat := 4

/-- The braces of one line that lie too deep, with their columns and levels, and
the depth after the line. The depth never falls below zero, so a stray closing
brace cannot hide what follows. -/
def deepBraces : Nat → List (Nat × Char) → List (Nat × Nat) × Nat
  | depth, [] => ([], depth)
  | depth, (column, c) :: rest =>
      if c = '{' then
        let r := deepBraces (depth + 1) rest
        (if depth + 1 > maxNesting then (column, depth + 1) :: r.1 else r.1, r.2)
      else if c = '}' then deepBraces (depth - 1) rest
      else deepBraces depth rest

/-- Report the braces of consecutive lines that lie too deep. -/
def nestingFrom (doc : Document) : Nat → List (Line × Nat) → List Diagnostic
  | _, [] => []
  | depth, (line, number) :: rest =>
      let here := deepBraces depth (Text.withOffsets 0 line.bare)
      (here.1.map fun (column, level) =>
        (Finding.deepNesting level).report (doc.span number column (column + 1))) ++
        nestingFrom doc here.2 rest

/-- Report every opening brace that lies too deep. -/
def nesting (doc : Document) : List Diagnostic :=
  nestingFrom doc 0 doc.numbered

end Check

end TradeScript
