import TradeScript.Check.Bracket
import TradeScript.Check.Directive
import TradeScript.Check.Length
import TradeScript.Check.Literal
import TradeScript.Check.Naming
import TradeScript.Check.Statement
import TradeScript.Check.Usage

/-!
# TradeScript.Check.Family

The three families of checks and the order of their diagnostics. The checks of
the first family go line by line, all of them on one line before the next.
-/

namespace TradeScript.Check

/-- The checks of one line, in order; `matched` is what its brackets gave. -/
def syntaxOfLine (doc : Document) (line : Line × Nat) (matched : List Diagnostic) :
    List Diagnostic :=
  semicolon doc line.1 line.2 ++ matched ++ naming doc line.1 line.2 ++ directives doc line.1 line.2

/-- Line by line: semicolons, brackets, names, directives. Brackets that stay
open come last. -/
def syntactic (doc : Document) : List Diagnostic :=
  let matched := bracketsOfLines doc [] doc.numbered
  (doc.numbered.zipWith (syntaxOfLine doc) matched.1).flatten ++ unclosedBrackets doc matched.2

/-- Undefined names, literals of the wrong type, unreachable code. -/
def semantic [PatternEngine] (dialect : Dialect) (doc : Document) : List Diagnostic :=
  undefinedVariables dialect doc ++ undefinedFunctions dialect doc ++ typeMismatches doc ++
    unreachable doc

/-- Unused variables, magic numbers, long functions, deep nesting. -/
def style (doc : Document) : List Diagnostic :=
  unusedVariables doc ++ magicNumbers doc ++ longFunctions doc ++ nesting doc

/-- Everything that the checks find in a document. -/
def all [PatternEngine] (dialect : Dialect) (doc : Document) : List Diagnostic :=
  syntactic doc ++ semantic dialect doc ++ style doc

end TradeScript.Check
