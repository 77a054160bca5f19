import TradeScript.Command.Failure

/-!
# TradeScript.Command.Outcome

What a command prints, and whether it fails.
-/

namespace TradeScript

/-- What a command comes to. -/
structure Outcome where
  /-- The lines that are printed. -/
  lines : List String := []
  failure : Option Failure := none
  deriving Repr, DecidableEq

namespace Outcome

/-- Print lines, without failing. -/
def printing (lines : List String) : Outcome :=
  { lines }

/-- Fail without printing anything. -/
def failing (failure : Failure) : Outcome :=
  { failure := some failure }

/-- The text that is printed. -/
def text (o : Outcome) : String :=
  String.join (o.lines.map fun line => line ++ "\n")

end Outcome

end TradeScript
