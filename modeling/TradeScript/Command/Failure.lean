import TradeScript.Text.Basic

/-!
# TradeScript.Command.Failure

Why a run of the program failed: a message and what caused it, down to the first
cause.
-/

namespace TradeScript

/-- A message and its causes, nearest first. -/
structure Failure where
  message : String
  causes : List String := []
  deriving Repr, DecidableEq

namespace Failure

/-- A failure that is caused by another one. -/
def causedBy (cause : Failure) (message : String) : Failure :=
  ⟨message, cause.message :: cause.causes⟩

/-- Text whose lines after the first are indented. -/
def hang (indent : Nat) (s : String) : String :=
  let lines := (Text.splitAt '\n' s.toList).map String.ofList
  (String.ofList ('\n' :: List.replicate indent ' ')).intercalate lines

/-- The causes as they are listed: a single one without a number. -/
def causeLines : List String → List String
  | [] => []
  | [cause] => ["    " ++ hang 4 cause]
  | causes => causes.mapIdx fun i cause =>
      let number := toString i
      String.ofList (List.replicate (5 - number.length) ' ') ++ number ++ ": " ++ hang 7 cause

/-- A failure as it is reported. -/
def report (f : Failure) : String :=
  let causes := match causeLines f.causes with
    | [] => ""
    | lines => "\n\nCaused by:\n" ++ "\n".intercalate lines
  "Error: " ++ f.message ++ causes

end Failure

end TradeScript
