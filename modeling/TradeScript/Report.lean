import TradeScript.Check.Family
import TradeScript.Suppression

/-!
# TradeScript.Report

Checking a document: all checks run, what the document or the run switches off
is left out, and the list is cut at the number of problems wanted. The same text
always gives the same report.
-/

namespace TradeScript

/-- The settings of one run. -/
structure RunSettings where
  /-- The most diagnostics wanted for one document. -/
  maxProblems : Nat := 100
  /-- The codes that are not reported. -/
  disabled : List Code := []
  deriving Repr, DecidableEq

namespace RunSettings

/-- Do not report the codes, each of which is listed once. -/
def disabling (settings : RunSettings) (codes : List Code) : RunSettings :=
  { settings with
    disabled := codes.foldl (fun cs c => if cs.contains c then cs else cs ++ [c])
      settings.disabled }

end RunSettings

/-- What checking a document gave. -/
structure Report where
  /-- Where the text came from, if that is known. -/
  file : Option String
  dialect : Dialect
  /-- The diagnostics, cut at the number wanted. -/
  diagnostics : List Diagnostic
  /-- The number of diagnostics before the cut. -/
  totalFound : Nat
  deriving Repr, DecidableEq

namespace Report

/-- Were diagnostics cut off? -/
def truncated (report : Report) : Bool :=
  report.diagnostics.length < report.totalFound

/-- How many of the diagnostics have the severity. -/
def count (report : Report) (severity : Severity) : Nat :=
  report.diagnostics.countP fun d => d.severity == severity

/-- Is there no error among the diagnostics? -/
def pass (report : Report) : Bool :=
  report.count .error == 0

end Report

/-- What the checks find in a text, without what its comments switch off. -/
def unsuppressed [Check.PatternEngine] (dialect : Dialect) (text : List Char) :
    List Diagnostic :=
  (Suppressions.ofText text).apply (Check.all dialect (Document.ofText text))

/-- Check a text. -/
def check [Check.PatternEngine] (text : String) (dialect : Dialect) (settings : RunSettings) :
    Report :=
  let found := (unsuppressed dialect text.toList).filter fun d =>
    !settings.disabled.contains d.code
  { file := none
    dialect
    diagnostics := found.take settings.maxProblems
    totalFound := found.length }

end TradeScript
