import TradeScript.Command.Arguments
import TradeScript.Command.Outcome
import TradeScript.Command.Style
import TradeScript.Data.Json
import TradeScript.Settings.Layers
import TradeScript.Wire

/-!
# TradeScript.Command.CheckFiles

The command that checks files. Files are checked in the order in which they are
given, up to the first that cannot be read. What is printed depends on how the
output is wanted; whether the command fails does not.
-/

namespace TradeScript

/-- Why a file cannot be checked. -/
inductive InputFault where
  | unreadable (fault : FileFault)
  /-- The file is longer than the limit. -/
  | tooLarge (size limit : Nat)
  deriving Repr, DecidableEq

namespace InputFault

/-- The fault of a file as a failure. -/
def toFailure (path : String) : InputFault → Failure
  | unreadable fault => (Failure.mk fault.message []).causedBy s!"failed to read {path}"
  | tooLarge size limit =>
      ⟨s!"input too large: {path} is {size} bytes (limit: {limit} bytes)", []⟩

end InputFault

namespace CheckFiles

/-- The text of a file that is not longer than the limit. -/
def readInput (s : Settings.Surroundings) (limit : Option Nat) (path : String) :
    Except InputFault String := do
  let entry ← (s.tree.lookup s.cwd path).mapError .unreadable
  match limit.filter fun limit => limit < entry.size with
  | some limit => throw (.tooLarge entry.size limit)
  | none => entry.text.mapError .unreadable

/-- How the files of a run are checked. -/
structure Plan where
  settings : Settings
  run : RunSettings
  /-- The dialect of every file, if one was asked for. -/
  dialect : Option Dialect

/-- Check a file. -/
def checkFile [Check.PatternEngine] (s : Settings.Surroundings) (plan : Plan) (path : String) :
    Except InputFault Report := do
  let text ← readInput s plan.settings.inputLimit path
  let dialect := plan.dialect.getD (plan.settings.resolveDialect (some path))
  return { check text dialect plan.run with file := some path }

/-- The reports on the files in front of the first that cannot be read, and that
file. -/
def checkAll [Check.PatternEngine] (s : Settings.Surroundings) (plan : Plan) :
    List String → List Report × Option (String × InputFault)
  | [] => ([], none)
  | path :: paths =>
      match checkFile s plan path with
      | .error fault => ([], some (path, fault))
      | .ok report =>
          let (reports, fault) := checkAll s plan paths
          (report :: reports, fault)

/-- The number of diagnostics of a severity in all reports. -/
def total (reports : List Report) (severity : Severity) : Nat :=
  (reports.flatMap Report.diagnostics).countP fun d => d.severity == severity

/-! ### Output as text -/

/-- The name of a severity, in its style. -/
def severityLabel (colours : Bool) : Severity → String
  | .error => Style.styledIf colours (Style.combined [31, 1]) "error"
  | .warning => Style.styledIf colours (Style.combined [33, 1]) "warning"
  | .information => Style.styledIf colours (Style.combined [36]) "info"

/-- A diagnostic as a line. Lines and columns are counted from one, in 32 bits, where
zero follows the greatest number. -/
def diagnosticLine (colours : Bool) (file : String) (d : Diagnostic) : String :=
  let place := Style.styledIf colours Style.bold file
  let line := d.range.start.line + 1
  let column := d.range.start.character + 1
  let label := severityLabel colours d.severity
  let code := Style.styledIf colours Style.dimmed d.code.tag
  s!"{place}:{line}:{column}: {label}[{code}] {d.message}"

/-- The diagnostics that are printed: if the output is to be quiet, only errors. -/
def printed (quiet : Bool) (report : Report) : List Diagnostic :=
  if quiet then report.diagnostics.filter fun d => d.severity == .error else report.diagnostics

/-- The line behind a list of diagnostics that was cut. -/
def noteLine (shown found : Nat) (file : String) : String :=
  Style.dimmed "note:" ++ s!" showing {shown} of {found} diagnostics for {file}"

/-- The lines for a report. -/
def reportLines (colours quiet : Bool) (report : Report) : List String :=
  let file := report.file.getD ""
  let shown := report.diagnostics.length
  (printed quiet report).map (diagnosticLine colours file) ++
    if report.truncated && !quiet then
      [noteLine shown report.totalFound file]
    else []

/-- The line behind all reports. -/
def summaryLine (reports : List Report) : String :=
  let errors := total reports .error
  let warnings := total reports .warning
  let information := total reports .information
  let summary :=
    s!"{errors} errors, {warnings} warnings, {information} information in {reports.length} files"
  if 0 < errors then Style.red summary else Style.green summary

/-- The lines for all reports; without a file that cannot be read a summary follows. -/
def textLines (colours quiet : Bool) (reports : List Report) (complete : Bool) : List String :=
  reports.flatMap (reportLines colours quiet) ++
    if complete && !quiet then [summaryLine reports] else []

/-- The lines for all reports as JSON, if every file could be read. -/
def jsonLines (reports : List Report) (complete : Bool) : List String :=
  if complete then [Json.render .pretty (.list (reports.map Report.toData))] else []

/-! ### The command -/

/-- The settings of the run, as the options change them. -/
def runSettings (options : Arguments.Options) (settings : Settings) :
    Except Failure RunSettings := do
  let run ← settings.runSettings.mapError fun e =>
    (Failure.mk e.message []).causedBy "invalid disabled_codes in configuration"
  let codes ← (options.disable.mapM Code.parse).mapError fun e => ⟨e.message, []⟩
  return RunSettings.disabling
    { run with maxProblems := options.maxProblems.getD run.maxProblems } codes

/-- Why the command fails, if it does: a file cannot be read, or there are errors. -/
def failure? (reports : List Report) : Option (String × InputFault) → Option Failure
  | some (path, fault) => some ((fault.toFailure path).causedBy s!"failed to check {path}")
  | none =>
      let errors := total reports .error
      if 0 < errors then some ⟨s!"{errors} error(s) found", []⟩ else none

/-- What is printed where nothing is checked. -/
def skipped (options : Arguments.Options) : List String :=
  if options.json then ["[]"]
  else if options.quiet then []
  else [Style.dimmed "SKIP:" ++ " validation disabled"]

/-- Check the files that are asked for. -/
def run [Check.PatternEngine] (s : Settings.Surroundings) (colours : Bool)
    (options : Arguments.Options) (settings : Settings) : Outcome :=
  if !settings.validationEnabled then .printing (skipped options)
  else
    match runSettings options settings with
    | .error failure => .failing failure
    | .ok run =>
        let (reports, fault) := checkAll s ⟨settings, run, options.dialect⟩ options.files
        { lines := if options.json then jsonLines reports fault.isNone
            else textLines colours options.quiet reports fault.isNone
          failure := failure? reports fault }

end CheckFiles

end TradeScript
