import TradeScript.Data.Basic
import TradeScript.Path
import TradeScript.Report

/-!
# TradeScript.Settings.Basic

The settings of the program: their fields, how they are read from and written as
data, and what follows from them for one document.
-/

namespace TradeScript

/-- How much is logged. -/
inductive LogLevel where
  | debug
  | info
  | warn
  | error
  deriving Repr, DecidableEq

namespace LogLevel

def tag : LogLevel → String
  | debug => "debug"
  | info => "info"
  | warn => "warn"
  | error => "error"

def all : List LogLevel :=
  [debug, info, warn, error]

/-- The level with exactly this tag. -/
def ofTag? (s : String) : Option LogLevel :=
  all.find? fun level => level.tag == s

theorem ofTag?_tag (level : LogLevel) : ofTag? level.tag = some level := by
  cases level <;> decide

end LogLevel

/-- The settings of the program. -/
structure Settings where
  logLevel : LogLevel := .info
  /-- The directory of log files; without one no log file is written. -/
  logDir : Option String := none
  /-- The most diagnostics wanted for one document. -/
  maxProblems : Option Nat := none
  /-- The dialect of every document, whatever its name. -/
  dialect : Option Dialect := none
  /-- The dialect of documents whose name does not tell it. -/
  defaultDialect : Option Dialect := none
  /-- Are documents checked at all? -/
  validationEnabled : Bool := true
  /-- The codes that are not reported, as they were written. -/
  disabledCodes : Option (List String) := none
  /-- The longest text that is checked, in bytes. -/
  maxInputBytes : Option Nat := none
  /-- Is a text of any length checked? -/
  disableInputLimit : Bool := false
  deriving Repr, DecidableEq

namespace Settings

/-- The fields, in the order in which they are written. -/
def fieldNames : List String :=
  ["log_level", "log_dir", "max_problems", "dialect", "default_dialect", "validation_enabled",
   "disabled_codes", "max_input_bytes", "disable_input_limit"]

/-! ### Reading -/

/-- The value of a field that may be left out; `none` if it is there and cannot be
read. -/
def optionalField? {α : Type} (value? : String → Option Data) (name : String) (default : α)
    (decode : Data → Option α) : Option α :=
  match value? name with
  | none => some default
  | some d => decode d

/-- Settings from the values of their fields, where `tag?` reads the names of levels
and dialects. A field that is left out has its default value. -/
def ofFields? (tag? : Data → Option String) (value? : String → Option Data) : Option Settings := do
  let dialect? (d : Data) : Option Dialect := (tag? d).bind Dialect.ofTag?
  let level? (d : Data) : Option LogLevel := (tag? d).bind LogLevel.ofTag?
  some
    { logLevel := ← optionalField? value? "log_level" .info level?
      logDir := ← optionalField? value? "log_dir" none (Data.asOption? Data.asString?)
      maxProblems := ← optionalField? value? "max_problems" none (Data.asOption? Data.asNat64?)
      dialect := ← optionalField? value? "dialect" none (Data.asOption? dialect?)
      defaultDialect := ← optionalField? value? "default_dialect" none (Data.asOption? dialect?)
      validationEnabled := ← optionalField? value? "validation_enabled" true Data.asBool?
      disabledCodes := ← optionalField? value? "disabled_codes" none
        (Data.asOption? (Data.asList? Data.asString?))
      maxInputBytes := ← optionalField? value? "max_input_bytes" none (Data.asOption? Data.asNat64?)
      disableInputLimit := ← optionalField? value? "disable_input_limit" false Data.asBool? }

/-- Settings that are given as one record. -/
def ofData? (d : Data) : Option Settings := do
  guard (d.isRecord fieldNames)
  ofFields? Data.asTag? (d.field? fieldNames)

/-! ### Writing -/

/-- A dialect, or null. -/
def dialectData (dialect : Option Dialect) : Data :=
  .option (fun d => .str d.tag) dialect

/-- Settings as a record of all fields. -/
def toData (s : Settings) : Data :=
  .map [("log_level", .str s.logLevel.tag), ("log_dir", .option .str s.logDir),
    ("max_problems", .option .nat s.maxProblems), ("dialect", dialectData s.dialect),
    ("default_dialect", dialectData s.defaultDialect),
    ("validation_enabled", .bool s.validationEnabled),
    ("disabled_codes", .option .strings s.disabledCodes),
    ("max_input_bytes", .option .nat s.maxInputBytes),
    ("disable_input_limit", .bool s.disableInputLimit)]

/-! ### What follows for a document -/

/-- The settings of a run, if all disabled codes are known; else the first that is
not. -/
def runSettings (s : Settings) : Except Code.Unknown RunSettings := do
  let codes ← (s.disabledCodes.getD []).mapM Code.parse
  let run : RunSettings := {}
  return RunSettings.disabling { run with maxProblems := s.maxProblems.getD run.maxProblems } codes

/-- The dialect of a document: the one that is forced, else the one that its
extension stands for, else the default. -/
def resolveDialect (s : Settings) (path : Option String) : Dialect :=
  let byName := (path.bind Path.extension?).bind Dialect.ofExtension?
  ((s.dialect.or byName).or s.defaultDialect).getD .mql5

/-- The longest text that is checked where the settings do not say, in bytes. -/
def defaultInputLimit : Nat := 5 * 1024 * 1024

/-- The longest text that is checked, in bytes; `none` if any is. -/
def inputLimit (s : Settings) : Option Nat :=
  if s.disableInputLimit then none else some (s.maxInputBytes.getD defaultInputLimit)

end Settings

end TradeScript
