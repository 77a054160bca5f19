import TradeScript.About
import TradeScript.Command.Outcome
import TradeScript.Command.Style
import TradeScript.Data.Json
import TradeScript.Settings.Layers

/-!
# TradeScript.Command.Overview

The commands that show something: the codes of diagnostics, and the program with
its settings.
-/

namespace TradeScript.Overview

/-! ### Codes -/

/-- A code as a line. -/
def codeLine (code : Code) : String :=
  let tag := Style.bold (Style.padTo 24 code.tag)
  let category := Style.padTo 9 code.category.tag
  s!"{tag} {category} {Style.dimmed code.severity.tag}"

/-- A code as data. -/
def codeData (code : Code) : Data :=
  .map [("code", .str code.tag), ("category", .str code.category.tag),
    ("severity", .str code.severity.tag)]

/-- List all codes. -/
def codes (json : Bool) : Outcome :=
  .printing <|
    if json then [Json.render .pretty (.list (Code.all.map codeData))] else Code.all.map codeLine

/-! ### The program and its settings -/

/-- An entry for a value that may be missing. -/
def optionalEntry {α : Type} (name : String) (encode : α → Data) : Option α → List (String × Data)
  | some a => [(name, encode a)]
  | none => []

/-- The settings that are in effect. -/
def settingsData (settings : Settings) (file : Option String) : Data :=
  let codes := settings.disabledCodes.getD []
  let run : RunSettings := {}
  .map <| optionalEntry "config_file" .str file ++
    [("log_level", .str settings.logLevel.tag)] ++
    optionalEntry "log_dir" .str settings.logDir ++
    [("validation_enabled", .bool settings.validationEnabled),
     ("max_problems", .nat (settings.maxProblems.getD run.maxProblems))] ++
    optionalEntry "dialect" (fun d : Dialect => .str d.tag) settings.dialect ++
    [("default_dialect", .str (settings.defaultDialect.getD .mql5).tag)] ++
    (if codes.isEmpty then [] else [("disabled_codes", .strings codes)]) ++
    optionalEntry "max_input_bytes" .nat settings.inputLimit

/-- The program and its settings as data. -/
def infoData (settings : Settings) (file : Option String) : Data :=
  .map [("name", .str About.name), ("version", .str About.version),
    ("description", .str About.description), ("license", .str About.license),
    ("config", settingsData settings file)]

/-- A line with a label. -/
def labelled (label value : String) : String :=
  Style.dimmed label ++ ": " ++ value

/-- The title of a section. -/
def title (s : String) : String :=
  Style.underlined (Style.bold s)

/-- The lines about the program and its settings. -/
def infoLines (settings : Settings) (file : Option String) : List String :=
  let run : RunSettings := {}
  let codes := settings.disabledCodes.getD []
  [s!"{Style.bold About.name} {Style.green About.version}", About.description,
   labelled "License" About.license, "", title "Configuration",
   labelled "Config file" (match file with
     | some path => Style.cyan path
     | none => Style.yellow "none loaded"),
   labelled "Log level" settings.logLevel.tag] ++
  (match settings.logDir with
    | some dir => [labelled "Log directory" dir]
    | none => []) ++
  ["", title "Checks",
   labelled "Validation"
     (if settings.validationEnabled then Style.green "enabled" else Style.yellow "disabled"),
   labelled "Max problems" (toString (settings.maxProblems.getD run.maxProblems)),
   labelled "Forced dialect" (match settings.dialect with
     | some dialect => dialect.tag
     | none => Style.dimmed "(not set)"),
   labelled "Default dialect" (settings.defaultDialect.getD .mql5).tag] ++
  (if codes.isEmpty then [] else [labelled "Disabled codes" (", ".intercalate codes)]) ++
  [labelled "Input limit" (match settings.inputLimit with
    | some limit => s!"{limit} bytes"
    | none => Style.yellow "none")]

/-- Show the program and its settings. -/
def info (json : Bool) (settings : Settings) (sources : Settings.Sources) : Outcome :=
  .printing <|
    if json then [Json.render .pretty (infoData settings sources.primary?)]
    else infoLines settings sources.primary?

end TradeScript.Overview
