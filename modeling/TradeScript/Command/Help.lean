import TradeScript.About
import TradeScript.Command.Arguments
import TradeScript.Command.Style

/-!
# TradeScript.Command.Help

The pages of help. A page says what its topic is for and how it is used, and lists
commands, arguments and options. On a short page what is said about an option stands
behind it, if the lines do not become too long, and else below it; on a long page it
always stands below, with an empty line between two options.
-/

namespace TradeScript.Help

open Arguments (Spec Topic)

/-- The width that a page is laid out for. -/
def pageWidth : Nat := 100

/-- The indentation of what stands below an option. -/
def indentation : String :=
  String.ofList (List.replicate 10 ' ')

/-- The start of a new line below an option. -/
def newline : String :=
  "\n" ++ indentation

/-! ### Entries -/

/-- Something that a page lists. -/
structure Entry where
  label : String
  purpose : String
  notes : List String := []
  /-- The values that an option can have, where a page says what each is for. -/
  choices : List (String × String) := []

namespace Entry

/-- An option with its names and its value. -/
def labelOf (spec : Spec) : String :=
  let short := match spec.short with
    | some c => s!"-{c}, "
    | none => "    "
  let value := match spec.value with
    | some name => s!" <{name}>"
    | none => ""
  s!"{short}--{spec.long}{value}" ++ if spec.counted then "..." else ""

/-- An option on a short or a long page. -/
def ofSpec (long : Bool) (spec : Spec) : Entry :=
  let names := ", ".intercalate (spec.choices.map Prod.fst)
  let initial := spec.initial.toList.map fun value => s!"[default: {value}]"
  let choices := if spec.choices.isEmpty || long then [] else [s!"[possible values: {names}]"]
  { label := labelOf spec
    purpose := if long then spec.longPurpose.getD spec.purpose else spec.purpose
    notes := initial ++ choices
    choices := if long then spec.choices else [] }

/-- What is said about an entry on a short page. -/
def text (e : Entry) : String :=
  " ".intercalate (e.purpose :: e.notes)

/-- The label and, behind it, what is said about it. -/
def beside (width : Nat) (e : Entry) : String :=
  s!"  {Style.padTo width e.label}  {e.text}"

/-- The label and, below it, what is said about it. -/
def below (e : Entry) : String :=
  s!"  {e.label}{newline}{e.text}"

/-- A value that an option can have, and what it is for. -/
def choiceLine (width : Nat) (choice : String × String) : String :=
  let name := choice.1 ++ ": "
  s!"{newline}- {Style.padTo (width + 2) name}{choice.2}"

/-- The label and, below it, everything that is said about it. -/
def atLength (e : Entry) : String :=
  let notes := if e.notes.isEmpty then "" else newline ++ newline ++ newline.intercalate e.notes
  let width := (e.choices.map fun choice => choice.1.length).foldl max 0
  let choices :=
    if e.choices.isEmpty then ""
    else s!"\n{newline}Possible values:" ++ String.join (e.choices.map (choiceLine width))
  s!"  {e.label}{newline}{e.purpose}{notes}{choices}"

/-- The width of what is said behind the label. -/
def textWidth (e : Entry) : Nat :=
  e.purpose.length + (" ".intercalate e.notes).length

end Entry

/-! ### Sections -/

/-- Do the lines become too long, if what is said about entries stands behind them? -/
def isCrowded (width : Nat) (entries : List Entry) : Bool :=
  let taken := width + 12
  pageWidth * 2 < taken * 5 && entries.any fun e => pageWidth < taken + e.textWidth

/-- A section of a page. -/
def listing (long : Bool) (title : String) (entries : List Entry) : String :=
  let width := (entries.map fun e => e.label.length).foldl max 0
  let body :=
    if long then "\n\n".intercalate (entries.map Entry.atLength)
    else
      let line := if isCrowded width entries then Entry.below else Entry.beside width
      "\n".intercalate (entries.map line)
  s!"{title}:\n{body}"

/-- What help is for. -/
def helpPurpose : String :=
  "Print this message or the help of the given subcommand(s)"

/-- The commands, which are listed in the same way on all pages. -/
def commands : String :=
  let entries := Command.all.map fun c => { label := c.name, purpose := c.purpose : Entry }
  listing false "Commands" (entries ++ [{ label := "help", purpose := helpPurpose }])

/-- The options of a topic. -/
def options (long : Bool) (specs : List Spec) : String :=
  listing long "Options" (specs.map (Entry.ofSpec long))

/-- The variables that a long page about the program ends with. -/
def variableTable : List (String × String) :=
  [("RUST_LOG", "Log filter (e.g., debug, mqlint_core=trace)"),
   ("MQLINT_LOG_PATH", "Explicit log file path"),
   ("MQLINT_LOG_DIR", "Log directory"),
   ("MQLINT_DIALECT", "Force a dialect (mql4, mql5)"),
   ("MQLINT_MAX_PROBLEMS", "Diagnostic cap per file"),
   ("MQLINT_VALIDATION_ENABLED", "Set to false to skip checking")]

/-- The section of the variables. -/
def environment : String :=
  "ENVIRONMENT VARIABLES:" ++
    String.join (variableTable.map fun (name, use) => s!"\n    {Style.padTo 28 name}{use}")

/-! ### Pages -/

/-- What the program does, in one line. -/
def summary : String :=
  "Heuristic diagnostics for MQL4 and MQL5 source files"

/-- What a topic is for. -/
def purpose : Topic → String
  | .program => summary
  | .command command => command.purpose
  | .help => helpPurpose

/-- How a topic is used. -/
def usage : Topic → String
  | .program => s!"{About.name} [OPTIONS] [COMMAND]"
  | .command .check => s!"{About.name} check [OPTIONS] <FILES>..."
  | .command command => s!"{About.name} {command.name} [OPTIONS]"
  | .help => s!"{About.name} help [COMMAND]..."

/-- The arguments of a topic, apart from options. There is no long page about help. -/
def arguments (long : Bool) : Topic → List String
  | .command .check =>
      [listing long "Arguments"
        [{ label := "<FILES>...", purpose := "Files to check (.mq4, .mq5, .mqh)" }]]
  | .help =>
      [listing false "Arguments"
        [{ label := "[COMMAND]...", purpose := "Print help for the subcommand(s)" }]]
  | _ => []

/-- The sections of a page. -/
def sections (long : Bool) : Topic → List String
  | .program =>
      [commands, options long Arguments.leadingSpecs] ++ if long then [environment] else []
  | .command command =>
      arguments long (.command command) ++ [options long (Arguments.specsOf command)]
  | .help => arguments long .help

/-- A page of help. -/
def page (topic : Topic) (long : Bool) : String :=
  "\n\n".intercalate (purpose topic :: ("Usage: " ++ usage topic) :: sections long topic) ++ "\n"

/-- What is said about arguments that are wrong. -/
def hint : String :=
  s!"Usage: {usage .program}\n\nFor more information, try '--help'."

end TradeScript.Help
