import TradeScript.Dialect
import TradeScript.Text.Basic

/-!
# TradeScript.Command.Arguments

The arguments of the command line. Arguments are read from left to right as
events: an option with or without a value, or a positional argument. Some options
are known before and behind the name of a command; behind it they count for more.
The first mistake ends the reading, and so does a request for help.
-/

namespace TradeScript

/-- When output is coloured. -/
inductive ColourChoice where
  | auto
  | always
  | never
  deriving Repr, DecidableEq

namespace ColourChoice

/-- The choice with exactly this name. -/
def ofName? : String → Option ColourChoice
  | "auto" => some auto
  | "always" => some always
  | "never" => some never
  | _ => none

end ColourChoice

/-- What the program can be asked to do. -/
inductive Command where
  /-- Check files. -/
  | check
  /-- List the codes of diagnostics. -/
  | codes
  /-- Show the program and its settings. -/
  | info
  /-- Answer the calls of a client. -/
  | serve
  deriving Repr, DecidableEq

namespace Command

def all : List Command :=
  [check, codes, info, serve]

def name : Command → String
  | check => "check"
  | codes => "codes"
  | info => "info"
  | serve => "serve"

/-- The command with exactly this name. -/
def ofName? (s : String) : Option Command :=
  all.find? fun command => command.name == s

/-- What the command is for, as help says it. -/
def purpose : Command → String
  | check => "Check MQL4/MQL5 files and report diagnostics"
  | codes => "List every diagnostic code"
  | info => "Show package information"
  | serve => "Start MCP (Model Context Protocol) server on stdio"

end Command

namespace Arguments

/-- What can be asked for by an option. -/
inductive Key where
  | config
  | chdir
  | quiet
  | verbose
  | colour
  | json
  | versionOnly
  | version
  | help
  | dialect
  | maxProblems
  | disable
  deriving Repr, DecidableEq

/-- How an option is written, and what help says about it. -/
structure Spec where
  key : Key
  long : String
  short : Option Char := none
  /-- What its value is called, if it takes one. -/
  value : Option String := none
  /-- Is it counted how often it is given? -/
  counted : Bool := false
  purpose : String
  /-- What a long page says instead. -/
  longPurpose : Option String := none
  /-- The values that it can have, each with what it is for. -/
  choices : List (String × String) := []
  /-- The value that it has if it is not given. -/
  initial : Option String := none
  deriving Repr, DecidableEq

def configSpec : Spec :=
  { key := .config, long := "config", short := some 'c', value := some "FILE"
    purpose := "Path to configuration file (overrides discovery)" }

def chdirSpec : Spec :=
  { key := .chdir, long := "chdir", short := some 'C', value := some "CHDIR"
    purpose := "Run as if started in DIR" }

def quietSpec : Spec :=
  { key := .quiet, long := "quiet", short := some 'q'
    purpose := "Only print errors (suppresses warnings/info)" }

def verboseSpec : Spec :=
  { key := .verbose, long := "verbose", short := some 'v', counted := true
    purpose := "More detail (repeatable; e.g. -vv)" }

def colourSpec : Spec :=
  { key := .colour, long := "color", value := some "COLOR", purpose := "Colorize output"
    choices := [("auto", "Detect terminal capabilities automatically"),
      ("always", "Always emit colors"), ("never", "Never emit colors")]
    initial := some "auto" }

def jsonSpec : Spec :=
  { key := .json, long := "json", purpose := "Output as JSON (for scripting)" }

def helpSpec : Spec :=
  { key := .help, long := "help", short := some 'h'
    purpose := "Print help (see more with '--help')"
    longPurpose := some "Print help (see a summary with '-h')" }

def versionOnlySpec : Spec :=
  { key := .versionOnly, long := "version-only"
    purpose := "Print only the version number (for scripting)" }

def versionSpec : Spec :=
  { key := .version, long := "version", short := some 'V', purpose := "Print version" }

def dialectSpec : Spec :=
  { key := .dialect, long := "dialect", value := some "DIALECT"
    purpose := "Check every file as this dialect, whatever its extension"
    choices := [("mql4", "MQL4 (MetaTrader 4)"), ("mql5", "MQL5 (MetaTrader 5)")] }

def maxProblemsSpec : Spec :=
  { key := .maxProblems, long := "max-problems", value := some "MAX_PROBLEMS"
    purpose := "Most diagnostics reported per file" }

def disableSpec : Spec :=
  { key := .disable, long := "disable", value := some "CODE"
    purpose := "Diagnostic code to skip (repeatable)" }

/-- The options in front of a command, in the order of help. -/
def leadingSpecs : List Spec :=
  [versionOnlySpec, configSpec, chdirSpec, quietSpec, verboseSpec, colourSpec, jsonSpec, helpSpec,
   versionSpec]

/-- The options of a command, in the order of help. -/
def specsOf : Command → List Spec
  | .check =>
      [dialectSpec, configSpec, maxProblemsSpec, chdirSpec, disableSpec, quietSpec, verboseSpec,
       colourSpec, jsonSpec, helpSpec]
  | _ => [configSpec, chdirSpec, quietSpec, verboseSpec, colourSpec, jsonSpec, helpSpec]

/-! ### Events -/

/-- A step of reading arguments. -/
inductive Event where
  /-- An option without a value, by its long or its short name. -/
  | flag (key : Key) (long : Bool)
  | value (key : Key) (s : String)
  | positional (s : String)
  /-- An argument that cannot be read; nothing behind it is. -/
  | mistake
  deriving Repr, DecidableEq

/-- Does the argument look like an option? A lone dash does not. -/
def isOption (s : String) : Bool :=
  match s.toList with
  | '-' :: _ :: _ => true
  | _ => false

/-- Options in one argument, behind its dash; and the last one, if its value is the
next argument. -/
def shortEvents (specs : List Spec) : List Char → List Event × Option Key
  | [] => ([], none)
  | c :: cs =>
      match specs.find? fun spec => spec.short == some c with
      | none => ([.mistake], none)
      | some spec =>
          if spec.value.isSome then
            match cs with
            | [] => ([], some spec.key)
            | '=' :: cs => ([.value spec.key (String.ofList cs)], none)
            | cs => ([.value spec.key (String.ofList cs)], none)
          else
            let (events, pending) := shortEvents specs cs
            (.flag spec.key false :: events, pending)

/-- A long option, behind its dashes. -/
def longEvents (specs : List Spec) (cs : List Char) : List Event × Option Key :=
  let name := cs.takeWhile (· != '=')
  match specs.find? (fun spec => spec.long == String.ofList name), cs.drop name.length with
  | none, _ => ([.mistake], none)
  | some spec, [] =>
      if spec.value.isSome then ([], some spec.key) else ([.flag spec.key true], none)
  | some spec, _ :: value =>
      if spec.value.isSome then ([.value spec.key (String.ofList value)], none)
      else ([.mistake], none)

/-- An argument that looks like an option. -/
def optionEvents (specs : List Spec) (s : String) : List Event × Option Key :=
  match s.toList with
  | '-' :: '-' :: cs => longEvents specs cs
  | '-' :: cs => shortEvents specs cs
  | _ => ([.positional s], none)

/-- Arguments, as far as they have been read. -/
structure Reading where
  events : List Event
  /-- The value of an option right in front of the name of a command. It is taken in
  when the command has been read. -/
  pending : Option Event := none
  /-- The name of a command and the arguments behind it. -/
  command : Option (String × List String) := none

namespace Reading

/-- The reading with events in front. -/
def after (r : Reading) (events : List Event) : Reading :=
  { r with events := events ++ r.events }

/-- The reading with the value of an option in front, which is an argument of its own. -/
def afterValue (r : Reading) (value : Event) : Reading :=
  match r with
  | ⟨[], none, some command⟩ => ⟨[], some value, some command⟩
  | r => r.after [value]

end Reading

/-- Read arguments up to the name of a command. Behind two dashes all arguments are
positional. -/
def read (specs : List Spec) (commands : List String) : List String → Reading
  | [] => ⟨[], none, none⟩
  | s :: rest =>
      if commands.contains s then ⟨[], none, some (s, rest)⟩
      else if s == "--" then ⟨rest.map .positional, none, none⟩
      else if !isOption s then (read specs commands rest).after [.positional s]
      else
        match optionEvents specs s, rest with
        | (first, none), rest => (read specs commands rest).after first
        | (first, some _), [] => ⟨first ++ [.mistake], none, none⟩
        | (first, some key), value :: rest =>
            if isOption value then ⟨first ++ [.mistake], none, none⟩
            else ((read specs commands rest).afterValue (.value key value)).after first

/-! ### Options -/

/-- The options and positional arguments that were given. -/
structure Options where
  config : Option String := none
  chdir : Option String := none
  quiet : Bool := false
  /-- How often more detail was asked for. -/
  verbose : Nat := 0
  colour : Option ColourChoice := none
  json : Bool := false
  versionOnly : Bool := false
  dialect : Option Dialect := none
  maxProblems : Option Nat := none
  disable : List String := []
  files : List String := []
  deriving Repr, DecidableEq

/-- What help can be about. -/
inductive Topic where
  | program
  | command (command : Command)
  /-- Help itself. -/
  | help
  deriving Repr, DecidableEq

/-- Why no command is run. -/
inductive Stop where
  /-- The arguments are wrong. -/
  | usage
  /-- Help is asked for, by a long or a short page. -/
  | help (topic : Topic) (long : Bool)
  | version
  deriving Repr, DecidableEq

/-- A natural number of 64 bits; a plus sign may stand in front. -/
def nat64? (s : String) : Option Nat :=
  let digits := match s.toList with
    | '+' :: cs => cs
    | cs => cs
  if digits.isEmpty || !digits.all Char.isDigit then none
  else
    let n := digits.foldl (fun n d => n * 10 + (d.toNat - '0'.toNat)) 0
    if n < Nat.pow 2 64 then some n else none

/-- A value for an option that can be given once. -/
def once {α : Type} (current : Option α) (value : Option α) (set : α → Options) :
    Except Stop Options :=
  match current, value with
  | none, some a => .ok (set a)
  | _, _ => .error .usage

/-- A flag that can be given once. -/
def onceFlag (current : Bool) (set : Options) : Except Stop Options :=
  if current then .error .usage else .ok set

/-- A path, which cannot be empty. -/
def path? (s : String) : Option String :=
  if s.isEmpty then none else some s

/-- Take in an event of the arguments in front of the command or behind it. -/
def Options.apply (topic : Topic) (o : Options) : Event → Except Stop Options
  | .mistake => .error .usage
  | .positional s =>
      if topic = .command .check then .ok { o with files := o.files ++ [s] } else .error .usage
  | .flag .help long => .error (.help topic long)
  | .flag .version _ => .error .version
  | .flag .quiet _ => onceFlag o.quiet { o with quiet := true }
  | .flag .json _ => onceFlag o.json { o with json := true }
  | .flag .versionOnly _ => onceFlag o.versionOnly { o with versionOnly := true }
  | .flag .verbose _ => .ok { o with verbose := o.verbose + 1 }
  | .flag _ _ => .error .usage
  | .value .config s => once o.config (path? s) fun a => { o with config := some a }
  | .value .chdir s => once o.chdir (path? s) fun a => { o with chdir := some a }
  | .value .colour s => once o.colour (ColourChoice.ofName? s) fun a => { o with colour := some a }
  | .value .dialect s => once o.dialect (Dialect.ofTag? s) fun a => { o with dialect := some a }
  | .value .maxProblems s => once o.maxProblems (nat64? s) fun a => { o with maxProblems := some a }
  | .value .disable s => .ok { o with disable := o.disable ++ [s] }
  | .value _ _ => .error .usage

/-- Take in events, from first to last. -/
def Options.ofEvents (topic : Topic) (events : List Event) : Except Stop Options :=
  events.foldlM (Options.apply topic) {}

/-- Options behind the name of a command, together with those in front of it. -/
def Options.behind (o front : Options) : Options :=
  { o with
    config := o.config.or front.config
    chdir := o.chdir.or front.chdir
    quiet := o.quiet || front.quiet
    verbose := if o.verbose = 0 then front.verbose else o.verbose
    colour := o.colour.or front.colour
    json := o.json || front.json
    versionOnly := front.versionOnly }

end Arguments

/-- What the program is asked to do, and how. -/
structure Invocation where
  command : Option Command
  options : Arguments.Options
  deriving Repr, DecidableEq

namespace Invocation

open Arguments

/-- The word that asks for help about commands. -/
def helpWord : String :=
  "help"

/-- Read the arguments behind the name of a command. -/
def commandOptions (command : Command) (args : List String) : Except Stop Options := do
  let options ← Options.ofEvents (.command command) (read (specsOf command) [] args).events
  if command = .check && options.files.isEmpty then throw .usage
  return options

/-- Help about a command, if there is one of that name. -/
def helpAbout : List String → Stop
  | [] => .help .program true
  | [name] =>
      match Command.ofName? name with
      | some command => .help (.command command) true
      | none => if name == helpWord then .help .help true else .usage
  | _ => .usage

/-- Read the arguments of the program. Without any there is nothing to do. -/
def parse (args : List String) : Except Stop Invocation := do
  let given := read leadingSpecs (helpWord :: Command.all.map Command.name) args
  let front ← Options.ofEvents .program given.events
  match given.command with
  | none => if given.events.isEmpty then throw .usage else return ⟨none, front⟩
  | some (name, args) =>
      match Command.ofName? name with
      | none => throw (helpAbout args)
      | some command =>
          let options ← commandOptions command args
          let front ← given.pending.toList.foldlM (Options.apply .program) front
          return ⟨some command, options.behind front⟩

end Invocation

end TradeScript
