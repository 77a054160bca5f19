import TradeScript.Data.Inline
import TradeScript.Data.Json
import TradeScript.Data.Yaml.Value
import TradeScript.FileTree
import TradeScript.Settings.Basic
import TradeScript.Settings.Search

/-!
# TradeScript.Settings.Layers

Settings from several sources. In rising order of rank they are the file of the
user, the files of the project, the files that are asked for by name, and the
environment. Every source gives values to some fields, and a field has the value
that the source of the highest rank gives it, where maps are joined key by key; a
field of which no source speaks has its default value. A value that is overruled
does no harm, whatever it is, unless a map is joined with it.
-/

namespace TradeScript

/-- What a source says: values of fields. -/
abbrev Layer := List (String × Data)

namespace Layer

/-- What layers say together, lowest rank first. -/
def merged (layers : List Layer) : Layer :=
  layers.foldl Data.mergeEntries []

/-- The value that counts for a field: that of the last layer that has one, if it is
not a map. -/
def winning? (layers : List Layer) (name : String) : Option Data :=
  Data.lookup (merged layers) name

/-! ### Files -/

/-- Read a settings file by its extension; without a known one it is TOML. -/
def ofText? (path text : String) : Option Layer :=
  match Path.extension? path with
  | some "yaml" | some "yml" => Yaml.parse text
  | some "json" =>
      match Json.parse text with
      | some (.map entries) => some entries
      | _ => none
  | _ => Toml.parse text

/-- Read a settings file. -/
def ofFile? (tree : FileTree) (cwd : Place) (path : String) : Option Layer :=
  match tree.readText cwd path with
  | .ok text => ofText? path text
  | .error _ => none

/-! ### The environment -/

/-- What the names of variables that are settings start with, in any case. -/
def variableStart : String :=
  "MQLINT_"

/-- The field that a variable is for, with dots between the names of records. -/
def fieldOf? (name : String) : Option (List String) :=
  let lower := (Text.trimString name).map Char.toLower
  match Text.after? (variableStart.map Char.toLower).toList lower.toList with
  | none => none
  | some rest =>
      let names := (Text.splitAt '.' (Text.trim rest)).map String.ofList
      if names.contains "" then none else some names

/-- A value inside records of the given names, from the outermost to the innermost. -/
def nest (d : Data) : List String → Data
  | [] => d
  | name :: names => .map [(name, nest d names)]

/-- What a variable says, if it is a setting. -/
def ofVariable? (name value : String) : Except Inline.Torn (Option (String × Data)) :=
  match fieldOf? name with
  | some (field :: inner) => do return some (field, nest (← Inline.parse value) inner)
  | _ => .ok none

/-- What the environment says. -/
def ofEnvironment (environment : List (String × String)) : Except Inline.Torn Layer := do
  let said ← environment.mapM fun (name, value) => ofVariable? name value
  return Data.mergeEntries [] (said.filterMap id)

end Layer

namespace Settings

/-- Where settings come from. -/
structure Sources where
  /-- The file of the user. -/
  user : Option String := none
  /-- The files of the project, lowest rank first. -/
  project : List String := []
  /-- The files that were asked for by name, lowest rank first. -/
  explicit : List String := []
  deriving Repr, DecidableEq

namespace Sources

/-- All files, lowest rank first. -/
def files (sources : Sources) : List String :=
  sources.user.toList ++ sources.project ++ sources.explicit

/-- The file of the highest rank. -/
def primary? (sources : Sources) : Option String :=
  (sources.explicit.getLast?.or sources.project.getLast?).or sources.user

end Sources

/-- What to load settings from. -/
structure Query where
  /-- The directory where the search for project files starts. -/
  search : Option String := none
  explicit : List String := []
  /-- Is the user's file wanted? -/
  withUser : Bool := true
  /-- What ends the search for project files. -/
  marker : Option String := some ".git"
  deriving Repr, DecidableEq

/-- Files, a working directory and variables: what settings are loaded from. -/
structure Surroundings where
  tree : FileTree
  cwd : Place := []
  environment : List (String × String) := []

namespace Surroundings

/-- The value of a variable. -/
def valueOf? (s : Surroundings) (name : String) : Option String :=
  (s.environment.find? fun e => e.1 == name).map Prod.snd

def isFile (s : Surroundings) (path : String) : Bool :=
  s.tree.isFile s.cwd path

def present (s : Surroundings) (path : String) : Bool :=
  s.tree.present s.cwd path

end Surroundings

/-- The files that settings are loaded from. -/
def sources (s : Surroundings) (query : Query) : Sources :=
  { user := if query.withUser then userFile? s.isFile s.valueOf? else none
    project := match query.search with
      | some start => projectFiles s.isFile s.present query.marker start
      | none => []
    explicit := query.explicit }

/-- Why there are no settings. -/
inductive LoadFault where
  /-- There is no settings file. -/
  | notFound
  /-- A settings file cannot be read, or the value of a field is not of its kind. -/
  | unreadable
  /-- The value of a variable cannot be taken apart. -/
  | torn
  deriving Repr, DecidableEq

namespace LoadFault

def message : LoadFault → String
  | notFound => "no configuration file found"
  | unreadable | torn => "failed to load configuration"

end LoadFault

/-- What all sources say, lowest rank first, if every file can be read. -/
def layers (s : Surroundings) (sources : Sources) : Except LoadFault (List Layer) := do
  let files := sources.files.mapM (Layer.ofFile? s.tree s.cwd)
  match files, Layer.ofEnvironment s.environment with
  | _, .error _ => .error .torn
  | none, _ => .error .unreadable
  | some files, .ok environment => .ok (files ++ [environment])

/-- Load settings from all sources. -/
def load (s : Surroundings) (query : Query) : Except LoadFault (Settings × Sources) := do
  let sources := sources s query
  let layers ← layers s sources
  match ofFields? Data.asLeadingTag? (Layer.winning? layers) with
  | some settings => return (settings, sources)
  | none => throw .unreadable

/-- Load settings from all sources, of which one has to be a file. -/
def loadFile (s : Surroundings) (query : Query) : Except LoadFault (Settings × Sources) :=
  if (sources s query).files.isEmpty then .error .notFound else load s query

end Settings

end TradeScript
