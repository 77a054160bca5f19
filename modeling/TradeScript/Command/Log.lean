import TradeScript.Settings.Layers

/-!
# TradeScript.Command.Log

Where a run writes its log. A variable can name a log file, another one a
directory; else the settings name a directory. Every day has a file of its own.
-/

namespace TradeScript

/-- A log file, without its date. -/
structure LogTarget where
  dir : String
  fileName : String
  deriving Repr, DecidableEq

namespace LogTarget

/-- The name of a log file that has none. -/
def defaultName : String :=
  "mqlint.jsonl"

/-- The log file at a path. -/
def ofPath (path : String) : LogTarget :=
  { dir := ((Path.parent? path).filter fun (dir : String) => !dir.isEmpty).getD "."
    fileName := (Path.fileName? path).getD defaultName }

/-- The log file of a run, if there is one. -/
def ofRun? (env : String → Option String) (settings : Settings) : Option LogTarget :=
  match env "MQLINT_LOG_PATH" with
  | some path => some (ofPath path)
  | none =>
      ((env "MQLINT_LOG_DIR").or settings.logDir).map fun dir => { dir, fileName := defaultName }

/-- The path of the log file of a day. -/
def pathOn (target : LogTarget) (day : String) : String :=
  Path.join target.dir (target.fileName ++ "." ++ day)

/-- Why there is no log file. -/
inductive Fault where
  /-- Its directory cannot be made. -/
  | directory (fault : FileFault)
  /-- The file itself cannot be opened. -/
  | file
  deriving Repr, DecidableEq

/-- Open the log file of a day: the tree that is left, with the file in it if there
is no fault. -/
def openOn (target : LogTarget) (day : String) (tree : FileTree) (cwd : Place) :
    Option Fault × FileTree :=
  match tree.makeDirectories cwd target.dir with
  | (some fault, tree) => (some (.directory fault), tree)
  | (none, tree) =>
      match tree.openFile cwd (target.pathOn day) with
      | .ok tree => (none, tree)
      | .error _ => (some .file, tree)

end LogTarget

end TradeScript
