import TradeScript.Command.Run

/-!
# TradeScript.Command.Footprint

The files and variables that a run may look at, so that they can be gathered
before the run. Which files these are can depend on files that were gathered
before: a working directory has to be known before settings files are looked for
in it, and these before the log file is.
-/

namespace TradeScript.World

/-- The variables that a run may look at. -/
def variableNames : List String :=
  let fields := Settings.fieldNames ++ ["log_path"]
  ["HOME", "XDG_CONFIG_HOME"] ++ Style.variableNames ++
    fields.flatMap fun field =>
      let name := Layer.variableStart ++ field.map Char.toUpper
      [name, name.map Char.toLower]

/-- The settings files that a run may look at, and the markers that end the search
for them. -/
def settingsPaths (world : World) : List String :=
  let start := FileTree.pathOf world.cwd
  let query : Settings.Query := {}
  Settings.userCandidates world.valueOf? ++
    (start :: Path.above start).flatMap fun dir =>
      Settings.candidates dir ++ query.marker.toList.map (Path.join dir)

/-- The path of the log file, if its name is known. -/
def logPaths (world : World) (options : Arguments.Options) : List String :=
  match world.loadSettings options with
  | .ok (settings, _) =>
      (LogTarget.ofRun? world.valueOf? settings).toList.map fun target => target.pathOn world.day
  | .error _ => []

/-- The absolute paths that a run may look at, as far as they are known. -/
def footprint (world : World) (options : Arguments.Options) : List String :=
  let seenFrom (world : World) := Path.join (FileTree.pathOf world.cwd)
  let base := FileTree.pathOf world.cwd :: options.chdir.toList.map (seenFrom world)
  match world.enter options.chdir with
  | .error _ => base
  | .ok world =>
      base ++
        (world.settingsPaths ++ options.config.toList ++ options.files ++
          world.logPaths options).map (seenFrom world)

end TradeScript.World
