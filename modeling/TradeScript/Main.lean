import Std.Time.DateTime.Timestamp
import TradeScript.Command.Day
import TradeScript.Command.Footprint

/-!
# TradeScript.Main

The program: it gathers what a run may look at, prints what the run comes to, and
creates what the run has created.
-/

namespace TradeScript.Main

/-- The error code for reading a directory as a file. -/
def isDirectoryCode : UInt32 := 21

/-- What stands at a path. -/
def probe (path : String) : IO (Option Entry) := do
  try
    return some (.file (← IO.FS.readBinFile path))
  catch e =>
    match e with
    | .inappropriateType _ code _ =>
        return if code == isDirectoryCode then some .directory else none
    | _ => return none

/-- The place of an absolute path. -/
def placeOf (path : String) : Place :=
  (Path.pieces path).foldl (fun place name =>
    match name with
    | "" | "." => place
    | ".." => place.tail
    | name => name :: place) []

/-- Take what stands at an absolute path, and on the way to it, into a tree. -/
def gather (tree : FileTree) (path : String) : IO FileTree := do
  let mut tree := tree
  for path in (Path.above path).reverse ++ [path] do
    let place := placeOf path
    if (tree.entry? place).isNone then
      if let some entry ← probe path then
        tree := tree.insert place entry
  return tree

/-- Take what a run may look at into its world. What is found in one round can show
what else to look for: the working directory, then the settings, then the log. -/
def gatherAll (world : World) (options : Arguments.Options) : IO World := do
  let mut world := world
  for _ in [0, 1, 2] do
    world := { world with tree := ← (world.footprint options).foldlM gather world.tree }
  return world

/-- The variables of the environment that a run may look at. -/
def environment : IO (List (String × String)) := do
  let values ← World.variableNames.mapM fun name =>
    return (← IO.getEnv name).map fun value => (name, value)
  return values.filterMap id

/-- The date, as the name of a log file has it. -/
def today : IO String := do
  let seconds := (← Std.Time.Timestamp.now).toSecondsSinceUnixEpoch.val
  return Day.render (seconds.toNat / 86400)

/-- The world in which the program is started. -/
def observe (options : Arguments.Options) : IO World := do
  let cwd := placeOf (toString (← IO.currentDir))
  gatherAll
    { tree := .empty, cwd, environment := ← environment, terminal := ← (← IO.getStdout).isTty,
      day := ← today } options

/-- Create what is in a tree and was not there before, from the outermost on. -/
def create (before after : FileTree) : IO Unit := do
  let places := (after.newSince before).mergeSort fun a b => a.1.length ≤ b.1.length
  for (place, entry) in places do
    match entry with
    | .directory => IO.FS.createDir (FileTree.pathOf place)
    | .file bytes => IO.FS.writeBinFile (FileTree.pathOf place) bytes

/-- Answer a client until its messages end. -/
partial def converse (session : Session) : IO Phase := do
  let line ← (← IO.getStdin).getLine
  if line.isEmpty then return session.phase
  match session.step line with
  | none => return session.phase
  | some (session, answers) =>
      let output ← IO.getStdout
      for d in answers do
        output.putStrLn (Json.render .compact d)
      output.flush
      converse session

/-- Report how a run has ended. -/
def report (ending : Ending) : IO UInt32 := do
  match ending with
  | .done => pure ()
  | .failed failure => IO.eprintln failure.report
  | .misused => IO.eprintln Help.hint
  | .aborted => IO.eprintln "the run was broken off"
  return ending.exitCode.toUInt32

/-- Run the command that answers a client, message by message. -/
def serve (world : World) (options : Arguments.Options) : IO UInt32 := do
  match world.prepare options with
  | .error result =>
      create world.tree result.tree
      report result.ending
  | .ok (after, settings, _) =>
      create world.tree after.tree
      match Server.start settings with
      | .error _ => report (.ofFailure? (after.serve settings).failure)
      | .ok server =>
          let phase ← converse (Session.start server)
          report (.ofFailure? (Session.failure? phase))

/-- Run any other command. -/
def runOnce (world : World) (args : List String) : IO UInt32 := do
  let result := world.run args
  create world.tree result.tree
  IO.print result.output
  report result.ending

end TradeScript.Main

open TradeScript in
/-- The command line. -/
def main (args : List String) : IO UInt32 := do
  match Invocation.parse args with
  | .ok ⟨command, options⟩ =>
      let world ← Main.observe options
      if command == some .serve && !options.versionOnly then Main.serve world options
      else Main.runOnce world args
  | .error _ => Main.runOnce { tree := .empty } args
