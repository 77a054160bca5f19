import TradeScript.Command.CheckFiles
import TradeScript.Command.Help
import TradeScript.Command.Log
import TradeScript.Command.Overview
import TradeScript.Server.Session

/-!
# TradeScript.Command.Run

A run of the program, from its arguments and surroundings to what it prints and
leaves behind.
-/

namespace TradeScript

/-- Why a session has failed that ends in a phase, if it has. -/
def Session.failure? : Phase → Option Failure
  | .ready => none
  | _ => some ⟨"failed to start MCP server", []⟩

/-- What a run finds. -/
structure World extends Settings.Surroundings where
  /-- The lines of the input. -/
  input : List String := []
  /-- Is the output a terminal? -/
  terminal : Bool := false
  /-- The date, for the name of the log file. -/
  day : String := ""

/-- How a run ends. -/
inductive Ending where
  | done
  | failed (failure : Failure)
  /-- The arguments were wrong. -/
  | misused
  /-- The run was broken off. -/
  | aborted
  deriving Repr, DecidableEq

namespace Ending

/-- The exit code. -/
def exitCode : Ending → Nat
  | done => 0
  | failed _ => 1
  | misused => 2
  | aborted => 101

/-- The ending of a command. -/
def ofFailure? : Option Failure → Ending
  | some failure => failed failure
  | none => done

end Ending

/-- What a run comes to. -/
structure RunResult where
  ending : Ending
  /-- The text that is printed. -/
  output : String := ""
  /-- The files after the run. -/
  tree : FileTree

namespace World

/-- The run ends before a command is reached. -/
def stopped (world : World) : Arguments.Stop → RunResult
  | .usage => { ending := .misused, tree := world.tree }
  | .help topic long => { ending := .done, output := Help.page topic long, tree := world.tree }
  | .version =>
      { ending := .done, output := s!"{About.name} {About.version}\n", tree := world.tree }

/-- Is the output coloured? -/
def colours (world : World) : Option ColourChoice → Bool
  | some .always => true
  | some .never => false
  | some .auto | none => Style.supportsColours world.valueOf? world.terminal

/-- The run fails, and leaves the files as they are. -/
def failing (world : World) (failure : Failure) : RunResult :=
  { ending := .failed failure, tree := world.tree }

/-- The run is broken off, and leaves the files as they are. -/
def aborting (world : World) : RunResult :=
  { ending := .aborted, tree := world.tree }

/-- The world after a change of the working directory. -/
def enter (world : World) (dir : Option String) : Except Failure World :=
  match dir with
  | none => .ok world
  | some path =>
      match world.tree.directoryAt world.cwd path with
      | .ok cwd => .ok { world with cwd }
      | .error fault =>
          .error <| (Failure.mk fault.message []).causedBy
            s!"failed to change directory to {path}"

/-- The settings of a run, and where they come from. -/
def loadSettings (world : World) (options : Arguments.Options) :
    Except Settings.LoadFault (Settings × Settings.Sources) :=
  Settings.load world.toSurroundings
    { search := some (FileTree.pathOf world.cwd), explicit := options.config.toList }

/-- The world after the log file has been opened. -/
def openLog (world : World) (settings : Settings) : Except RunResult World :=
  match LogTarget.ofRun? world.valueOf? settings with
  | none => .ok world
  | some target =>
      let (fault, tree) := target.openOn world.day world.tree world.cwd
      let world := { world with tree }
      match fault with
      | none => .ok world
      | some .file => .error world.aborting
      | some (.directory fault) =>
          .error <| world.failing <| ((Failure.mk fault.message []).causedBy
            s!"failed to create log directory {target.dir}").causedBy
            "failed to initialize logging/tracing"

/-- Answer a client. Where it does not introduce itself, the command fails. -/
def serve (world : World) (settings : Settings) : Outcome :=
  match Server.start settings with
  | .error e => .failing ((Failure.mk e.message []).causedBy "invalid configuration")
  | .ok server =>
      let (phase, answers) := (Session.start server).run world.input
      { lines := answers.map (Json.render .compact)
        failure := Session.failure? phase }

/-- Do what a command says. -/
def perform (world : World) (options : Arguments.Options) (settings : Settings)
    (sources : Settings.Sources) : Command → Outcome
  | .check =>
      CheckFiles.run world.toSurroundings (world.colours options.colour) options settings
  | .codes => Overview.codes options.json
  | .info => Overview.info options.json settings sources
  | .serve => world.serve settings

/-- The settings of a run and the world in which its command is performed; or what
the run comes to, if it gets no further. -/
def prepare (world : World) (options : Arguments.Options) :
    Except RunResult (World × Settings × Settings.Sources) := do
  let world ← (world.enter options.chdir).mapError world.failing
  let (settings, sources) ← (world.loadSettings options).mapError fun fault =>
    if fault = .torn then world.aborting else world.failing ⟨fault.message, []⟩
  return (← world.openLog settings, settings, sources)

/-- Run a command. -/
def runCommand (world : World) (options : Arguments.Options) (command : Command) : RunResult :=
  match world.prepare options with
  | .error result => result
  | .ok (world, settings, sources) =>
      let outcome := world.perform options settings sources command
      { ending := .ofFailure? outcome.failure, output := outcome.text, tree := world.tree }

/-- Run the program. -/
def run (world : World) (args : List String) : RunResult :=
  match Invocation.parse args with
  | .error stop => world.stopped stop
  | .ok ⟨command, options⟩ =>
      if options.versionOnly then
        { ending := .done, output := About.version ++ "\n", tree := world.tree }
      else
        match command with
        | none => { ending := .done, tree := world.tree }
        | some command => world.runCommand options command

end World

end TradeScript
