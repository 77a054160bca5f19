import TradeScript.Data.Number
import TradeScript.Text.Basic

/-!
# TradeScript.Command.Style

Text for a terminal: colours and weights as escape sequences. A single attribute
is undone by the sequence that belongs to it, a combined style by a full reset.
-/

namespace TradeScript.Style

/-- Text between the sequences that switch something on and off. -/
def between (on off : Nat) (s : String) : String :=
  s!"\x1b[{on}m{s}\x1b[{off}m"

def bold : String → String := between 1 0

def dimmed : String → String := between 2 0

def underlined : String → String := between 4 0

def red : String → String := between 31 39

def green : String → String := between 32 39

def yellow : String → String := between 33 39

def cyan : String → String := between 36 39

/-- Text in a combined style, given by its codes. -/
def combined (codes : List Nat) (s : String) : String :=
  let attributes := ";".intercalate (codes.map toString)
  s!"\x1b[{attributes}m{s}\x1b[0m"

/-- Text in a style, where colours are wanted. -/
def styledIf (colours : Bool) (style : String → String) (s : String) : String :=
  if colours then style s else s

/-- Text with spaces behind it, so that it takes up a width. -/
def padTo (width : Nat) (s : String) : String :=
  String.ofList (s.toList ++ List.replicate (width - s.length) ' ')

/-! ### Are colours wanted? -/

/-- A natural number of 64 bits, perhaps with a plus in front. -/
def number? (s : String) : Option Nat :=
  let digits := match s.toList with
    | '+' :: rest => rest
    | cs => cs
  let n := Number.digitsValue digits
  if digits.isEmpty || !digits.all Char.isDigit || Nat.pow 2 64 ≤ n then none else some n

/-- Does the environment ask for colours, whatever the output is? -/
def isForced (env : String → Option String) : Bool :=
  match env "FORCE_COLOR" with
  | some "false" => false
  | some s => number? s != some 0
  | none =>
      match env "CLICOLOR_FORCE" with
      | some s => s != "0"
      | none => false

/-- Is the variable set to anything but zero? -/
def isOn (env : String → Option String) (name : String) : Bool :=
  (env name).any (· != "0")

/-- Does text of that kind of terminal have colours? -/
def isColourTerminal (term : String) : Bool :=
  let starts := ["screen", "xterm", "vt100", "vt220", "rxvt"]
  let parts := ["color", "ansi", "cygwin", "linux"]
  let ends := ["direct", "truecolor", "256", "256color"]
  let cs := term.toList
  starts.any (fun s => s.toList.isPrefixOf cs) || parts.any (fun s => Text.contains s.toList cs) ||
    ends.any (fun s => Text.endsIn s.toList cs)

/-- Variables that services set which build and test programs. -/
def buildVariables : List String :=
  ["CI_NAME", "GITHUB_ACTION", "GITLAB_CI", "NETLIFY", "TRAVIS", "CODEBUILD_SRC_DIR",
   "BUILDER_OUTPUT", "GITLAB_DEPLOYMENT", "NOW_GITHUB_DEPLOYMENT", "NOW_BUILDER",
   "BITBUCKET_DEPLOYMENT", "GERRIT_PROJECT", "SYSTEM_TEAMFOUNDATIONCOLLECTIONURI", "BITRISE_IO",
   "BUDDY_WORKSPACE_ID", "BUILDKITE", "CIRRUS_CI", "APPVEYOR", "CIRCLECI", "SEMAPHORE", "DRONE",
   "DSARI", "TDDIUM", "STRIDER", "TASKCLUSTER_ROOT_URL", "JENKINS_URL", "bamboo.buildKey",
   "GO_PIPELINE_NAME", "HUDSON_URL", "WERCKER"]

/-- Does the program run under a service that builds and tests programs? Their logs
show colours. -/
def inBuild (env : String → Option String) : Bool :=
  (env "CI").any (fun s => ["true", "1", "woodpecker"].contains s) ||
    buildVariables.any (fun name => (env name).isSome) ||
    (env "NODE").any (fun s => Text.endsIn "//heroku/node/bin/node".toList s.toList)

/-- Does the environment let expect that the output can show colours? -/
def canColour (env : String → Option String) : Bool :=
  (env "COLORTERM").isSome || (env "TERM").any isColourTerminal ||
    (env "TERM_PROGRAM").any (fun s => ["iTerm.app", "Apple_Terminal"].contains s) ||
    isOn env "CLICOLOR" || inBuild env

/-- The variables that settle whether colours are wanted. -/
def variableNames : List String :=
  ["FORCE_COLOR", "CLICOLOR_FORCE", "NO_COLOR", "TERM", "IGNORE_IS_TERMINAL", "COLORTERM",
   "TERM_PROGRAM", "CLICOLOR", "CI", "NODE"] ++ buildVariables

/-- Are colours wanted where nobody has chosen? Where the environment asks for them,
or in a terminal that can show them, unless the environment is against it. -/
def supportsColours (env : String → Option String) (terminal : Bool) : Bool :=
  isForced env ||
    ((terminal || isOn env "IGNORE_IS_TERMINAL") && !isOn env "NO_COLOR" &&
      env "TERM" != some "dumb" && canColour env)

end TradeScript.Style
