import TradeScript.About
import TradeScript.Data.Json
import TradeScript.Settings.Basic
import TradeScript.Wire

/-!
# TradeScript.Server.Basic

The tool server. A client sends the text of a document after every edit; the
server checks it and keeps what it found, by document and revision, until the
client asks for it or has it cleared. Every tool is a step on the state of the
server.
-/

namespace TradeScript

/-- The state of a server. -/
structure Server where
  settings : Settings
  run : RunSettings
  store : Store
  deriving Repr, DecidableEq

/-- A request to check a document. -/
structure CheckRequest where
  uri : String
  text : String
  /-- The dialect, if the client tells it. -/
  dialect : Option Dialect := none
  /-- The revision of the text; the next one if the client does not number them. -/
  revision : Option Nat := none
  /-- The most diagnostics wanted, if not what the settings say. -/
  maxProblems : Option Nat := none
  deriving Repr, DecidableEq

/-- What a client can ask for. -/
inductive ToolCall where
  /-- What the server is and how it is set up. -/
  | info (format : String)
  | check (request : CheckRequest)
  /-- What is published for a document. -/
  | diagnostics (uri : String)
  /-- Forget a document, or all of them. -/
  | clear (uri : Option String)
  deriving Repr, DecidableEq

/-- What a client gets. -/
inductive Reply where
  | info (asData : Bool) (validationEnabled : Bool) (maxProblems documents : Nat)
  /-- The report on a revision, and what became of its publication, if there was
  one. -/
  | checked (uri : String) (revision : Nat) (publication : Option Publication) (report : Report)
  | diagnostics (uri : String) (published : Option Published)
  /-- How many documents were forgotten. -/
  | cleared (count : Nat)
  deriving Repr, DecidableEq

/-- Why a client gets nothing. -/
inductive Refusal where
  /-- There is no such tool, or it does not take such arguments. -/
  | badCall
  /-- The text is longer than the limit. -/
  | tooLarge (size limit : Nat)
  deriving Repr, DecidableEq

namespace Refusal

def message : Refusal → String
  | badCall => "invalid parameters"
  | tooLarge size limit => s!"input too large: {size} bytes (limit: {limit} bytes)"

end Refusal

/-! ### Calls -/

namespace ToolCall

/-- The tools, with what they are for. -/
def tools : List (String × String) :=
  [("check_document",
    "Check MQL4/MQL5 source text and publish its diagnostics. Returns the report and whether " ++
    "the publish replaced the stored result (results for older revisions are discarded)."),
   ("clear_diagnostics",
    "Clear published diagnostics for one document URI, or for all documents when no URI is given."),
   ("get_diagnostics", "Get the diagnostics currently published for a document URI."),
   ("get_info", "Get mqlint name, version, and effective settings")]

/-- An argument that may be left out. -/
def argument? {α : Type} (arguments : Data) (name : String) (decode : Data → Option α) :
    Option (Option α) :=
  match arguments.field? [] name with
  | none => some none
  | some d => d.asOption? decode

/-- The call of a tool with arguments. Arguments that the tool does not know do not
count. -/
def ofData? (tool : String) (arguments : Data) : Option ToolCall := do
  match tool with
  | "get_info" =>
      match arguments.field? [] "format" with
      | none => some (.info "text")
      | some d => (d.asString?).map .info
  | "check_document" =>
      some <| .check
        { uri := ← (← arguments.field? [] "uri").asString?
          text := ← (← arguments.field? [] "text").asString?
          dialect := ← argument? arguments "dialect" fun d => d.asTag?.bind Dialect.ofTag?
          revision := ← argument? arguments "revision" Data.asNat64?
          maxProblems := ← argument? arguments "max_problems" Data.asNat64? }
  | "get_diagnostics" => some (.diagnostics (← (← arguments.field? [] "uri").asString?))
  | "clear_diagnostics" => some (.clear (← argument? arguments "uri" Data.asString?))
  | _ => none

end ToolCall

/-! ### Replies -/

namespace Reply

/-- A reply as data; information that is wanted as text has none. -/
def toData? : Reply → Option Data
  | info true validationEnabled maxProblems documents =>
      some <| .map [("name", .str About.name), ("version", .str About.version),
        ("description", .str About.description), ("validation_enabled", .bool validationEnabled),
        ("max_problems", .nat maxProblems), ("documents", .nat documents)]
  | info false _ _ _ => none
  | checked uri revision publication report =>
      some <| .map <| [("uri", .str uri), ("revision", .nat revision)] ++
        (match publication with
          | some p => [("publish", p.toData)]
          | none => []) ++
        [("report", report.toData)]
  | diagnostics uri published =>
      some <| .map [("uri", .str uri), ("published", .option Published.toData published)]
  | cleared count => some <| .map [("cleared", .nat count)]

/-- Information as text. -/
def infoText (validationEnabled : Bool) (maxProblems documents : Nat) : String :=
  let validation := if validationEnabled then "on" else "off"
  s!"{About.name} v{About.version}\n{About.description}\n" ++
    s!"validation: {validation}, max problems: {maxProblems}, documents: {documents}"

/-- A reply as text. -/
def text (reply : Reply) : String :=
  match reply with
  | info false validationEnabled maxProblems documents =>
      infoText validationEnabled maxProblems documents
  | _ =>
      match reply.toData? with
      | some d => Json.render .pretty d
      | none => ""

end Reply

/-! ### Steps -/

namespace Server

/-- What a client is told first. -/
def instructions : String :=
  s!"{About.name} MCP server. Send document text to check_document after every edit, " ++
    "with an increasing revision."

/-- A server without documents, if the settings can be used. -/
def start (settings : Settings) : Except Code.Unknown Server := do
  return { settings, run := ← settings.runSettings, store := .empty }

/-- Is a text of this many bytes longer than the limit? The limit, if so. -/
def exceeded? (server : Server) (size : Nat) : Option Nat :=
  server.settings.inputLimit.filter fun limit => limit < size

/-- The revision of a text that is to be checked, and the store that knows it. -/
def revisionOf (server : Server) (request : CheckRequest) : Nat × Store :=
  match request.revision with
  | some revision => (revision, server.store)
  | none => server.store.nextRevision request.uri

/-- The report on a text. -/
def reportOn [Check.PatternEngine] (server : Server) (request : CheckRequest)
    (text : String) : Report :=
  let dialect := request.dialect.getD (server.settings.resolveDialect (some request.uri))
  let run := { server.run with maxProblems := request.maxProblems.getD server.run.maxProblems }
  { check text dialect run with file := some request.uri }

/-- Check a text that is not too long. Where nothing is checked, nothing stays
published either. -/
def checkDocument [Check.PatternEngine] (server : Server)
    (request : CheckRequest) : Reply × Server :=
  let (revision, store) := server.revisionOf request
  if server.settings.validationEnabled then
    let report := server.reportOn request request.text
    let (publication, store) := store.publish request.uri revision report.diagnostics
    (.checked request.uri revision (some publication) report, { server with store })
  else
    (.checked request.uri revision none (server.reportOn request ""),
      { server with store := store.clear })

/-- Answer a call. -/
def answer [Check.PatternEngine] (server : Server) : ToolCall → Except Refusal Reply × Server
  | .info format =>
      (.ok (.info (format == "json") server.settings.validationEnabled server.run.maxProblems
        server.store.size), server)
  | .check request =>
      let size := request.text.utf8ByteSize
      match server.exceeded? size with
      | some limit => (.error (.tooLarge size limit), server)
      | none =>
          let (reply, server) := server.checkDocument request
          (.ok reply, server)
  | .diagnostics uri => (.ok (.diagnostics uri (server.store.get? uri)), server)
  | .clear (some uri) =>
      let (removed, store) := server.store.remove uri
      (.ok (.cleared (if removed.isSome then 1 else 0)), { server with store })
  | .clear none =>
      (.ok (.cleared server.store.size), { server with store := server.store.clear })

end Server

end TradeScript
