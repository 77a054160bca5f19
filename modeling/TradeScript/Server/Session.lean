import TradeScript.Server.Basic
import TradeScript.Server.Shape

/-!
# TradeScript.Server.Session

A session with a client, as JSON-RPC messages, one to a line. The client has to
introduce itself and to confirm the answer; then its calls are answered until
there are no more messages, or one that cannot be read.
-/

namespace TradeScript

/-- A message of a client. -/
inductive Message where
  | request (id : Data) (method : String) (params : Data)
  | notification (method : String)
  /-- An answer to something that the server has asked, which it never does. -/
  | answer

namespace Message

/-- The identity of a request: an integer of 64 bits with its sign, or a string. -/
def isId : Data → Bool
  | .int n => n < Nat.pow 2 63
  | .str _ => true
  | _ => false

/-- Read a message. What has a method and no identity is a notification. -/
def ofLine? (line : String) : Option Message := do
  let d ← Json.parse line
  guard ((d.field? [] "jsonrpc").bind Data.asString? == some "2.0")
  match d.field? [] "method", d.field? [] "id" with
  | some method, some id =>
      let name ← method.asString?
      if isId id then some (.request id name ((d.field? [] "params").getD (.map [])))
      else some (.notification name)
  | some method, none => some (.notification (← method.asString?))
  | none, _ =>
      if (d.field? [] "result").isSome || (d.field? [] "error").isSome then some .answer
      else none

/-- What a client says that it can do. -/
def capabilities : Shape :=
  .options
    [("experimental", .table .object), ("extensions", .table .object),
     ("roots", .options [("listChanged", .flag)]),
     ("sampling", .options [("tools", .object), ("context", .object)]),
     ("elicitation", .object),
     ("tasks", .options
       [("list", .object), ("cancel", .object),
        ("requests", .options
          [("sampling", .options [("createMessage", .object)]),
           ("elicitation", .options [("create", .object)]),
           ("tools", .options [("call", .object)])])])]

/-- A picture that stands for a client. -/
def icon : Shape :=
  .record [("src", .text), ("mimeType", .maybe .text), ("sizes", .maybe (.list .text))]

/-- What a client says about itself. -/
def clientInfo : Shape :=
  .record
    [("name", .text), ("version", .text), ("title", .maybe .text), ("description", .maybe .text),
     ("websiteUrl", .maybe .text), ("icons", .maybe (.list icon))]

/-- The parameters that introduce a client. -/
def introduction : Shape :=
  .record
    [("_meta", .maybe .object), ("protocolVersion", .text), ("capabilities", capabilities),
     ("clientInfo", clientInfo)]

end Message

/-- How far a session has come. -/
inductive Phase where
  /-- The client has not introduced itself. -/
  | opening
  /-- The client has not confirmed that it is ready. -/
  | introduced
  | ready
  deriving Repr, DecidableEq

/-- A session. -/
structure Session where
  phase : Phase
  server : Server
  deriving Repr, DecidableEq

namespace Session

/-- A session that has not begun. -/
def start (server : Server) : Session :=
  ⟨.opening, server⟩

/-- An answer that holds a result. -/
def result (id d : Data) : Data :=
  .map [("jsonrpc", .str "2.0"), ("id", id), ("result", d)]

/-- An answer that holds an error. -/
def errorAnswer (id : Data) (code : Int) (message : String) : Data :=
  .map [("jsonrpc", .str "2.0"), ("id", id),
    ("error", .map [("code", .int code), ("message", .str message)])]

/-- What the server says about itself to a client of a version of the protocol. -/
def greeting (version : Data) : Data :=
  .map [("protocolVersion", version), ("capabilities", .map [("tools", .map [])]),
    ("serverInfo", .map [("name", .str About.name), ("version", .str About.version)]),
    ("instructions", .str Server.instructions)]

/-- The tools that a client can call. -/
def toolList : Data :=
  .map [("tools", .list <| ToolCall.tools.map fun (name, purpose) =>
    .map [("name", .str name), ("description", .str purpose),
      ("inputSchema", .map [("type", .str "object")])])]

/-- The code of an error in the parameters of a request. -/
def badParams : Int := -32602

/-- The code of an error in the method of a request. -/
def badMethod : Int := -32601

/-- Answer the call of a tool. -/
def callTool [Check.PatternEngine] (server : Server) (id params : Data) : Data × Server :=
  let arguments := match params.field? [] "arguments" with
    | none | some .null => .map []
    | some d => d
  let call := ((params.field? [] "name").bind Data.asString?).bind fun tool =>
    ToolCall.ofData? tool arguments
  match call with
  | none => (errorAnswer id badParams Refusal.badCall.message, server)
  | some call =>
      match server.answer call with
      | (.ok reply, server) =>
          let part := Data.map [("type", .str "text"), ("text", .str reply.text)]
          (result id (.map [("content", .list [part]), ("isError", .bool false)]), server)
      | (.error refusal, server) => (errorAnswer id badParams refusal.message, server)

/-- Answer a request of a client that is ready. -/
def respond [Check.PatternEngine] (server : Server) (id : Data) (method : String)
    (params : Data) : Data × Server :=
  match method with
  | "ping" => (result id (.map []), server)
  | "tools/list" => (result id toolList, server)
  | "tools/call" => callTool server id params
  | _ => (errorAnswer id badMethod s!"method not found: {method}", server)

/-- Take in a line: the session that goes on, and the answers to the client. A
session ends with `none`. -/
def step [Check.PatternEngine] (session : Session) (line : String) : Option (Session × List Data) :=
  match session.phase, Message.ofLine? line with
  | .opening, some (.request id "initialize" params) =>
      if Message.introduction.fits params then
        let version := (params.field? [] "protocolVersion").getD .null
        some ({ session with phase := .introduced }, [result id (greeting version)])
      else none
  | .introduced, some (.notification "notifications/initialized") =>
      some ({ session with phase := .ready }, [])
  | .ready, some (.request id method params) =>
      let (d, server) := respond session.server id method params
      some ({ session with server }, [d])
  | .ready, some _ => some (session, [])
  | _, _ => none

/-- Take in lines until the session ends: the phase in which it ends, and all
answers. -/
def run [Check.PatternEngine] (session : Session) : List String → Phase × List Data
  | [] => (session.phase, [])
  | line :: lines =>
      match session.step line with
      | none => (session.phase, [])
      | some (session, answers) =>
          let (phase, more) := run session lines
          (phase, answers ++ more)

end Session

end TradeScript
