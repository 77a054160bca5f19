import TradeScript.Proofs.Store.Interleaving
import TradeScript.Server.Session

/-!
# TradeScript.Proofs.Server.Conversation

A client that calls the tools of a server one after the other
(`Server.converse`). A call is the name of a tool with arguments as data; one that
cannot be read is refused and changes nothing.

To its store a server is a caller like any other: whatever it is asked, what it
does to the store are steps of `Store.Shared.Step` (`Handled.run`). So every
revision that stands was counted, and a text that is checked without a revision
gets one that nothing published is newer than, also where the counter has stopped
at the greatest revision: such a check is always published.
-/

namespace TradeScript

/-! ### Calls one after the other -/

namespace Server

/-- Answer the call of a tool, if it can be read. -/
def receive [Check.PatternEngine] (server : Server) (tool : String) (arguments : Data) :
    Except Refusal Reply × Server :=
  match ToolCall.ofData? tool arguments with
  | none => (.error .badCall, server)
  | some call => server.answer call

/-- A call, if it could be read, and what the client got. -/
structure Exchange where
  call : Option ToolCall
  reply : Except Refusal Reply

/-- Answer calls one after the other. The result is what was exchanged, and the
server afterwards. -/
def converse [Check.PatternEngine] (server : Server) : List (String × Data) → List Exchange × Server
  | [] => ([], server)
  | (tool, arguments) :: calls =>
      let here := server.receive tool arguments
      let rest := converse here.2 calls
      (⟨ToolCall.ofData? tool arguments, here.1⟩ :: rest.1, rest.2)

end Server

namespace Session

/-- The name of the tool that a request calls. -/
def toolName (params : Data) : String :=
  ((params.field? [] "name").bind Data.asString?).getD ""

/-- The arguments of a request that calls a tool. -/
def toolArguments (params : Data) : Data :=
  match params.field? [] "arguments" with
  | none | some .null => .map []
  | some d => d

/-- What a client gets, as an answer to its request. -/
def toolAnswer (id : Data) : Except Refusal Reply → Data
  | .ok reply =>
      result id (.map [("content", .list [.map [("type", .str "text"), ("text", .str reply.text)]]),
        ("isError", .bool false)])
  | .error refusal => errorAnswer id badParams refusal.message

/-- A session answers the call of a tool as the server does. -/
theorem callTool_eq [Check.PatternEngine] (server : Server) (id params : Data) :
    callTool server id params =
      (toolAnswer id (server.receive (toolName params) (toolArguments params)).1,
        (server.receive (toolName params) (toolArguments params)).2) := by
  unfold callTool toolName
  cases (params.field? [] "name").bind Data.asString? with
  -- A request that names no tool is refused, as one for a tool that does not exist.
  | none => rfl
  | some tool =>
      change (match ToolCall.ofData? tool (toolArguments params) with
        | none => _
        | some call => _) = _
      simp only [Option.getD_some, Server.receive]
      cases ToolCall.ofData? tool (toolArguments params) with
      | none => rfl
      | some call =>
          rcases hanswer : server.answer call with ⟨refusal | reply, server'⟩
          · simp only [hanswer, toolAnswer]
          · simp only [hanswer, toolAnswer]

end Session

namespace Server

variable {server : Server}

/-- Every exchange of a conversation is with the server that the calls before it have
left. -/
theorem exists_converse [Check.PatternEngine] {calls : List (String × Data)}
    {before after : List Exchange} {e : Exchange}
    (h : (server.converse calls).1 = before ++ e :: after) :
    ∃ calls' tool arguments, before = (server.converse calls').1 ∧
      e = ⟨ToolCall.ofData? tool arguments,
        ((server.converse calls').2.receive tool arguments).1⟩ := by
  induction calls generalizing server before with
  | nil => exact absurd h.symm (by simp [converse])
  | cons call calls ih =>
      obtain ⟨tool, arguments⟩ := call
      cases before with
      | nil =>
          obtain ⟨rfl, -⟩ := List.cons.inj h
          exact ⟨[], tool, arguments, rfl, rfl⟩
      | cons first before =>
          rw [List.cons_append] at h
          obtain ⟨rfl, hrest⟩ := List.cons.inj h
          obtain ⟨calls', tool', arguments', rfl, he⟩ := ih hrest
          exact ⟨(tool, arguments) :: calls', tool', arguments', rfl, he⟩

/-- What every call keeps, a conversation keeps. -/
theorem converse_induction [Check.PatternEngine] {P : Server → Prop} (hstart : P server)
    (hstep : ∀ s tool arguments, P s → P (s.receive tool arguments).2)
    (calls : List (String × Data)) : P (server.converse calls).2 := by
  induction calls generalizing server with
  | nil => exact hstart
  | cons call calls ih => exact ih (hstep server call.1 call.2 hstart)

end Server

/-! ### What a call leads to -/

theorem Data.le_of_asNat64? {d : Data} {n : Nat} (h : d.asNat64? = some n) : n ≤ maxRevision := by
  cases d with
  | int i =>
      simp only [Data.asNat64?, Data.asNatBelow?] at h
      split at h
      · rename_i hi
        obtain rfl := Option.some.inj h
        exact Nat.le_sub_one_of_lt ((Int.toNat_lt hi.1).mpr hi.2)
      · exact absurd h (by simp)
  | _ => exact absurd h (by simp [Data.asNat64?, Data.asNatBelow?])

theorem ToolCall.exists_of_argument? {α : Type} {arguments : Data} {name : String}
    {decode : Data → Option α} {a : α} (h : argument? arguments name decode = some (some a)) :
    ∃ d, decode d = some a := by
  unfold argument? at h
  split at h
  · exact absurd h (by simp)
  · unfold Data.asOption? at h
    split at h
    · exact absurd h (by simp)
    · exact ⟨_, by simpa using h⟩

/-- The revision of a call that could be read has 64 bits. -/
theorem ToolCall.revision_le_of_ofData? {tool : String} {arguments : Data} {request : CheckRequest}
    (h : ofData? tool arguments = some (.check request)) {revision : Nat}
    (hrevision : request.revision = some revision) : revision ≤ maxRevision := by
  unfold ofData? at h
  split at h
  · split at h <;> simp at h
  · simp only [Option.bind_eq_bind, Option.bind_eq_some_iff, Option.some.injEq,
      ToolCall.check.injEq] at h
    obtain ⟨_, -, _, -, _, -, _, -, _, -, number, hnumber, _, -, rfl⟩ := h
    obtain rfl : number = some revision := hrevision
    obtain ⟨d, hd⟩ := exists_of_argument? hnumber
    exact Data.le_of_asNat64? hd
  · simp [Option.bind_eq_some_iff] at h
  · simp [Option.bind_eq_some_iff] at h
  · simp at h

namespace Server

variable {server : Server}

theorem answer_check_of_exceeded [Check.PatternEngine] {request : CheckRequest} {limit : Nat}
    (h : server.exceeded? request.text.utf8ByteSize = some limit) :
    server.answer (.check request) =
      (.error (.tooLarge request.text.utf8ByteSize limit), server) := by
  simp only [answer, h]

theorem answer_check [Check.PatternEngine] {request : CheckRequest}
    (h : server.exceeded? request.text.utf8ByteSize = none) :
    server.answer (.check request) =
      (.ok (server.checkDocument request).1, (server.checkDocument request).2) := by
  simp only [answer, h]

theorem checkDocument_of_enabled [Check.PatternEngine]
    (h : server.settings.validationEnabled = true) (request : CheckRequest) :
    server.checkDocument request =
      (.checked request.uri (server.revisionOf request).1
        (some ((server.revisionOf request).2.publish request.uri (server.revisionOf request).1
          (server.reportOn request request.text).diagnostics).1)
        (server.reportOn request request.text),
      { server with
        store := ((server.revisionOf request).2.publish request.uri (server.revisionOf request).1
          (server.reportOn request request.text).diagnostics).2 }) := by
  simp only [checkDocument, h, if_true]

theorem checkDocument_of_disabled [Check.PatternEngine]
    (h : server.settings.validationEnabled = false) (request : CheckRequest) :
    server.checkDocument request =
      (.checked request.uri (server.revisionOf request).1 none (server.reportOn request ""),
      { server with store := (server.revisionOf request).2.clear }) := by
  simp only [checkDocument, h, Bool.false_eq_true, if_false]

/-- Nothing was cleared, and no text was checked. -/
structure Exchange.IsQuiet (e : Exchange) : Prop where
  not_clear : ∀ uri, e.call ≠ some (.clear uri)
  not_checked : ∀ uri revision publication report,
    e.reply ≠ .ok (.checked uri revision publication report)

/-- What a call can lead to: what was exchanged, and the server afterwards. -/
inductive Handled [Check.PatternEngine] (server : Server) : Exchange → Server → Prop where
  /-- The call was refused, or only asked for something. -/
  | unchanged {e : Exchange} : e.IsQuiet → Handled server e server
  /-- A text was checked. -/
  | checked {request : CheckRequest} :
      server.exceeded? request.text.utf8ByteSize = none →
      (∀ revision, request.revision = some revision → revision ≤ maxRevision) →
      Handled server ⟨some (.check request), .ok (server.checkDocument request).1⟩
        (server.checkDocument request).2
  /-- One document was cleared. -/
  | removed {uri : String} {count : Nat} :
      Handled server ⟨some (.clear (some uri)), .ok (.cleared count)⟩
        { server with store := (server.store.remove uri).2 }
  /-- All documents were cleared. -/
  | cleared {count : Nat} :
      Handled server ⟨some (.clear none), .ok (.cleared count)⟩
        { server with store := server.store.clear }

theorem receive_handled [Check.PatternEngine] (server : Server) (tool : String) (arguments : Data) :
    Handled server ⟨ToolCall.ofData? tool arguments, (server.receive tool arguments).1⟩
      (server.receive tool arguments).2 := by
  rw [receive]
  cases hcall : ToolCall.ofData? tool arguments with
  | none => exact .unchanged ⟨by simp, by simp⟩
  | some call =>
      cases call with
      | info format => exact .unchanged ⟨by simp, by simp [answer]⟩
      | check request =>
          cases hsize : server.exceeded? request.text.utf8ByteSize with
          | some limit =>
              simp only [answer_check_of_exceeded hsize]
              exact .unchanged ⟨by simp, by simp⟩
          | none =>
              simp only [answer_check hsize]
              exact .checked hsize fun _ hrevision =>
                ToolCall.revision_le_of_ofData? hcall hrevision
      | diagnostics uri => exact .unchanged ⟨by simp, by simp [answer]⟩
      | clear uri =>
          cases uri with
          | none => exact .cleared
          | some uri => exact .removed

/-- A call changes the store, and nothing else of the server. -/
theorem Handled.eq_with_store [Check.PatternEngine] {e : Exchange} {server' : Server}
    (h : Handled server e server') : server' = { server with store := server'.store } := by
  cases h with
  | unchanged _ => rfl
  | checked _ _ =>
      cases henabled : server.settings.validationEnabled with
      | true => rw [checkDocument_of_enabled henabled]
      | false => rw [checkDocument_of_disabled henabled]
  | removed => rfl
  | cleared => rfl

theorem converse_eq_with_store [Check.PatternEngine] (server : Server)
    (calls : List (String × Data)) :
    (server.converse calls).2 = { server with store := (server.converse calls).2.store } := by
  refine converse_induction (P := fun s => s = { server with store := s.store }) rfl ?_ calls
  intro s tool arguments hs
  have hstep := (receive_handled s tool arguments).eq_with_store
  generalize (s.receive tool arguments).2 = next at hstep ⊢
  rw [hstep, hs]

end Server

/-! ### The server as a caller of its store -/

namespace Store.Shared

/-- A store that nobody is about to publish to. -/
def quiet (store : Store) : Shared :=
  ⟨store, fun _ => none⟩

theorem Run.append {s t u : Shared} {es es' : List (Caller × Action)} (h : Run s es t)
    (h' : Run t es' u) : Run s (es ++ es') u := by
  induction h with
  | nil => exact h'
  | cons hstep _ ih => exact .cons hstep (ih h')

/-- A caller that publishes at once notes the revision and replaces what stands. -/
theorem run_publish (store : Store) (id : String) {revision : Nat} (h : revision ≤ maxRevision)
    (diagnostics : List Diagnostic) :
    Run (quiet store) [(0, .note id (.ofNat revision) diagnostics), (0, .replace)]
      (quiet (store.publish id revision diagnostics).2) := by
  have hnat : (UInt64.ofNat revision).toNat = revision :=
    UInt64.toNat_ofNat_of_lt (Nat.lt_of_le_of_lt h (by decide))
  have hnote : Step (quiet store) (0, .note id (.ofNat revision) diagnostics)
      ⟨store.note id revision,
        setHalfway (fun _ => none) 0 (some (id, ⟨revision, diagnostics⟩))⟩ := by
    have hstep : Step (quiet store) (0, .note id (.ofNat revision) diagnostics) _ := .note rfl
    rwa [hnat] at hstep
  have hquiet : setHalfway (setHalfway (fun _ => none) 0 (some (id, ⟨revision, diagnostics⟩))) 0
      none = fun _ => none := by
    funext caller
    simp only [setHalfway]
    split <;> rfl
  have hreplace := Step.replace (s := ⟨store.note id revision,
    setHalfway (fun _ => none) 0 (some (id, ⟨revision, diagnostics⟩))⟩) (if_pos rfl)
  rw [hquiet] at hreplace
  exact .cons hnote (.cons hreplace (.nil _))

end Store.Shared

namespace Server

open Store

variable {server : Server} {settings : Settings}

/-- Finding the revision of a text takes at most one step: the next one is taken. -/
theorem revisionOf_run (server : Server) {request : CheckRequest}
    (h : ∀ revision, request.revision = some revision → revision ≤ maxRevision) :
    (server.revisionOf request).1 ≤ maxRevision ∧
      ∃ es, Shared.Run (.quiet server.store) es (.quiet (server.revisionOf request).2) := by
  unfold revisionOf
  split
  · rename_i revision hrevision
    exact ⟨h revision hrevision, [], .nil _⟩
  · refine ⟨?_, [(0, .next request.uri)], .cons (.next rfl) (.nil _)⟩
    rw [nextRevision_fst]
    exact Nat.min_le_right _ _

/-- Whatever a server is asked, it uses its store as a caller does. -/
theorem Handled.run [Check.PatternEngine] {e : Exchange} {server' : Server}
    (h : Handled server e server') :
    ∃ es, Shared.Run (.quiet server.store) es (.quiet server'.store) := by
  cases h with
  | unchanged _ => exact ⟨[], .nil _⟩
  | checked _ hbound =>
      obtain ⟨hle, es, hrun⟩ := revisionOf_run server hbound
      cases henabled : server.settings.validationEnabled with
      | true =>
          rw [checkDocument_of_enabled henabled]
          exact ⟨_, hrun.append (Shared.run_publish _ _ hle _)⟩
      | false =>
          rw [checkDocument_of_disabled henabled]
          exact ⟨es ++ [(0, .clear)], hrun.append (.cons (.clear rfl) (.nil _))⟩
  | @removed uri _ => exact ⟨[(0, .remove uri)], .cons (.remove rfl) (.nil _)⟩
  | cleared => exact ⟨[(0, .clear)], .cons (.clear rfl) (.nil _)⟩

/-! ### Checks without a revision -/

theorem start_eq_ok (h : start settings = .ok server) :
    server.settings = settings ∧ server.store = .empty := by
  unfold start at h
  cases hrun : settings.runSettings with
  | error e =>
      rw [hrun] at h
      cases h
  | ok run =>
      rw [hrun] at h
      cases h
      exact ⟨rfl, rfl⟩

theorem converse_settings [Check.PatternEngine] (h : start settings = .ok server)
    (calls : List (String × Data)) :
    (server.converse calls).2.settings = settings :=
  (congrArg Server.settings (server.converse_eq_with_store calls)).trans (start_eq_ok h).1

/-- In a conversation with a new server every revision that stands was counted. -/
theorem converse_sound [Check.PatternEngine] (h : start settings = .ok server)
    (calls : List (String × Data)) :
    (Shared.quiet (server.converse calls).2.store).Sound := by
  refine converse_induction (P := fun s => (Shared.quiet s.store).Sound) ?_ ?_ calls
  · rw [(start_eq_ok h).2]
    exact Shared.start_sound
  · intro s tool arguments hs
    obtain ⟨_, hrun⟩ := (receive_handled s tool arguments).run
    exact hrun.sound hs

/-- The next revision is not older than what stands, even if the counter cannot go
on. -/
theorem publish_nextRevision {store : Store} (h : (Shared.quiet store).Sound) (id : String)
    (diagnostics : List Diagnostic) :
    ((store.nextRevision id).2.publish id (store.nextRevision id).1 diagnostics).1 = .applied := by
  rcases replace_cases ((store.nextRevision id).2.note id (store.nextRevision id).1) id
    ⟨(store.nextRevision id).1, diagnostics⟩ with ⟨current, hget, hlt, -⟩ | ⟨-, hr⟩
  -- What stands is at most the counter, and this is at most the greatest revision.
  · have hle : current.revision ≤ store.lastIssued id := h.published_le id current hget
    have hmax : store.lastIssued id ≤ maxRevision := h.issued_le id
    simp only [nextRevision_fst] at hlt
    omega
  · rw [publish, hr]

/-- Whatever a client has called before, a text that is not too long and that it sends
without a revision is published, and is what it gets when it asks for the diagnostics
next. -/
theorem check_without_revision_stands [Check.PatternEngine] (hstart : start settings = .ok server)
    (henabled : settings.validationEnabled = true) (calls : List (String × Data))
    {request : CheckRequest} (hrevision : request.revision = none)
    (hsize : ∀ limit, settings.inputLimit = some limit → request.text.utf8ByteSize ≤ limit) :
    ∃ revision report server',
      (server.converse calls).2.answer (.check request) =
        (.ok (.checked request.uri revision (some .applied) report), server') ∧
      server'.answer (.diagnostics request.uri) =
        (.ok (.diagnostics request.uri (some ⟨revision, report.diagnostics⟩)), server') := by
  have hsettings := converse_settings hstart calls
  have hsound := converse_sound hstart calls
  generalize (server.converse calls).2 = current at hsettings hsound
  subst hsettings
  have hfits : current.exceeded? request.text.utf8ByteSize = none := by
    simp only [exceeded?, Option.filter_eq_none_iff, decide_eq_true_eq, Nat.not_lt]
    exact hsize
  have hnumber : current.revisionOf request = current.store.nextRevision request.uri := by
    simp only [revisionOf, hrevision]
  have happlied := publish_nextRevision hsound request.uri
    (current.reportOn request request.text).diagnostics
  rw [answer_check hfits, checkDocument_of_enabled henabled, hnumber, happlied]
  refine ⟨_, _, _, rfl, ?_⟩
  rw [answer, publish, get?_replace, ← publish, happlied, if_pos ⟨rfl, rfl⟩]

/-- A client that has used the greatest revision sends a text without one. -/
theorem check_after_greatest_revision_stands :
    ∃ server, start {} = .ok server ∧ ∃ revision report server',
      (server.converse [("check_document", .map [("uri", .str "a"), ("text", .str "x"),
          ("revision", .int 18446744073709551615)])]).2.answer
        (.check { uri := "a", text := "int" }) =
        (.ok (.checked "a" revision (some .applied) report), server') ∧
      server'.answer (.diagnostics "a") =
        (.ok (.diagnostics "a" (some ⟨revision, report.diagnostics⟩)), server') := by
  have hstart : start {} = .ok ⟨{}, {}, .empty⟩ := rfl
  refine ⟨_, hstart, check_without_revision_stands hstart rfl _ rfl ?_⟩
  intro limit hlimit
  obtain rfl : Settings.defaultInputLimit = limit := Option.some.inj hlimit
  decide

end Server

end TradeScript
