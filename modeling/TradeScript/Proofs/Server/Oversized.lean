import TradeScript.Proofs.Server.Conversation

/-!
# TradeScript.Proofs.Server.Oversized

A text that is longer than the limit leaves no trace. To check a text, a server takes
a revision from the store, and then publishes what it finds, or clears the store where
nothing is checked. None of this happens before the length of the text is known to be
allowed.

Seen from a client: wherever in a conversation such a call is made, all other calls
are answered as in the conversation without it (`Oversized.converse_eq`). The limit is
part of the settings, which no call changes, so the calls before do not matter
(`converse_eq_with_store`). A session writes the same answers as messages
(`Oversized.run_eq`).
-/

namespace TradeScript

namespace Server

variable {server : Server} {settings : Settings} {tool : String} {arguments : Data}
  {request : CheckRequest} {limit : Nat}

/-- The call asks to check a text that has more bytes than the settings allow. -/
structure Oversized (settings : Settings) (tool : String) (arguments : Data)
    (request : CheckRequest) (limit : Nat) : Prop where
  reads : ToolCall.ofData? tool arguments = some (.check request)
  limited : settings.inputLimit = some limit
  longer : limit < request.text.utf8ByteSize

/-! ### Conversations -/

theorem converse_append [Check.PatternEngine] (server : Server)
    (before after : List (String × Data)) :
    server.converse (before ++ after) =
      ((server.converse before).1 ++ ((server.converse before).2.converse after).1,
        ((server.converse before).2.converse after).2) := by
  induction before generalizing server with
  | nil => rfl
  | cons call before ih =>
      obtain ⟨tool, arguments⟩ := call
      simp only [List.cons_append, converse, ih]

theorem length_converse [Check.PatternEngine] (server : Server) (calls : List (String × Data)) :
    (server.converse calls).1.length = calls.length := by
  induction calls generalizing server with
  | nil => rfl
  | cons call calls ih =>
      obtain ⟨tool, arguments⟩ := call
      simp only [converse, List.length_cons, ih]

/-- The call is refused, and the server is what it was. -/
theorem Oversized.receive_eq [Check.PatternEngine]
    (h : Oversized server.settings tool arguments request limit) :
    server.receive tool arguments =
      (.error (.tooLarge request.text.utf8ByteSize limit), server) := by
  have hexceeded : server.exceeded? request.text.utf8ByteSize = some limit := by
    simp only [exceeded?, h.limited, Option.filter_some, h.longer, decide_true, if_true]
  rw [receive, h.reads]
  exact answer_check_of_exceeded hexceeded

/-- Wherever the call is made, it adds its refusal to what is exchanged, and nothing
else. -/
theorem Oversized.converse_eq [Check.PatternEngine]
    (h : Oversized server.settings tool arguments request limit)
    (before after : List (String × Data)) :
    ∃ earlier later last, earlier.length = before.length ∧
      server.converse (before ++ after) = (earlier ++ later, last) ∧
      server.converse (before ++ (tool, arguments) :: after) =
        (earlier ++ ⟨some (.check request), .error (.tooLarge request.text.utf8ByteSize limit)⟩ ::
          later, last) := by
  have hlater : Oversized (server.converse before).2.settings tool arguments request limit := by
    rw [converse_eq_with_store]
    exact h
  refine ⟨_, _, _, length_converse server before, converse_append server before after, ?_⟩
  rw [converse_append, converse, hlater.receive_eq, h.reads]

/-! ### Sessions -/

/-- In a session the refusal is one message more, and nothing else. -/
theorem Oversized.run_eq [Check.PatternEngine] {id params : Data} {line : String}
    (h : Oversized server.settings (Session.toolName params) (Session.toolArguments params)
      request limit)
    (hline : Message.ofLine? line = some (.request id "tools/call" params))
    (lines : List String) :
    Session.run ⟨.ready, server⟩ (line :: lines) =
      ((Session.run ⟨.ready, server⟩ lines).1,
        Session.errorAnswer id Session.badParams
            (Refusal.tooLarge request.text.utf8ByteSize limit).message ::
          (Session.run ⟨.ready, server⟩ lines).2) := by
  have hstep : Session.step ⟨.ready, server⟩ line =
      some (⟨.ready, server⟩, [Session.errorAnswer id Session.badParams
        (Refusal.tooLarge request.text.utf8ByteSize limit).message]) := by
    simp only [Session.step, hline, Session.respond, Session.callTool_eq, h.receive_eq,
      Session.toolAnswer]
  simp only [Session.run, hstep, List.singleton_append]

/-- A check of a text with more bytes than the limit is refused, and the server stays
exactly as it was, whether it checks documents or not. So the call can be left out of
every conversation: the calls before and after it get the same answers, and the server
ends up the same. The same holds of the messages of a session. -/
theorem oversized_check_leaves_no_trace [Check.PatternEngine] (server : Server)
    (h : Oversized server.settings tool arguments request limit) :
    server.receive tool arguments =
        (.error (.tooLarge request.text.utf8ByteSize limit), server) ∧
      (∀ before after : List (String × Data), ∃ earlier later last,
        earlier.length = before.length ∧
        server.converse (before ++ after) = (earlier ++ later, last) ∧
        server.converse (before ++ (tool, arguments) :: after) =
          (earlier ++
            ⟨some (.check request), .error (.tooLarge request.text.utf8ByteSize limit)⟩ :: later,
            last)) ∧
      ∀ (line : String) (id params : Data),
        Message.ofLine? line = some (.request id "tools/call" params) →
        Session.toolName params = tool → Session.toolArguments params = arguments →
        ∀ lines : List String,
          Session.run ⟨.ready, server⟩ (line :: lines) =
            ((Session.run ⟨.ready, server⟩ lines).1,
              Session.errorAnswer id Session.badParams
                  (Refusal.tooLarge request.text.utf8ByteSize limit).message ::
                (Session.run ⟨.ready, server⟩ lines).2) := by
  refine ⟨h.receive_eq, h.converse_eq, ?_⟩
  intro line id params hline htool harguments lines
  subst htool harguments
  exact h.run_eq hline lines

/-- A server that checks nothing would clear its store, and a text of one character
has two bytes. The text is refused, the document that stood before still stands, and the
next revision is the one after it. -/
theorem oversized_check_keeps_document :
    let server : Server := ⟨{ validationEnabled := false, maxInputBytes := some 1 }, {},
      (Store.empty.publish "a" 7 []).2⟩
    let arguments : Data := .map [("uri", .str "a"), ("text", .str "é")]
    Oversized server.settings "check_document" arguments { uri := "a", text := "é" } 1 ∧
      (∃ last, server.converse [("check_document", arguments),
          ("get_diagnostics", .map [("uri", .str "a")])] =
        ([⟨some (.check { uri := "a", text := "é" }), .error (.tooLarge 2 1)⟩,
          ⟨some (.diagnostics "a"), .ok (.diagnostics "a" (some ⟨7, []⟩))⟩], last) ∧
        (last.store.nextRevision "a").1 = 8) ∧
      ∀ line id, Message.ofLine? line = some (.request id "tools/call"
          (.map [("name", .str "check_document"), ("arguments", arguments)])) →
        Session.run ⟨.ready, server⟩ [line] =
          (.ready, [Session.errorAnswer id Session.badParams
            "input too large: 2 bytes (limit: 1 bytes)"]) := by
  intro server arguments
  have h : Oversized server.settings "check_document" arguments { uri := "a", text := "é" } 1 :=
    ⟨rfl, rfl, by decide⟩
  obtain ⟨-, hconverse, hrun⟩ := oversized_check_leaves_no_trace server h
  refine ⟨h, ?_, ?_⟩
  · obtain ⟨earlier, later, last, hlength, hwithout, hwith⟩ :=
      hconverse [] [("get_diagnostics", .map [("uri", .str "a")])]
    obtain rfl := List.eq_nil_of_length_eq_zero hlength
    obtain ⟨rfl, rfl⟩ := Prod.mk.inj hwithout
    exact ⟨_, hwith, rfl⟩
  · intro line id hline
    exact hrun line id _ hline rfl rfl []

end Server

end TradeScript
