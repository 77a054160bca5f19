import Mathlib.Data.List.DropRight
import TradeScript.Proofs.Server.Conversation

/-!
# TradeScript.Proofs.Server.History

What a client knows from the replies it got. What is published for a document is
what the client was last told to be applied, since it had the document cleared,
and this is the newest of all the revisions that were checked since then
(`Reflects`). So the reply to a question for the diagnostics follows from the
history alone, whatever was called: with or without revisions, of which some come
too late or twice, for any documents, and with calls that are refused.

Every exchange has one of four effects on a document (`Effect`); the history
follows each of them.
-/

namespace TradeScript.Server

/-! ### Reading a history -/

namespace Exchange

/-- Did the client have the document cleared, alone or with all others? -/
def clears (uri : String) : Exchange → Bool
  | ⟨some (.clear (some uri')), _⟩ => uri' == uri
  | ⟨some (.clear none), _⟩ => true
  | _ => false

/-- The revision of the document that was checked. -/
def checked? (uri : String) : Exchange → Option Nat
  | ⟨_, .ok (.checked uri' revision _ _)⟩ => if uri' = uri then some revision else none
  | _ => none

/-- What the client was told to be published for the document from now on. -/
def applied? (uri : String) : Exchange → Option Published
  | ⟨_, .ok (.checked uri' revision (some .applied) report)⟩ =>
      if uri' = uri then some ⟨revision, report.diagnostics⟩ else none
  | _ => none

theorem IsQuiet.clears_eq {e : Exchange} (h : e.IsQuiet) (uri : String) :
    e.clears uri = false := by
  unfold clears
  split
  · exact (h.not_clear _ rfl).elim
  · exact (h.not_clear _ rfl).elim
  · rfl

theorem IsQuiet.checked?_eq {e : Exchange} (h : e.IsQuiet) (uri : String) :
    e.checked? uri = none := by
  unfold checked?
  split
  · exact (h.not_checked _ _ _ _ rfl).elim
  · rfl

theorem IsQuiet.applied?_eq {e : Exchange} (h : e.IsQuiet) (uri : String) :
    e.applied? uri = none := by
  unfold applied?
  split
  · exact (h.not_checked _ _ _ _ rfl).elim
  · rfl

end Exchange

/-- The exchanges after the one that cleared the document last. -/
def sinceClear (uri : String) (history : List Exchange) : List Exchange :=
  history.rtakeWhile fun e => !e.clears uri

/-- What the client was told last to be published. -/
def latestApplied? (uri : String) (history : List Exchange) : Option Published :=
  ((sinceClear uri history).filterMap (Exchange.applied? uri)).getLast?

/-- The revisions of the document that were checked, whatever became of them. -/
def checkedRevisions (uri : String) (history : List Exchange) : List Nat :=
  (sinceClear uri history).filterMap (Exchange.checked? uri)

variable {uri : String} {history : List Exchange} {e : Exchange}

theorem sinceClear_concat_of_clears (h : e.clears uri = true) :
    sinceClear uri (history ++ [e]) = [] := by
  rw [sinceClear, List.rtakeWhile_concat, if_neg (by simp [h])]

theorem sinceClear_concat (h : e.clears uri = false) :
    sinceClear uri (history ++ [e]) = sinceClear uri history ++ [e] := by
  rw [sinceClear, List.rtakeWhile_concat, if_pos (by simp [h]), sinceClear]

theorem latestApplied?_concat (h : e.clears uri = false) :
    latestApplied? uri (history ++ [e]) = (e.applied? uri).or (latestApplied? uri history) := by
  rw [latestApplied?, sinceClear_concat h, List.filterMap_append, List.getLast?_append,
    ← latestApplied?]
  cases happlied : e.applied? uri <;> simp [happlied]

theorem checkedRevisions_concat (h : e.clears uri = false) :
    checkedRevisions uri (history ++ [e]) =
      checkedRevisions uri history ++ (e.checked? uri).toList := by
  rw [checkedRevisions, sinceClear_concat h, List.filterMap_append, ← checkedRevisions]
  cases hchecked : e.checked? uri <;> simp [hchecked]

/-! ### One exchange -/

/-- What an exchange can do to what is published for a document. -/
inductive Effect (uri : String) (e : Exchange) : Option Published → Option Published → Prop where
  /-- The document was cleared. -/
  | cleared {before : Option Published} : e.clears uri = true → Effect uri e before none
  /-- The exchange was not about the document, or changed nothing. -/
  | kept {before : Option Published} :
      e.clears uri = false → e.checked? uri = none → e.applied? uri = none →
      Effect uri e before before
  /-- The document was checked, and nothing newer stood. -/
  | applied {before : Option Published} {p : Published} :
      e.clears uri = false → e.checked? uri = some p.revision → e.applied? uri = some p →
      (∀ current, before = some current → current.revision ≤ p.revision) →
      Effect uri e before (some p)
  /-- The document was checked, and something newer stands. -/
  | stale {current : Published} {revision : Nat} :
      e.clears uri = false → e.checked? uri = some revision → e.applied? uri = none →
      revision < current.revision → Effect uri e (some current) (some current)

variable {server : Server}

theorem get?_revisionOf (server : Server) (request : CheckRequest) (uri : String) :
    (server.revisionOf request).2.get? uri = server.store.get? uri := by
  unfold revisionOf
  split <;> rfl

theorem checkDocument_effect [Check.PatternEngine]
    (henabled : server.settings.validationEnabled = true) (request : CheckRequest) (uri : String) :
    Effect uri ⟨some (.check request), .ok (server.checkDocument request).1⟩
      (server.store.get? uri) ((server.checkDocument request).2.store.get? uri) := by
  rw [checkDocument_of_enabled henabled, ← get?_revisionOf server request]
  generalize (server.revisionOf request).2 = store
  generalize (server.revisionOf request).1 = revision
  generalize server.reportOn request request.text = report
  by_cases huri : request.uri = uri
  · subst huri
    rw [Store.publish]
    rcases Store.replace_cases (store.note request.uri revision) request.uri
      ⟨revision, report.diagnostics⟩ with ⟨current, hget, hlt, hr⟩ | ⟨hle, hr⟩
    · rw [hr]
      have hstands : store.get? request.uri = some current := hget
      simp only [Store.get?_note, hstands]
      exact .stale rfl (if_pos rfl) rfl hlt
    · rw [hr]
      simp only [Store.get?_insert_documents, if_true]
      exact .applied rfl (if_pos rfl) (if_pos rfl) hle
  · have hget : (store.publish request.uri revision report.diagnostics).2.get? uri =
        store.get? uri := by
      rw [Store.publish, Store.get?_replace, if_neg fun h => huri h.1, Store.get?_note]
    simp only [hget]
    refine .kept rfl (if_neg huri) ?_
    cases (store.publish request.uri revision report.diagnostics).1 with
    | applied => exact if_neg huri
    | stale current => rfl

theorem Handled.effect [Check.PatternEngine] {server' : Server}
    (henabled : server.settings.validationEnabled = true)
    (h : Handled server e server') (uri : String) :
    Effect uri e (server.store.get? uri) (server'.store.get? uri) := by
  cases h with
  | unchanged hquiet =>
      exact .kept (hquiet.clears_eq uri) (hquiet.checked?_eq uri) (hquiet.applied?_eq uri)
  | checked _ _ => exact checkDocument_effect henabled _ uri
  | @removed uri' _ =>
      rw [Store.get?_remove]
      by_cases huri : uri' = uri
      · rw [if_pos huri]
        exact .cleared (beq_iff_eq.mpr huri)
      · rw [if_neg huri]
        exact .kept (beq_eq_false_iff_ne.mpr huri) rfl rfl
  | cleared => exact .cleared rfl

/-! ### Histories -/

/-- What is published is what the client was last told to be applied, and the newest
that was checked. -/
structure Reflects (uri : String) (history : List Exchange) (entry : Option Published) : Prop where
  latest : entry = latestApplied? uri history
  newest : entry.map Published.revision = (checkedRevisions uri history).max?

theorem max?_concat_of_le {numbers : List Nat} {n : Nat}
    (h : ∀ m, numbers.max? = some m → m ≤ n) : (numbers ++ [n]).max? = some n := by
  refine List.max?_eq_some_iff.mpr ⟨by simp, ?_⟩
  intro b hb
  rcases List.mem_append.mp hb with hb | hb
  · cases hmax : numbers.max? with
    | none => simp [List.max?_eq_none_iff.mp hmax] at hb
    | some m => exact Nat.le_trans ((List.max?_eq_some_iff.mp hmax).2 b hb) (h m hmax)
  · exact Nat.le_of_eq (List.mem_singleton.mp hb)

theorem max?_concat_of_lt {numbers : List Nat} {m n : Nat} (h : numbers.max? = some m)
    (hlt : n < m) : (numbers ++ [n]).max? = some m := by
  obtain ⟨hmem, hle⟩ := List.max?_eq_some_iff.mp h
  refine List.max?_eq_some_iff.mpr ⟨List.mem_append_left _ hmem, ?_⟩
  intro b hb
  rcases List.mem_append.mp hb with hb | hb
  · exact hle b hb
  · rw [List.mem_singleton.mp hb]
    exact Nat.le_of_lt hlt

/-- The history follows what an exchange does. -/
theorem Effect.reflects {before after : Option Published} (heffect : Effect uri e before after)
    (h : Reflects uri history before) : Reflects uri (history ++ [e]) after := by
  cases heffect with
  | cleared hclears =>
      constructor
      · rw [latestApplied?, sinceClear_concat_of_clears hclears]
        rfl
      · rw [checkedRevisions, sinceClear_concat_of_clears hclears]
        rfl
  | kept hclears hchecked happlied =>
      constructor
      · rw [latestApplied?_concat hclears, happlied, Option.none_or]
        exact h.latest
      · rw [checkedRevisions_concat hclears, hchecked, Option.toList_none, List.append_nil]
        exact h.newest
  | applied hclears hchecked happlied hle =>
      constructor
      · rw [latestApplied?_concat hclears, happlied, Option.some_or]
      · rw [checkedRevisions_concat hclears, hchecked]
        refine Eq.symm (max?_concat_of_le fun m hm => ?_)
        obtain ⟨current, hcurrent, rfl⟩ := Option.map_eq_some_iff.mp (h.newest.trans hm)
        exact hle current hcurrent
  | stale hclears hchecked happlied hlt =>
      constructor
      · rw [latestApplied?_concat hclears, happlied, Option.none_or]
        exact h.latest
      · rw [checkedRevisions_concat hclears, hchecked]
        exact (max?_concat_of_lt h.newest.symm hlt).symm

theorem converse_reflects [Check.PatternEngine]
    (henabled : server.settings.validationEnabled = true)
    (h : Reflects uri history (server.store.get? uri)) (calls : List (String × Data)) :
    Reflects uri (history ++ (server.converse calls).1)
      ((server.converse calls).2.store.get? uri) := by
  -- The calls are taken from the front, while the history grows at its end.
  induction calls generalizing server history with
  | nil =>
      rw [converse, List.append_nil]
      exact h
  | cons call calls ih =>
      obtain ⟨tool, arguments⟩ := call
      have hhandled := receive_handled server tool arguments
      have hnext := (hhandled.effect henabled uri).reflects h
      have henabled' : (server.receive tool arguments).2.settings.validationEnabled = true := by
        rw [hhandled.eq_with_store]
        exact henabled
      have hrest := ih henabled' hnext
      rw [List.append_assoc] at hrest
      exact hrest

/-- A server that checks nothing publishes nothing. -/
theorem Handled.get?_of_disabled [Check.PatternEngine] {server' : Server}
    (hdisabled : server.settings.validationEnabled = false) (h : Handled server e server')
    (hnone : ∀ uri, server.store.get? uri = none) (uri : String) :
    server'.store.get? uri = none := by
  cases h with
  | unchanged _ => exact hnone uri
  | checked _ _ =>
      rw [checkDocument_of_disabled hdisabled]
      rfl
  | removed => rw [Store.get?_remove, hnone, ite_self]
  | cleared => rfl

theorem converse_get?_of_disabled [Check.PatternEngine] {settings : Settings}
    (hstart : start settings = .ok server) (hdisabled : settings.validationEnabled = false)
    (calls : List (String × Data)) (uri : String) :
    (server.converse calls).2.store.get? uri = none := by
  obtain ⟨rfl, hempty⟩ := start_eq_ok hstart
  refine (converse_induction (P := fun s => s.settings = server.settings ∧
    ∀ uri, s.store.get? uri = none) ⟨rfl, fun uri => by rw [hempty]; rfl⟩ ?_ calls).2 uri
  rintro s tool arguments ⟨hsettings, hnone⟩
  have hhandled := receive_handled s tool arguments
  exact ⟨(congrArg Server.settings hhandled.eq_with_store).trans hsettings,
    hhandled.get?_of_disabled (hsettings ▸ hdisabled) hnone⟩

/-- In every conversation with a new server, a client that asks for the diagnostics of
a document gets the revision and the diagnostics that it was last told to be applied
since it had the document cleared, and this is the newest revision of the document
that was checked since then. From a server that checks nothing it gets nothing. -/
theorem diagnostics_reply_follows_history [Check.PatternEngine] {settings : Settings}
    {calls : List (String × Data)} {before after : List Exchange} {reply : Except Refusal Reply}
    (hstart : start settings = .ok server)
    (h : (server.converse calls).1 = before ++ ⟨some (.diagnostics uri), reply⟩ :: after) :
    (settings.validationEnabled = true →
      reply = .ok (.diagnostics uri (latestApplied? uri before)) ∧
        (latestApplied? uri before).map Published.revision =
          (checkedRevisions uri before).max?) ∧
    (settings.validationEnabled = false → reply = .ok (.diagnostics uri none)) := by
  obtain ⟨calls', tool, arguments, rfl, he⟩ := exists_converse h
  obtain ⟨hcall, rfl⟩ := Exchange.mk.inj he
  have hreply : ((server.converse calls').2.receive tool arguments).1 =
      .ok (.diagnostics uri ((server.converse calls').2.store.get? uri)) := by
    rw [receive, ← hcall]
    rfl
  rw [hreply]
  constructor
  · intro henabled
    obtain ⟨rfl, hempty⟩ := start_eq_ok hstart
    have hnothing : Reflects uri [] (server.store.get? uri) := by
      rw [hempty]
      exact ⟨rfl, rfl⟩
    have hreflects := converse_reflects henabled hnothing calls'
    rw [List.nil_append] at hreflects
    rw [← hreflects.latest]
    exact ⟨rfl, hreflects.newest⟩
  · intro hdisabled
    rw [converse_get?_of_disabled hstart hdisabled]

/-- A client checks revision 7 of a document, then an older one that comes too late and
another document, and asks for the diagnostics; and the same of a server that checks
nothing. -/
theorem diagnostics_reply_after_stale_check :
    (∃ server before reply, start {} = .ok server ∧
      (server.converse
        [("check_document", .map [("uri", .str "a"), ("text", .str "x"), ("revision", .int 7)]),
          ("check_document", .map [("uri", .str "a"), ("text", .str ""), ("revision", .int 5)]),
          ("check_document", .map [("uri", .str "b"), ("text", .str ""), ("revision", .int 9)]),
          ("get_diagnostics", .map [("uri", .str "a")])]).1 =
        before ++ [⟨some (.diagnostics "a"), reply⟩] ∧
      reply = .ok (.diagnostics "a" (latestApplied? "a" before)) ∧
      checkedRevisions "a" before = [7, 5] ∧
      (latestApplied? "a" before).map Published.revision = some 7) ∧
    ∃ server before reply, start { validationEnabled := false } = .ok server ∧
      (server.converse
        [("check_document", .map [("uri", .str "a"), ("text", .str "x"), ("revision", .int 7)]),
          ("get_diagnostics", .map [("uri", .str "a")])]).1 =
        before ++ [⟨some (.diagnostics "a"), reply⟩] ∧
      reply = .ok (.diagnostics "a" none) := by
  constructor
  · have hstart : start {} = .ok ⟨{}, {}, .empty⟩ := rfl
    obtain ⟨before, reply, hsplit, hrevisions⟩ : ∃ before reply, (converse ⟨{}, {}, .empty⟩
        [("check_document", .map [("uri", .str "a"), ("text", .str "x"), ("revision", .int 7)]),
          ("check_document", .map [("uri", .str "a"), ("text", .str ""), ("revision", .int 5)]),
          ("check_document", .map [("uri", .str "b"), ("text", .str ""), ("revision", .int 9)]),
          ("get_diagnostics", .map [("uri", .str "a")])]).1 =
          before ++ [⟨some (.diagnostics "a"), reply⟩] ∧ checkedRevisions "a" before = [7, 5] :=
      ⟨[_, _, _], _, rfl, rfl⟩
    obtain ⟨hreply, hnewest⟩ := (diagnostics_reply_follows_history hstart hsplit).1 rfl
    rw [hrevisions] at hnewest
    exact ⟨_, before, reply, hstart, hsplit, hreply, hrevisions, hnewest⟩
  · have hstart : start { validationEnabled := false } =
        .ok ⟨{ validationEnabled := false }, {}, .empty⟩ := rfl
    obtain ⟨before, reply, hsplit⟩ : ∃ before reply,
        (converse ⟨{ validationEnabled := false }, {}, .empty⟩
          [("check_document", .map [("uri", .str "a"), ("text", .str "x"), ("revision", .int 7)]),
            ("get_diagnostics", .map [("uri", .str "a")])]).1 =
          before ++ [⟨some (.diagnostics "a"), reply⟩] :=
      ⟨[_], _, rfl⟩
    have hreply := (diagnostics_reply_follows_history hstart hsplit).2 rfl
    exact ⟨_, before, reply, hstart, hsplit, hreply⟩

end TradeScript.Server
