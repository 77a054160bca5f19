import TradeScript.Proofs.Store.Interleaving

/-!
# TradeScript.Proofs.Store.Overlap

Checks of one document that overlap. Each of them takes its revision when it
starts and publishes what it found some time later, in two steps: its revision is
noted, then it replaces what stands. The steps of the checks come in any order,
and in between the store is used for other documents (`Overlap.Step`).

The revisions are handed out in the order in which the checks start, and this
order decides, not the order in which they publish: a check comes too late exactly
if one that started later has published already, and what stands in the end is
from the check that started last. The invariant is `Overlap.Tracks`: a check holds
the revision of its turn, and what stands is from the latest check of those that
have published.
-/

namespace TradeScript.Store

/-- Does a step of a caller leave the document alone? -/
def Shared.Spares (s : Shared) (id : String) : Caller × Action → Prop
  | (_, .next id') => id' ≠ id
  | (_, .note id' _ _) => id' ≠ id
  | (caller, .replace) => ∀ p, s.halfway caller ≠ some (id, p)
  | (_, .remove id') => id' ≠ id
  | (_, .clear) => False

theorem Shared.Step.get?_eq {s t : Shared} {e : Caller × Action} {id : String}
    (h : Shared.Step s e t) (hspares : s.Spares id e) : t.store.get? id = s.store.get? id := by
  cases h with
  | next _ => rfl
  | note _ => rfl
  | @replace _ id' p hhalf =>
      have hne : id' ≠ id := fun heq => hspares p (heq ▸ hhalf)
      rw [get?_replace, if_neg fun hand => hne hand.1]
  | remove _ =>
      rw [get?_remove]
      exact if_neg hspares
  | clear _ => exact hspares.elim

theorem Shared.Step.lastIssued_eq {s t : Shared} {e : Caller × Action} {id : String}
    (h : Shared.Step s e t) (hspares : s.Spares id e) :
    t.store.lastIssued id = s.store.lastIssued id := by
  cases h with
  | next _ =>
      rw [lastIssued_nextRevision]
      exact if_neg hspares
  | note _ =>
      rw [lastIssued_note]
      exact if_neg hspares
  | replace _ => exact lastIssued_replace ..
  | remove _ => rfl
  | clear _ => rfl

/-- Those who check the document, by number. Each checks it once. -/
abbrev Checker := Nat

/-- How far a check has come. -/
inductive Stage where
  /-- It has not started. -/
  | waiting
  /-- It has taken its revision. -/
  | started (revision : Nat)
  /-- It has noted its revision, and has yet to replace what stands. -/
  | noted (revision : Nat)
  /-- It has published. -/
  | finished
  deriving Repr, DecidableEq

/-- A store that is used while a document is checked. -/
structure Overlap where
  shared : Shared
  stage : Checker → Stage

namespace Overlap

/-- What happens to the store while the document is checked. -/
inductive Event where
  /-- A check takes its revision. -/
  | start (checker : Checker)
  /-- A check notes its revision: it starts to publish. -/
  | note (checker : Checker)
  /-- A check replaces what stands, or comes too late for that. -/
  | publish (checker : Checker) (outcome : Publication)
  /-- A caller uses the store for another document. -/
  | elsewhere (e : Caller × Action)
  deriving Repr, DecidableEq

/-- The checks that a history starts, in order. -/
def starts (history : List Event) : List Checker :=
  history.filterMap fun
    | .start checker => some checker
    | _ => none

/-- The checks that publish in a history, in order. -/
def publishes (history : List Event) : List Checker :=
  history.filterMap fun
    | .publish checker _ => some checker
    | _ => none

/-- No check has started. -/
def begin (shared : Shared) : Overlap :=
  ⟨shared, fun _ => .waiting⟩

/-- A check has come further and has changed the store. -/
def advance (s : Overlap) (checker : Checker) (stage : Stage) (store : Store) : Overlap :=
  ⟨{ s.shared with store }, fun k => if k = checker then stage else s.stage k⟩

/-- One step while the document `id` is checked, where `found` is what each check
finds. -/
inductive Step (id : String) (found : Checker → List Diagnostic) :
    Overlap → Event → Overlap → Prop where
  | start {s : Overlap} {k : Checker} :
      s.stage k = .waiting →
      Step id found s (.start k)
        (s.advance k (.started (s.shared.store.nextRevision id).1)
          (s.shared.store.nextRevision id).2)
  | note {s : Overlap} {k : Checker} {r : Nat} :
      s.stage k = .started r →
      Step id found s (.note k) (s.advance k (.noted r) (s.shared.store.note id r))
  | publish {s : Overlap} {k : Checker} {r : Nat} {outcome : Publication} :
      s.stage k = .noted r → (s.shared.store.replace id ⟨r, found k⟩).1 = outcome →
      Step id found s (.publish k outcome)
        (s.advance k .finished (s.shared.store.replace id ⟨r, found k⟩).2)
  | elsewhere {s : Overlap} {e : Caller × Action} {t : Shared} :
      Shared.Step s.shared e t → s.shared.Spares id e →
      Step id found s (.elsewhere e) { s with shared := t }

/-- Steps one after the other. -/
inductive Run (id : String) (found : Checker → List Diagnostic) :
    Overlap → List Event → Overlap → Prop where
  | nil (s : Overlap) : Run id found s [] s
  | cons {s t u : Overlap} {e : Event} {es : List Event} :
      Step id found s e t → Run id found t es u → Run id found s (e :: es) u

variable {id : String} {found : Checker → List Diagnostic} {s t : Overlap} {history : List Event}

/-- Every event of a run is a step from where the events before it have led. -/
theorem Run.exists_step {before after : List Event} {e : Event}
    (h : Run id found s (before ++ e :: after) t) :
    ∃ u v, Run id found s before u ∧ Step id found u e v := by
  induction before generalizing s with
  | nil =>
      cases h with
      | cons hstep _ => exact ⟨s, _, .nil s, hstep⟩
  | cons first before ih =>
      cases h with
      | cons hstep hrest =>
          obtain ⟨u, v, hrun, hlast⟩ := ih hrest
          exact ⟨u, v, .cons hstep hrun, hlast⟩

theorem stage_advance_self (s : Overlap) (k : Checker) (stage : Stage) (store : Store) :
    (s.advance k stage store).stage k = stage :=
  if_pos rfl

theorem stage_advance_of_ne {j k : Checker} (h : j ≠ k) (s : Overlap) (stage : Stage)
    (store : Store) : (s.advance k stage store).stage j = s.stage j :=
  if_neg h

/-- A check that waits after another one has come further was waiting before. -/
theorem waiting_of_advance {j k : Checker} {stage : Stage} {store : Store}
    (hstage : stage ≠ .waiting) (h : (s.advance k stage store).stage j = .waiting) :
    j ≠ k ∧ s.stage j = .waiting := by
  have hne : j ≠ k := by
    rintro rfl
    rw [stage_advance_self] at h
    exact hstage h
  rw [stage_advance_of_ne hne] at h
  exact ⟨hne, h⟩

/-! ### The invariant -/

/-- The revision of a check, by its turn among those that have started. -/
def turn (id : String) (base : Store) (started : List Checker) (k : Checker) : Nat :=
  base.lastIssued id + started.idxOf k + 1

theorem turn_append {base : Store} {started : List Checker} {k : Checker} (hk : k ∈ started)
    (later : List Checker) : turn id base (started ++ later) k = turn id base started k := by
  rw [turn, List.idxOf_append, if_pos hk, turn]

theorem turn_le {base : Store} {started : List Checker} {k : Checker} (hk : k ∈ started) :
    turn id base started k ≤ base.lastIssued id + started.length := by
  have hlt := List.idxOf_lt_length_of_mem hk
  rw [turn]
  omega

/-- What stands is what stood before the checks, if none of them has published, and
else comes from the latest of those that have. -/
def Standing (id : String) (found : Checker → List Diagnostic) (base : Store)
    (started published : List Checker) (entry : Option Published) : Prop :=
  published = [] ∧ entry = base.get? id ∨
    ∃ k ∈ published, entry = some ⟨turn id base started k, found k⟩ ∧
      ∀ j ∈ published, turn id base started j ≤ turn id base started k

/-- The state agrees with the checks that have started and those that have published
since the store was `base`. -/
structure Tracks (id : String) (found : Checker → List Diagnostic) (base : Store)
    (started published : List Checker) (s : Overlap) : Prop where
  issued_eq : s.shared.store.lastIssued id = base.lastIssued id + started.length
  nodup : started.Nodup
  waiting : ∀ k, s.stage k = .waiting → k ∉ started
  holding : ∀ k r, s.stage k = .started r ∨ s.stage k = .noted r →
    k ∈ started ∧ r = turn id base started k
  finished : ∀ k ∈ published, k ∈ started ∧ s.stage k = .finished
  standing : Standing id found base started published (s.shared.store.get? id)

theorem begin_tracks (id : String) (found : Checker → List Diagnostic) (shared : Shared) :
    Tracks id found shared.store [] [] (begin shared) where
  issued_eq := rfl
  nodup := List.nodup_nil
  waiting _ _ := List.not_mem_nil
  holding _ _ h := by simp [begin] at h
  finished _ hk := absurd hk List.not_mem_nil
  standing := Or.inl ⟨rfl, rfl⟩

variable {base : Store} {started published : List Checker}

/-- A check that has not published does not change what those have reached that have. -/
theorem Tracks.finished_advance {k : Checker} (h : Tracks id found base started published s)
    (hk : s.stage k ≠ .finished) (stage : Stage) (store : Store) :
    ∀ j ∈ published, j ∈ started ∧ (s.advance k stage store).stage j = .finished := by
  intro j hj
  obtain ⟨hmem, hdone⟩ := h.finished j hj
  have hne : j ≠ k := fun heq => hk (heq ▸ hdone)
  exact ⟨hmem, (stage_advance_of_ne hne ..).trans hdone⟩

theorem Tracks.start {k : Checker} (h : Tracks id found base started published s)
    (hroom : base.lastIssued id + started.length < maxRevision) (hstage : s.stage k = .waiting) :
    Tracks id found base (started ++ [k]) published
      (s.advance k (.started (s.shared.store.nextRevision id).1)
        (s.shared.store.nextRevision id).2) := by
  have hk := h.waiting k hstage
  have hissued := h.issued_eq
  have hnext : (s.shared.store.nextRevision id).1 = base.lastIssued id + started.length + 1 := by
    rw [nextRevision_fst]
    omega
  constructor
  case issued_eq =>
    simp only [advance, lastIssued_nextRevision, if_true, hnext, List.length_append,
      List.length_singleton]
    omega
  case nodup =>
    refine List.nodup_append.mpr ⟨h.nodup, by simp, ?_⟩
    rintro j hj _ hmem rfl
    exact hk (List.mem_singleton.mp hmem ▸ hj)
  case waiting =>
    intro j hj
    obtain ⟨hne, hj⟩ := waiting_of_advance (by simp) hj
    simp [h.waiting j hj, hne]
  case holding =>
    intro j r hj
    by_cases heq : j = k
    · subst heq
      rw [stage_advance_self] at hj
      -- The check that has just started has the last turn.
      obtain rfl : (s.shared.store.nextRevision id).1 = r := by simpa using hj
      refine ⟨by simp, ?_⟩
      rw [hnext, turn, List.idxOf_append, if_neg hk]
      simp
    · rw [stage_advance_of_ne heq] at hj
      obtain ⟨hmem, rfl⟩ := h.holding j r hj
      exact ⟨List.mem_append_left _ hmem, (turn_append hmem _).symm⟩
  case finished =>
    intro j hj
    have hopen : s.stage k ≠ .finished := by simp [hstage]
    obtain ⟨hmem, hdone⟩ := h.finished_advance hopen _ _ j hj
    exact ⟨List.mem_append_left _ hmem, hdone⟩
  case standing =>
    have hturn : ∀ j ∈ published, turn id base (started ++ [k]) j = turn id base started j :=
      fun j hj => turn_append (h.finished j hj).1 _
    rcases h.standing with hnone | ⟨m, hm, hentry, hlatest⟩
    · exact Or.inl hnone
    · refine Or.inr ⟨m, hm, ?_, ?_⟩
      · rw [hturn m hm]
        exact hentry
      · intro j hj
        rw [hturn j hj, hturn m hm]
        exact hlatest j hj

theorem Tracks.note {k : Checker} {r : Nat} (h : Tracks id found base started published s)
    (hstage : s.stage k = .started r) :
    Tracks id found base started published
      (s.advance k (.noted r) (s.shared.store.note id r)) := by
  obtain ⟨hk, rfl⟩ := h.holding k r (Or.inl hstage)
  constructor
  case issued_eq =>
    -- The revision was handed out, so noting it does not raise the counter.
    simp only [advance, lastIssued_note, if_true]
    rw [h.issued_eq]
    exact Nat.max_eq_left (turn_le hk)
  case nodup => exact h.nodup
  case waiting =>
    intro j hj
    exact h.waiting j (waiting_of_advance (by simp) hj).2
  case holding =>
    intro j r hj
    by_cases heq : j = k
    · subst heq
      rw [stage_advance_self] at hj
      exact ⟨hk, by simpa [eq_comm] using hj⟩
    · rw [stage_advance_of_ne heq] at hj
      exact h.holding j r hj
  case finished => exact h.finished_advance (by simp [hstage]) _ _
  case standing => exact h.standing

/-- What stands after a check has published: its own diagnostics if its turn is the
latest, else what stood. -/
theorem Standing.replace {store : Store} {k : Checker}
    (hbase : ∀ p, base.get? id = some p → p.revision ≤ base.lastIssued id)
    (h : Standing id found base started published (store.get? id)) :
    Standing id found base started (published ++ [k])
      ((store.replace id ⟨turn id base started k, found k⟩).2.get? id) := by
  have hmem : k ∈ published ++ [k] := List.mem_append_right _ (List.mem_singleton_self k)
  rcases replace_cases store id ⟨turn id base started k, found k⟩ with
    ⟨current, hget, hlt, hr⟩ | ⟨hle, hr⟩
  · rw [hr]
    rcases h with ⟨-, hentry⟩ | ⟨m, hm, hentry, hlatest⟩
    -- What stood before the checks is older than all of them.
    · have hold := hbase current (hentry.symm.trans hget)
      simp only [turn] at hlt
      omega
    · obtain rfl := Option.some.inj (hget.symm.trans hentry)
      refine Or.inr ⟨m, List.mem_append_left _ hm, hentry, ?_⟩
      intro j hj
      rcases List.mem_append.mp hj with hj | hj
      · exact hlatest j hj
      · rw [List.mem_singleton.mp hj]
        exact Nat.le_of_lt hlt
  · rw [hr, get?_insert_documents, if_pos rfl]
    refine Or.inr ⟨k, hmem, rfl, ?_⟩
    intro j hj
    rcases List.mem_append.mp hj with hj | hj
    · rcases h with ⟨rfl, -⟩ | ⟨m, -, hentry, hlatest⟩
      · exact absurd hj List.not_mem_nil
      · exact Nat.le_trans (hlatest j hj) (hle _ hentry)
    · obtain rfl := List.mem_singleton.mp hj
      exact Nat.le_refl _

theorem Tracks.publish {k : Checker} {r : Nat} (h : Tracks id found base started published s)
    (hbase : ∀ p, base.get? id = some p → p.revision ≤ base.lastIssued id)
    (hstage : s.stage k = .noted r) :
    Tracks id found base started (published ++ [k])
      (s.advance k .finished (s.shared.store.replace id ⟨r, found k⟩).2) := by
  obtain ⟨hk, rfl⟩ := h.holding k r (Or.inr hstage)
  constructor
  case issued_eq => exact (lastIssued_replace ..).trans h.issued_eq
  case nodup => exact h.nodup
  case waiting =>
    intro j hj
    exact h.waiting j (waiting_of_advance (by simp) hj).2
  case holding =>
    intro j r hj
    by_cases heq : j = k
    · subst heq
      simp [stage_advance_self] at hj
    · rw [stage_advance_of_ne heq] at hj
      exact h.holding j r hj
  case finished =>
    intro j hj
    rcases List.mem_append.mp hj with hj | hj
    · exact h.finished_advance (by simp [hstage]) _ _ j hj
    · obtain rfl := List.mem_singleton.mp hj
      exact ⟨hk, stage_advance_self ..⟩
  case standing => exact h.standing.replace hbase

theorem Tracks.elsewhere {e : Caller × Action} {shared : Shared}
    (h : Tracks id found base started published s) (hstep : Shared.Step s.shared e shared)
    (hspares : s.shared.Spares id e) :
    Tracks id found base started published { s with shared } where
  issued_eq := (hstep.lastIssued_eq hspares).trans h.issued_eq
  nodup := h.nodup
  waiting := h.waiting
  holding := h.holding
  finished := h.finished
  standing := by
    rw [hstep.get?_eq hspares]
    exact h.standing

/-! ### Runs -/

theorem starts_append (before after : List Event) :
    starts (before ++ after) = starts before ++ starts after :=
  List.filterMap_append

theorem publishes_append (before after : List Event) :
    publishes (before ++ after) = publishes before ++ publishes after :=
  List.filterMap_append

theorem Step.tracks {e : Event} (h : Step id found s e t)
    (hbase : ∀ p, base.get? id = some p → p.revision ≤ base.lastIssued id)
    (hs : Tracks id found base started published s)
    (hroom : base.lastIssued id + (started ++ starts [e]).length ≤ maxRevision) :
    Tracks id found base (started ++ starts [e]) (published ++ publishes [e]) t := by
  cases h with
  | start hstage =>
      have hlt : base.lastIssued id + started.length < maxRevision := by
        simp only [starts, List.filterMap_cons, List.filterMap_nil, List.length_append,
          List.length_singleton] at hroom
        omega
      simpa [starts, publishes] using hs.start hlt hstage
  | note hstage => simpa [starts, publishes] using hs.note hstage
  | publish hstage _ => simpa [starts, publishes] using hs.publish hbase hstage
  | elsewhere hstep hspares => simpa [starts, publishes] using hs.elsewhere hstep hspares

theorem Run.tracks (h : Run id found s history t)
    (hbase : ∀ p, base.get? id = some p → p.revision ≤ base.lastIssued id)
    (hs : Tracks id found base started published s)
    (hroom : base.lastIssued id + (started ++ starts history).length ≤ maxRevision) :
    Tracks id found base (started ++ starts history) (published ++ publishes history) t := by
  induction h generalizing started published with
  | nil => simpa [starts, publishes] using hs
  | @cons _ _ _ e es hstep _ ih =>
      rw [← List.singleton_append, starts_append, ← List.append_assoc] at hroom ⊢
      rw [publishes_append, ← List.append_assoc]
      have hfirst : base.lastIssued id + (started ++ starts [e]).length ≤ maxRevision := by
        rw [List.length_append] at hroom
        omega
      exact ih (hstep.tracks hbase hs hfirst) hroom

/-- A publication is stale exactly if a check with a later turn has published. -/
theorem Tracks.stale_iff {k : Checker} {r : Nat} (h : Tracks id found base started published s)
    (hbase : ∀ p, base.get? id = some p → p.revision ≤ base.lastIssued id)
    (hstage : s.stage k = .noted r) :
    (∃ current, (s.shared.store.replace id ⟨r, found k⟩).1 = .stale current) ↔
      ∃ j ∈ published, started.idxOf k < started.idxOf j := by
  obtain ⟨-, rfl⟩ := h.holding k r (Or.inr hstage)
  have hturn : ∀ j, turn id base started k < turn id base started j ↔
      started.idxOf k < started.idxOf j := by
    intro j
    simp only [turn]
    omega
  rw [replace_stale_iff]
  constructor
  · rintro ⟨current, hget, hlt⟩
    rcases h.standing with ⟨-, hentry⟩ | ⟨m, hm, hentry, -⟩
    -- Before a check has published, nothing stands that is newer than one.
    · have hold := hbase current (hentry.symm.trans hget)
      simp only [turn] at hlt
      omega
    · obtain rfl := Option.some.inj (hget.symm.trans hentry)
      exact ⟨m, hm, (hturn m).mp hlt⟩
  · rintro ⟨j, hj, hlt⟩
    rcases h.standing with ⟨rfl, -⟩ | ⟨m, -, hentry, hlatest⟩
    · exact absurd hj List.not_mem_nil
    · exact ⟨_, hentry, Nat.lt_of_lt_of_le ((hturn j).mpr hlt) (hlatest j hj)⟩

/-- When all checks that have started have published, what stands is from the one
that started last. -/
theorem Tracks.get?_of_last {k : Checker} (h : Tracks id found base started published s)
    (hall : ∀ j ∈ started, j ∈ published) (hlast : started.getLast? = some k) :
    ∃ r, s.shared.store.get? id = some ⟨r, found k⟩ := by
  obtain ⟨before, rfl⟩ := List.getLast?_eq_some_iff.mp hlast
  have hk : k ∉ before := by
    intro hmem
    exact (List.nodup_append.mp h.nodup).2.2 k hmem k (List.mem_singleton_self k) rfl
  have hpublished := hall k (by simp)
  rcases h.standing with ⟨rfl, -⟩ | ⟨m, hm, hentry, hlatest⟩
  · exact absurd hpublished List.not_mem_nil
  · have hle := hlatest k hpublished
    rcases List.mem_append.mp (h.finished m hm).1 with hmem | hmem
    -- A check that started before the last one has an earlier turn.
    · have hlt := List.idxOf_lt_length_of_mem hmem
      simp only [turn, List.idxOf_append, if_pos hmem, if_neg hk] at hle
      omega
    · obtain rfl := List.mem_singleton.mp hmem
      exact ⟨_, hentry⟩

/-- Checks of a document overlap in any way, in a store as any callers leave it and
with room for their revisions. Then a publication is stale exactly if a check that
took its revision later has published before, and when all have published, the
diagnostics of the check that took its revision last stand. -/
theorem stale_iff_overtaken_and_last_start_stands {past : List (Caller × Action)} {shared : Shared}
    (hreach : Shared.Run .start past shared) (hrun : Run id found (begin shared) history t)
    (hroom : shared.store.lastIssued id + (starts history).length < Nat.pow 2 64) :
    (∀ before k outcome after, history = before ++ .publish k outcome :: after →
      ((∃ current, outcome = .stale current) ↔
        ∃ j ∈ publishes before, (starts before).idxOf k < (starts before).idxOf j)) ∧
    ((∀ j ∈ starts history, j ∈ publishes history) →
      ∀ k, (starts history).getLast? = some k →
        ∃ r, t.shared.store.get? id = some ⟨r, found k⟩) := by
  have hbase := (hreach.sound Shared.start_sound).published_le id
  have hinit := begin_tracks id found shared
  constructor
  · rintro before k outcome after rfl
    obtain ⟨u, v, hbefore, hstep⟩ := hrun.exists_step
    rw [starts_append, List.length_append, ← Nat.add_assoc] at hroom
    have hroom' := Nat.lt_of_le_of_lt (Nat.le_add_right _ _) hroom
    have htracks := hbefore.tracks hbase hinit (Nat.le_sub_one_of_lt hroom')
    cases hstep with
    | publish hstage houtcome =>
        rw [← houtcome]
        exact htracks.stale_iff hbase hstage
  · intro hall k hlast
    have htracks := hrun.tracks hbase hinit (Nat.le_sub_one_of_lt hroom)
    exact htracks.get?_of_last hall hlast

/-- Two checks start after revision 3 was published, and the one that started last
publishes first, while a revision of another document is handed out. -/
theorem stale_behind_later_check :
    ∃ shared t,
      Shared.Run .start [(7, .note "a" 3 []), (7, .replace)] shared ∧
      Run "a" (fun k => [(Finding.deepNesting k).report (.onLine (.ofNatClamp k) 0 1)])
        (begin shared)
        [.start 0, .start 1, .elsewhere (7, .next "b"), .note 1, .note 0, .publish 1 .applied,
          .publish 0 (.stale 5)] t ∧
      shared.store.lastIssued "a" + 2 < Nat.pow 2 64 ∧
      (∃ j ∈ [1], [0, 1].idxOf 0 < [0, 1].idxOf j) ∧
      ∃ r, t.shared.store.get? "a" =
        some ⟨r, [(Finding.deepNesting 1).report ⟨⟨1, 0⟩, ⟨1, 1⟩⟩]⟩ := by
  obtain ⟨⟨store, halfway⟩, hreach, hstore, hfree⟩ :
      ∃ shared : Shared, Shared.Run .start [(7, .note "a" 3 []), (7, .replace)] shared ∧
        shared.store = ⟨⟨[("a", ⟨3, []⟩)]⟩, ⟨[("a", 3)]⟩⟩ ∧ shared.halfway 7 = none :=
    ⟨_, .cons (.note rfl) (.cons (.replace rfl) (.nil _)), rfl, rfl⟩
  cases hstore
  have hother : "b" ≠ "a" := by decide
  obtain ⟨t, hrun⟩ : ∃ t, Run "a"
      (fun k => [(Finding.deepNesting k).report (.onLine (.ofNatClamp k) 0 1)])
      (begin ⟨⟨⟨[("a", ⟨3, []⟩)]⟩, ⟨[("a", 3)]⟩⟩, halfway⟩)
      [.start 0, .start 1, .elsewhere (7, .next "b"), .note 1, .note 0, .publish 1 .applied,
        .publish 0 (.stale 5)] t :=
    ⟨_, .cons (.start rfl) <| .cons (.start rfl) <| .cons (.elsewhere (.next hfree) hother) <|
      .cons (.note rfl) <| .cons (.note rfl) <| .cons (.publish rfl rfl) <|
      .cons (.publish rfl rfl) <| .nil _⟩
  have hroom : (⟨⟨[("a", ⟨3, []⟩)]⟩, ⟨[("a", 3)]⟩⟩ : Store).lastIssued "a" + 2 < Nat.pow 2 64 := by
    decide
  have h := stale_iff_overtaken_and_last_start_stands hreach hrun hroom
  refine ⟨_, t, hreach, hrun, hroom, ?_, h.2 (by decide) 1 rfl⟩
  exact (h.1 [.start 0, .start 1, .elsewhere (7, .next "b"), .note 1, .note 0, .publish 1 .applied]
    0 _ [] rfl).mp ⟨5, rfl⟩

end Overlap

end TradeScript.Store
