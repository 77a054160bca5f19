import TradeScript.Proofs.Store.View

/-!
# TradeScript.Proofs.Store.Interleaving

A store that several callers use at once. Handing out a revision, forgetting a
document and forgetting all of them are one step each. Publishing is two: the
revision is noted, and later the publication is compared with what stands and
replaces it, so that other callers can see, and change, the store in between
(`Shared.Step`).

Two things hold however the steps of the callers interleave. Nothing is published
whose revision is above the counter of its document: a publication that is
halfway was counted when it was noted, and a counter never falls, so this is
carried by the invariant `Shared.Sound`. And as long as a document is not
forgotten, what is published for it only gets newer.
-/

namespace TradeScript.Store

/-- The callers of a store, by number. -/
abbrev Caller := Nat

/-- What a caller does in one step. -/
inductive Action where
  /-- Take the next revision of a document. -/
  | next (id : String)
  /-- Start to publish: note the revision. -/
  | note (id : String) (revision : UInt64) (diagnostics : List Diagnostic)
  /-- Go on to publish what was noted: replace what stands, unless that is newer. -/
  | replace
  /-- Forget a document. -/
  | remove (id : String)
  /-- Forget every document. -/
  | clear
  deriving Repr, DecidableEq

/-- Does the action forget the document? -/
def Action.Forgets (id : String) : Action → Prop
  | remove id' => id' = id
  | clear => True
  | _ => False

/-- A store with the publications that are halfway: noted, and not yet compared
with what stands. -/
structure Shared where
  store : Store
  halfway : Caller → Option (String × Published)

namespace Shared

/-- An empty store that nobody uses yet. -/
def start : Shared :=
  ⟨.empty, fun _ => none⟩

/-- The same with another publication of one caller halfway. -/
def setHalfway (halfway : Caller → Option (String × Published)) (caller : Caller)
    (value : Option (String × Published)) : Caller → Option (String × Published) :=
  fun k => if k = caller then value else halfway k

/-- One step of one caller. A caller that is halfway does nothing else first. -/
inductive Step : Shared → Caller × Action → Shared → Prop where
  | next {s : Shared} {caller : Caller} {id : String} :
      s.halfway caller = none →
      Step s (caller, .next id) { s with store := (s.store.nextRevision id).2 }
  | note {s : Shared} {caller : Caller} {id : String} {revision : UInt64}
      {diagnostics : List Diagnostic} :
      s.halfway caller = none →
      Step s (caller, .note id revision diagnostics)
        ⟨s.store.note id revision.toNat,
          setHalfway s.halfway caller (some (id, ⟨revision.toNat, diagnostics⟩))⟩
  | replace {s : Shared} {caller : Caller} {id : String} {published : Published} :
      s.halfway caller = some (id, published) →
      Step s (caller, .replace)
        ⟨(s.store.replace id published).2, setHalfway s.halfway caller none⟩
  | remove {s : Shared} {caller : Caller} {id : String} :
      s.halfway caller = none →
      Step s (caller, .remove id) { s with store := (s.store.remove id).2 }
  | clear {s : Shared} {caller : Caller} :
      s.halfway caller = none →
      Step s (caller, .clear) { s with store := s.store.clear }

/-- Steps of any callers, one after the other. -/
inductive Run : Shared → List (Caller × Action) → Shared → Prop where
  | nil (s : Shared) : Run s [] s
  | cons {s t u : Shared} {e : Caller × Action} {es : List (Caller × Action)} :
      Step s e t → Run t es u → Run s (e :: es) u

/-- Every revision in use, published or halfway, was counted, and the counters
are revisions. -/
structure Sound (s : Shared) : Prop where
  published_le : ∀ id p, s.store.get? id = some p → p.revision ≤ s.store.lastIssued id
  halfway_le : ∀ caller id p, s.halfway caller = some (id, p) → p.revision ≤ s.store.lastIssued id
  issued_le : ∀ id, s.store.lastIssued id ≤ maxRevision

theorem start_sound : start.Sound where
  published_le _ _ h := absurd h (by simp [start])
  halfway_le _ _ _ h := absurd h (by simp [start])
  issued_le _ := Nat.zero_le _

variable {s t : Shared} {e : Caller × Action}

/-! ### One step -/

/-- No step makes a counter fall. -/
theorem Step.lastIssued_le (h : Step s e t) (hs : s.Sound) (id : String) :
    s.store.lastIssued id ≤ t.store.lastIssued id := by
  cases h with
  | next _ => exact lastIssued_le_nextRevision (hs.issued_le id)
  | note _ => exact lastIssued_le_note _
  | replace _ => exact Nat.le_of_eq (lastIssued_replace ..).symm
  | remove _ => exact Nat.le_refl _
  | clear _ => exact Nat.le_refl _

/-- What is published after a step was published before, or was halfway. -/
theorem Step.published (h : Step s e t) {id : String} {p : Published}
    (hp : t.store.get? id = some p) :
    s.store.get? id = some p ∨ ∃ caller, s.halfway caller = some (id, p) := by
  cases h with
  | next _ => exact Or.inl hp
  | note _ => exact Or.inl hp
  | @replace caller id' published hhalf =>
      rcases replace_cases s.store id' published with ⟨current, -, -, hr⟩ | ⟨-, hr⟩
      · rw [hr] at hp
        exact Or.inl hp
      · rw [hr, get?_insert_documents] at hp
        split at hp
        · rename_i hid
          subst hid
          obtain rfl := Option.some.inj hp
          exact Or.inr ⟨caller, hhalf⟩
        · exact Or.inl hp
  | remove _ =>
      rw [get?_remove] at hp
      split at hp
      · exact absurd hp (by simp)
      · exact Or.inl hp
  | clear _ => exact absurd hp (by simp)

/-- A publication that is halfway after a step was halfway before, or has just been
counted. -/
theorem Step.halfway (h : Step s e t) {caller : Caller} {id : String} {p : Published}
    (hp : t.halfway caller = some (id, p)) :
    s.halfway caller = some (id, p) ∨ p.revision ≤ t.store.lastIssued id := by
  cases h with
  | next _ => exact Or.inl hp
  | note _ =>
      simp only [setHalfway] at hp
      split at hp
      · obtain ⟨rfl, rfl⟩ := Prod.mk.inj (Option.some.inj hp)
        rw [lastIssued_note, if_pos rfl]
        exact Or.inr (Nat.le_max_right _ _)
      · exact Or.inl hp
  | replace _ =>
      simp only [setHalfway] at hp
      split at hp
      · exact absurd hp (by simp)
      · exact Or.inl hp
  | remove _ => exact Or.inl hp
  | clear _ => exact Or.inl hp

theorem Step.issued_le (h : Step s e t) (hs : s.Sound) (id : String) :
    t.store.lastIssued id ≤ maxRevision := by
  have hmax := hs.issued_le id
  cases h with
  | next _ => exact lastIssued_nextRevision_le hmax
  | note _ => exact lastIssued_note_le hmax _
  | replace _ => rw [lastIssued_replace]; exact hmax
  | remove _ => exact hmax
  | clear _ => exact hmax

theorem Step.sound (h : Step s e t) (hs : s.Sound) : t.Sound where
  published_le id p hp := by
    have hle := h.lastIssued_le hs id
    -- A publication that is new was halfway, so it is counted already.
    rcases h.published hp with hp | ⟨caller, hp⟩
    · exact Nat.le_trans (hs.published_le id p hp) hle
    · exact Nat.le_trans (hs.halfway_le caller id p hp) hle
  halfway_le caller id p hp := by
    rcases h.halfway hp with hp | hp
    · exact Nat.le_trans (hs.halfway_le caller id p hp) (h.lastIssued_le hs id)
    · exact hp
  issued_le := h.issued_le hs

/-- A step that does not forget the document keeps what is published for it, or
replaces it by something that is not older. -/
theorem Step.revision_le (h : Step s e t) {id : String} (hkeep : ¬ e.2.Forgets id) {p : Published}
    (hp : s.store.get? id = some p) :
    ∃ q, t.store.get? id = some q ∧ p.revision ≤ q.revision := by
  cases h with
  | next _ => exact ⟨p, hp, Nat.le_refl _⟩
  | note _ => exact ⟨p, hp, Nat.le_refl _⟩
  | @replace _ id' published _ =>
      rcases replace_cases s.store id' published with ⟨current, -, -, hr⟩ | ⟨hnewer, hr⟩
      · rw [hr]
        exact ⟨p, hp, Nat.le_refl _⟩
      · rw [hr, get?_insert_documents]
        split
        · rename_i hid
          subst hid
          exact ⟨published, rfl, hnewer p hp⟩
        · exact ⟨p, hp, Nat.le_refl _⟩
  | @remove _ id' _ =>
      have hne : id' ≠ id := hkeep
      rw [get?_remove, if_neg hne]
      exact ⟨p, hp, Nat.le_refl _⟩
  | clear _ => exact absurd trivial hkeep

/-! ### Runs -/

variable {es : List (Caller × Action)}

theorem Run.sound (h : Run s es t) (hs : s.Sound) : t.Sound := by
  induction h with
  | nil => exact hs
  | cons hstep _ ih => exact ih (hstep.sound hs)

theorem Run.revision_le (h : Run s es t) {id : String} (hkeep : ∀ e ∈ es, ¬ e.2.Forgets id)
    {p : Published} (hp : s.store.get? id = some p) :
    ∃ q, t.store.get? id = some q ∧ p.revision ≤ q.revision := by
  induction h generalizing p with
  | nil => exact ⟨p, hp, Nat.le_refl _⟩
  | cons hstep _ ih =>
      rw [List.forall_mem_cons] at hkeep
      obtain ⟨q, hq, hle⟩ := hstep.revision_le hkeep.1 hp
      obtain ⟨r, hr, hle'⟩ := ih hkeep.2 hq
      exact ⟨r, hr, Nat.le_trans hle hle'⟩

/-- In every state that callers of a fresh store can reach, each published revision
is at most the counter of its document; and from there on, as long as the document
is not forgotten, the published revision never falls. -/
theorem published_revision_counted_and_monotone {before after : List (Caller × Action)}
    (hbefore : Run start before s) (hafter : Run s after t) :
    (∀ id p, s.store.get? id = some p → p.revision ≤ s.store.lastIssued id) ∧
      ∀ id p, (∀ e ∈ after, ¬ e.2.Forgets id) → s.store.get? id = some p →
        ∃ q, t.store.get? id = some q ∧ p.revision ≤ q.revision := by
  refine ⟨(hbefore.sound start_sound).published_le, ?_⟩
  intro id p hkeep hp
  exact hafter.revision_le hkeep hp

/-- Caller 1 overtakes caller 0, whose publication is halfway and ends up stale. -/
theorem published_revision_overtaken :
    ∃ s t, Run start [(0, .note "a" 5 []), (1, .note "a" 7 []), (1, .replace)] s ∧
      Run s [(0, .replace), (0, .next "a")] t ∧ s.store.get? "a" = some ⟨7, []⟩ ∧
      (7 ≤ s.store.lastIssued "a") ∧ ∃ q, t.store.get? "a" = some q ∧ 7 ≤ q.revision := by
  obtain ⟨s, hs, hp, hhalfway⟩ :
      ∃ s, Run start [(0, .note "a" 5 []), (1, .note "a" 7 []), (1, .replace)] s ∧
        s.store.get? "a" = some ⟨7, []⟩ ∧ s.halfway 0 = some ("a", ⟨5, []⟩) :=
    ⟨_, .cons (.note rfl) (.cons (.note rfl) (.cons (.replace rfl) (.nil _))), rfl, rfl⟩
  have ht : Run s [(0, .replace), (0, .next "a")] _ :=
    .cons (.replace hhalfway) (.cons (.next rfl) (.nil _))
  have h := published_revision_counted_and_monotone hs ht
  exact ⟨s, _, hs, ht, hp, h.1 "a" ⟨7, []⟩ hp, h.2 "a" ⟨7, []⟩ (by simp [Action.Forgets]) hp⟩

end Shared

end TradeScript.Store
