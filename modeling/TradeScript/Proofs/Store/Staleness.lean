import TradeScript.Proofs.Store.Interleaving
import TradeScript.Proofs.Table

/-!
# TradeScript.Proofs.Store.Staleness

What a publication does to a store that its callers have brought into any state. A stale
one does nothing at all, although its revision is noted before it is compared with what
stands: a revision that is behind something published is behind the counter too
(`Shared.Sound`), so noting it enters the number that the counter has already. This
leaves the table of counters as it is, because the table holds each document once.

A publication that is not stale changes its own document and no other.
-/

namespace TradeScript.Store

variable {store : Store} {id : String}

/-- Noting a revision that the counter has passed changes nothing. -/
theorem note_eq_self (hnames : store.issued.names.Nodup) {revision : Nat}
    (hlt : revision < store.lastIssued id) : store.note id revision = store := by
  cases hget : store.issued.get? id with
  | none =>
      -- A document without a counter counts from zero.
      rw [lastIssued, hget] at hlt
      exact absurd hlt (Nat.not_lt_zero _)
  | some number =>
      have hnumber : store.lastIssued id = number := by rw [lastIssued, hget, Option.getD_some]
      have hmax : max (store.lastIssued id) revision = number := by omega
      rw [note, hmax, Table.insert_eq_self hnames hget]

/-- A publication behind what stands changes nothing, if what stands was counted. -/
theorem publish_of_newer (hnames : store.issued.names.Nodup) {p : Published}
    (hget : store.get? id = some p) (hcounted : p.revision ≤ store.lastIssued id) {revision : Nat}
    (hlt : revision < p.revision) (diagnostics : List Diagnostic) :
    store.publish id revision diagnostics = (.stale p.revision, store) := by
  have hread : store.documents.get? id = some p := hget
  rw [publish, note_eq_self hnames (Nat.lt_of_lt_of_le hlt hcounted)]
  simp only [replace, hread, if_pos hlt]

/-- A publication that is not behind what stands is applied. -/
theorem publish_of_not_newer {revision : Nat}
    (hle : ∀ p, store.get? id = some p → p.revision ≤ revision) (diagnostics : List Diagnostic) :
    store.publish id revision diagnostics =
      (.applied, { store.note id revision with
        documents := store.documents.insert id ⟨revision, diagnostics⟩ }) := by
  rcases replace_cases (store.note id revision) id ⟨revision, diagnostics⟩ with
    ⟨p, hget, hlt, -⟩ | ⟨-, hr⟩
  · exact absurd hlt (Nat.not_lt.mpr (hle p hget))
  · exact hr

namespace Shared

variable {s t : Shared} {e : Caller × Action} {es : List (Caller × Action)}

theorem Step.nodup_issued (h : Step s e t) (hs : s.store.issued.names.Nodup) :
    t.store.issued.names.Nodup := by
  cases h with
  | next _ => exact Table.nodup_names_insert hs _ _
  | note _ => exact Table.nodup_names_insert hs _ _
  | @replace _ id published _ =>
      rcases replace_cases s.store id published with ⟨_, -, -, hr⟩ | ⟨-, hr⟩
      · rw [hr]
        exact hs
      · rw [hr]
        exact hs
  | remove _ => exact hs
  | clear _ => exact hs

theorem Run.nodup_issued (h : Run s es t) (hs : s.store.issued.names.Nodup) :
    t.store.issued.names.Nodup := by
  induction h with
  | nil => exact hs
  | cons hstep _ ih => exact ih (hstep.nodup_issued hs)

/-- In every state that callers of a fresh store can reach, a publication is stale exactly
if a newer one stands, whose revision it is told; the store stays as it was, counters
included. Else it is applied: it stands for its document, and what is published for any
other document, and the counter of it, stay. -/
theorem publish_stale_or_applied (h : Run start es s) (id : String) (revision : UInt64)
    (diagnostics : List Diagnostic) :
    let published := s.store.publish id revision.toNat diagnostics
    (∀ current, published.1 = .stale current ↔
        ∃ p, s.store.get? id = some p ∧ p.revision = current ∧ revision.toNat < current) ∧
      ((∃ p, s.store.get? id = some p ∧ revision.toNat < p.revision) →
        published.2 = s.store) ∧
      ((¬ ∃ p, s.store.get? id = some p ∧ revision.toNat < p.revision) →
        published.1 = .applied ∧ published.2.get? id = some ⟨revision.toNat, diagnostics⟩ ∧
          ∀ other, other ≠ id → published.2.get? other = s.store.get? other ∧
            published.2.lastIssued other = s.store.lastIssued other) := by
  intro published
  by_cases hnewer : ∃ p, s.store.get? id = some p ∧ revision.toNat < p.revision
  · obtain ⟨p, hget, hlt⟩ := hnewer
    have hcounted := (h.sound start_sound).published_le id p hget
    have hpublished : published = (.stale p.revision, s.store) :=
      publish_of_newer (h.nodup_issued List.nodup_nil) hget hcounted hlt diagnostics
    rw [hpublished]
    refine ⟨fun current => ⟨fun heq => ?_, ?_⟩, fun _ => rfl, fun hnot => ?_⟩
    · exact ⟨p, hget, Publication.stale.inj heq, Publication.stale.inj heq ▸ hlt⟩
    · rintro ⟨q, hq, rfl, -⟩
      rw [Option.some.inj (hget.symm.trans hq)]
    · exact absurd ⟨p, hget, hlt⟩ hnot
  · have hle : ∀ p, s.store.get? id = some p → p.revision ≤ revision.toNat :=
      fun p hget => Nat.le_of_not_lt fun hlt => hnewer ⟨p, hget, hlt⟩
    have hpublished : published = (.applied, _) := publish_of_not_newer hle diagnostics
    rw [hpublished]
    refine ⟨fun current => ⟨fun heq => ?_, ?_⟩, fun hlt => absurd hlt hnewer, fun _ => ?_⟩
    · exact absurd heq (by simp)
    · rintro ⟨p, hget, rfl, hlt⟩
      exact absurd ⟨p, hget, hlt⟩ hnewer
    · refine ⟨rfl, ?_, fun other hother => ⟨?_, ?_⟩⟩
      · exact (Table.get?_insert ..).trans (if_pos rfl)
      · exact (Table.get?_insert ..).trans (if_neg hother.symm)
      · exact (lastIssued_note s.store id other _).trans (if_neg hother.symm)

/-- Caller 1 has published revision 7 while revision 9 of caller 0 is only noted. Revision
6 is stale then, and revision 8 is applied. -/
theorem publish_behind_noted :
    ∃ s, Run start [(0, .note "a" 9 []), (1, .note "a" 7 []), (1, .replace)] s ∧
      (s.store.publish "a" 6 []).1 = .stale 7 ∧ (s.store.publish "a" 6 []).2 = s.store ∧
      (s.store.publish "a" 8 []).1 = .applied ∧
      (s.store.publish "a" 8 []).2.get? "a" = some ⟨8, []⟩ := by
  obtain ⟨s, hs, hp⟩ :
      ∃ s, Run start [(0, .note "a" 9 []), (1, .note "a" 7 []), (1, .replace)] s ∧
        s.store.get? "a" = some ⟨7, []⟩ :=
    ⟨_, .cons (.note rfl) (.cons (.note rfl) (.cons (.replace rfl) (.nil _))), rfl⟩
  have hstale := publish_stale_or_applied hs "a" 6 []
  have happlied := publish_stale_or_applied hs "a" 8 []
  have hnot : ¬ ∃ p, s.store.get? "a" = some p ∧ (8 : UInt64).toNat < p.revision := by
    rintro ⟨p, hget, hlt⟩
    obtain rfl := Option.some.inj (hp.symm.trans hget)
    exact absurd hlt (by decide)
  refine ⟨s, hs, ?_, ?_, (happlied.2.2 hnot).1, (happlied.2.2 hnot).2.1⟩
  · exact (hstale.1 7).mpr ⟨⟨7, []⟩, hp, rfl, by decide⟩
  · exact hstale.2.1 ⟨⟨7, []⟩, hp, by decide⟩

end Shared

end TradeScript.Store
