import TradeScript.Store

/-!
# TradeScript.Proofs.Store.View

A store seen through two questions: what is published for a document (`get?`),
and which revision was used last for it (`lastIssued`). Each operation has one
equation for each question, and nothing else about stores is needed: the order
in which the tables hold their names never shows.
-/

namespace TradeScript.Store

variable (store : Store) (id other : String)

@[simp] theorem get?_empty : empty.get? id = none := rfl

@[simp] theorem lastIssued_empty : empty.lastIssued id = 0 := rfl

/-! ### Handing out and noting revisions -/

theorem nextRevision_fst : (store.nextRevision id).1 = min (store.lastIssued id + 1) maxRevision :=
  rfl

@[simp] theorem get?_nextRevision : (store.nextRevision id).2.get? other = store.get? other := rfl

theorem lastIssued_nextRevision :
    (store.nextRevision id).2.lastIssued other =
      if id = other then (store.nextRevision id).1 else store.lastIssued other := by
  simp only [nextRevision, lastIssued, Table.get?_insert]
  split <;> rfl

@[simp] theorem get?_note (revision : Nat) :
    (store.note id revision).get? other = store.get? other := rfl

theorem lastIssued_note (revision : Nat) :
    (store.note id revision).lastIssued other =
      if id = other then max (store.lastIssued id) revision else store.lastIssued other := by
  simp only [note, lastIssued, Table.get?_insert]
  split <;> rfl

/-! ### Counters are revisions and never fall

The next revision stops at the greatest one, so the counter has to be a revision
for the next one not to be below it. -/

variable {store id other}

theorem lastIssued_le_nextRevision (hmax : store.lastIssued other ≤ maxRevision) :
    store.lastIssued other ≤ (store.nextRevision id).2.lastIssued other := by
  rw [lastIssued_nextRevision]
  split
  · rename_i hid
    subst hid
    rw [nextRevision_fst]
    omega
  · exact Nat.le_refl _

theorem lastIssued_nextRevision_le (hmax : store.lastIssued other ≤ maxRevision) :
    (store.nextRevision id).2.lastIssued other ≤ maxRevision := by
  rw [lastIssued_nextRevision]
  split
  · rw [nextRevision_fst]
    exact Nat.min_le_right _ _
  · exact hmax

theorem lastIssued_le_note (revision : Nat) :
    store.lastIssued other ≤ (store.note id revision).lastIssued other := by
  rw [lastIssued_note]
  split
  · rename_i hid
    subst hid
    exact Nat.le_max_left _ _
  · exact Nat.le_refl _

theorem lastIssued_note_le (hmax : store.lastIssued other ≤ maxRevision) (revision : UInt64) :
    (store.note id revision.toNat).lastIssued other ≤ maxRevision := by
  rw [lastIssued_note]
  split
  · rename_i hid
    subst hid
    exact Nat.max_le.mpr ⟨hmax, Nat.le_sub_one_of_lt revision.toNat_lt⟩
  · exact hmax

variable (store id other)

/-! ### Replacing and forgetting what is published -/

/-- A publication is stale where a newer one stands, and then changes nothing;
else it is applied. -/
theorem replace_cases (published : Published) :
    (∃ current, store.get? id = some current ∧ published.revision < current.revision ∧
      store.replace id published = (.stale current.revision, store)) ∨
    (∀ current, store.get? id = some current → current.revision ≤ published.revision) ∧
      store.replace id published =
        (.applied, { store with documents := store.documents.insert id published }) := by
  cases h : store.get? id with
  | none =>
      refine Or.inr ⟨fun current hcurrent => absurd hcurrent (by simp), ?_⟩
      rw [get?] at h
      simp only [replace, h]
  | some current =>
      have hread := h
      rw [get?] at hread
      by_cases hlt : published.revision < current.revision
      · exact Or.inl ⟨current, rfl, hlt, by simp only [replace, hread, if_pos hlt]⟩
      · refine Or.inr ⟨?_, by simp only [replace, hread, if_neg hlt]⟩
        intro current' hcurrent'
        obtain rfl : current = current' := Option.some.inj hcurrent'
        exact Nat.le_of_not_lt hlt

/-- What becomes of a publication follows from what is published. -/
theorem replace_fst (published : Published) :
    (store.replace id published).1 =
      match store.get? id with
      | some current =>
          if published.revision < current.revision then .stale current.revision else .applied
      | none => .applied := by
  rw [replace, get?]
  cases store.documents.get? id with
  | none => rfl
  | some current => exact apply_ite Prod.fst ..

@[simp] theorem lastIssued_replace (published : Published) :
    (store.replace id published).2.lastIssued other = store.lastIssued other := by
  unfold replace
  split
  · split <;> rfl
  · rfl

theorem get?_insert_documents (published : Published) :
    ({ store with documents := store.documents.insert id published } : Store).get? other =
      if id = other then some published else store.get? other :=
  Table.get?_insert store.documents id other published

/-- A publication that is applied stands; nothing else changes, and a stale one
changes nothing. -/
theorem get?_replace (published : Published) :
    (store.replace id published).2.get? other =
      if id = other ∧ (store.replace id published).1 = .applied then some published
      else store.get? other := by
  rcases replace_cases store id published with ⟨current, -, -, hr⟩ | ⟨-, hr⟩
  · rw [hr]
    exact (if_neg (by simp)).symm
  · rw [hr, get?_insert_documents]
    simp only [and_true]

/-- A publication is stale exactly if a newer one stands. -/
theorem replace_stale_iff (published : Published) :
    (∃ current, (store.replace id published).1 = .stale current) ↔
      ∃ current, store.get? id = some current ∧ published.revision < current.revision := by
  rcases replace_cases store id published with ⟨current, hget, hlt, hr⟩ | ⟨hle, hr⟩
  · rw [hr]
    exact ⟨fun _ => ⟨current, hget, hlt⟩, fun _ => ⟨current.revision, rfl⟩⟩
  · rw [hr]
    refine ⟨fun ⟨_, h⟩ => absurd h (by simp), ?_⟩
    rintro ⟨current, hget, hlt⟩
    exact absurd hlt (Nat.not_lt.mpr (hle current hget))

@[simp] theorem lastIssued_remove : (store.remove id).2.lastIssued other = store.lastIssued other :=
  rfl

theorem get?_remove :
    (store.remove id).2.get? other = if id = other then none else store.get? other :=
  Table.get?_erase store.documents id other

@[simp] theorem lastIssued_clear : store.clear.lastIssued id = store.lastIssued id := rfl

@[simp] theorem get?_clear : store.clear.get? id = none := rfl

end TradeScript.Store
