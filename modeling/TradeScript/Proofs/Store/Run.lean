import TradeScript.Proofs.Store.View

/-!
# TradeScript.Proofs.Store.Run

Runs of a store: operations one after the other, with the answers they get
(`Store.run`). A run *uses* the revisions of a document that it publishes and
those that are handed out. The counter of the document is the greatest of them
(`used_le_lastIssued`, `lastIssued_eq_or_mem_used`), forgetting documents or not.

So a number that is handed out is greater than all that were used before, as long
as there is a greater one. The counter stops at the greatest revision: once this
one is used, it is handed out again and again.
-/

namespace TradeScript.Store

/-- What can be asked of a store that changes it. -/
inductive Operation where
  | next (id : String)
  | publish (id : String) (revision : UInt64) (diagnostics : List Diagnostic)
  | remove (id : String)
  | clear
  deriving Repr, DecidableEq

/-- What an operation gives back. -/
inductive Answer where
  | revision (number : Nat)
  | publication (outcome : Publication)
  | forgotten (published : Option Published)
  | cleared
  deriving Repr, DecidableEq

/-- Carry out an operation. -/
def perform (store : Store) : Operation → Answer × Store
  | .next id => (.revision (store.nextRevision id).1, (store.nextRevision id).2)
  | .publish id revision diagnostics =>
      let r := store.publish id revision.toNat diagnostics
      (.publication r.1, r.2)
  | .remove id => (.forgotten (store.remove id).1, (store.remove id).2)
  | .clear => (.cleared, store.clear)

/-- Carry out operations one after the other. The result is what was done with
what answer, and the store afterwards. -/
def run (store : Store) : List Operation → List (Operation × Answer) × Store
  | [] => ([], store)
  | op :: ops =>
      let here := store.perform op
      let rest := run here.2 ops
      ((op, here.1) :: rest.1, rest.2)

/-- The revision of the document that an operation used, if it used one. -/
def used? (id : String) : Operation × Answer → Option Nat
  | (.next id', .revision number) => if id' = id then some number else none
  | (.publish id' revision _, _) => if id' = id then some revision.toNat else none
  | _ => none

/-- The revisions of the document that a run used: published, or handed out. -/
def used (id : String) (history : List (Operation × Answer)) : List Nat :=
  history.filterMap (used? id)

/-- In the run, `number` is handed out for the document right after `before`. -/
def HandedOut (id : String) (history before : List (Operation × Answer)) (number : Nat) : Prop :=
  ∃ after, history = before ++ (.next id, .revision number) :: after

/-- Every number that the run hands out for the document is greater than all that
were handed out or published for it before. -/
def HandsOutFresh (id : String) (history : List (Operation × Answer)) : Prop :=
  ∀ before number, HandedOut id history before number → ∀ r ∈ used id before, r < number

variable {store : Store} {id : String}

/-! ### The counter -/

/-- The counter after an operation: what the operation used, if that is greater. -/
theorem lastIssued_perform (hmax : store.lastIssued id ≤ maxRevision) (op : Operation) :
    (store.perform op).2.lastIssued id =
      max (store.lastIssued id) ((used? id (op, (store.perform op).1)).getD 0) := by
  cases op with
  | next id' =>
      simp only [perform, used?, lastIssued_nextRevision]
      split
      · rename_i hid
        subst hid
        rw [Option.getD_some, nextRevision_fst]
        omega
      · exact (Nat.max_zero _).symm
  | publish id' revision diagnostics =>
      simp only [perform, publish, used?, lastIssued_replace, lastIssued_note]
      split
      · rename_i hid
        subst hid
        rfl
      · exact (Nat.max_zero _).symm
  | remove id' => exact (Nat.max_zero _).symm
  | clear => exact (Nat.max_zero _).symm

theorem lastIssued_perform_le (hmax : store.lastIssued id ≤ maxRevision) (op : Operation) :
    (store.perform op).2.lastIssued id ≤ maxRevision := by
  cases op with
  | next id' => exact lastIssued_nextRevision_le hmax
  | publish id' revision diagnostics =>
      simp only [perform, publish, lastIssued_replace]
      exact lastIssued_note_le hmax revision
  | remove id' => exact hmax
  | clear => exact hmax

theorem lastIssued_le_perform (hmax : store.lastIssued id ≤ maxRevision) (op : Operation) :
    store.lastIssued id ≤ (store.perform op).2.lastIssued id := by
  rw [lastIssued_perform hmax]
  exact Nat.le_max_left _ _

theorem lastIssued_run_le (hmax : store.lastIssued id ≤ maxRevision) (ops : List Operation) :
    (store.run ops).2.lastIssued id ≤ maxRevision := by
  induction ops generalizing store with
  | nil => exact hmax
  | cons op ops ih => exact ih (lastIssued_perform_le hmax op)

theorem lastIssued_le_run (hmax : store.lastIssued id ≤ maxRevision) (ops : List Operation) :
    store.lastIssued id ≤ (store.run ops).2.lastIssued id := by
  induction ops generalizing store with
  | nil => exact Nat.le_refl _
  | cons op ops ih =>
      exact Nat.le_trans (lastIssued_le_perform hmax op) (ih (lastIssued_perform_le hmax op))

theorem used_run_cons (op : Operation) (ops : List Operation) :
    used id (store.run (op :: ops)).1 =
      (used? id (op, (store.perform op).1)).toList ++ used id ((store.perform op).2.run ops).1 := by
  rw [run, used, List.filterMap_cons]
  cases used? id (op, (store.perform op).1) <;> rfl

/-- No revision that a run used is above the counter. -/
theorem used_le_lastIssued (hmax : store.lastIssued id ≤ maxRevision) (ops : List Operation) :
    ∀ r ∈ used id (store.run ops).1, r ≤ (store.run ops).2.lastIssued id := by
  induction ops generalizing store with
  | nil => intro r hr; exact absurd hr List.not_mem_nil
  | cons op ops ih =>
      intro r hr
      have hmax' := lastIssued_perform_le hmax op
      rw [used_run_cons, List.mem_append] at hr
      rcases hr with hr | hr
      -- What the operation used is counted at once, and the rest of the run keeps the count.
      · have hused := Option.mem_toList.mp hr
        have hle : r ≤ (store.perform op).2.lastIssued id := by
          rw [lastIssued_perform hmax, hused]
          exact Nat.le_max_right _ _
        exact Nat.le_trans hle (lastIssued_le_run hmax' ops)
      · exact ih hmax' r hr

/-- The counter is where it started, or a revision that the run used. -/
theorem lastIssued_eq_or_mem_used (hmax : store.lastIssued id ≤ maxRevision)
    (ops : List Operation) :
    (store.run ops).2.lastIssued id = store.lastIssued id ∨
      (store.run ops).2.lastIssued id ∈ used id (store.run ops).1 := by
  induction ops generalizing store with
  | nil => exact Or.inl rfl
  | cons op ops ih =>
      rw [used_run_cons, List.mem_append]
      rcases ih (lastIssued_perform_le hmax op) with h | h
      · have hrun : (store.run (op :: ops)).2.lastIssued id =
            max (store.lastIssued id) ((used? id (op, (store.perform op).1)).getD 0) :=
          h.trans (lastIssued_perform hmax op)
        rw [hrun]
        cases used? id (op, (store.perform op).1) with
        | none => exact Or.inl (Nat.max_zero _)
        | some r =>
            rcases Nat.le_total r (store.lastIssued id) with hle | hle
            · exact Or.inl (Nat.max_eq_left hle)
            · refine Or.inr (Or.inl ?_)
              rw [Option.getD_some, Nat.max_eq_right hle]
              exact List.mem_singleton_self r
      · exact Or.inr (Or.inr h)

/-! ### Numbers that are handed out -/

/-- A number that a run handed out was handed out by the store that the operations
before had left. -/
theorem HandedOut.exists_run {ops : List Operation} {before : List (Operation × Answer)}
    {number : Nat} (h : HandedOut id (store.run ops).1 before number) :
    ∃ ops', before = (store.run ops').1 ∧ number = ((store.run ops').2.nextRevision id).1 := by
  obtain ⟨after, h⟩ := h
  induction ops generalizing store before with
  | nil => exact absurd h.symm (by simp [run])
  | cons op ops ih =>
      cases before with
      | nil =>
          obtain ⟨hop, -⟩ := List.cons.inj h
          obtain ⟨rfl, hanswer⟩ := Prod.mk.inj hop
          exact ⟨[], rfl, (Answer.revision.inj hanswer).symm⟩
      | cons first before =>
          rw [List.cons_append] at h
          obtain ⟨rfl, hrest⟩ := List.cons.inj h
          obtain ⟨ops', rfl, hnumber⟩ := ih hrest
          exact ⟨op :: ops', rfl, hnumber⟩

/-- Once the greatest revision is used, it is the next one. -/
theorem nextRevision_of_maxRevision_used {ops : List Operation}
    (h : maxRevision ∈ used id (empty.run ops).1) :
    ((empty.run ops).2.nextRevision id).1 = maxRevision := by
  have hle := used_le_lastIssued (Nat.zero_le _) ops maxRevision h
  rw [nextRevision_fst]
  exact Nat.min_eq_right (Nat.le_succ_of_le hle)

/-- As long as the greatest revision is not used, the next one is greater than all
that are. -/
theorem used_lt_nextRevision {ops : List Operation}
    (h : maxRevision ∉ used id (empty.run ops).1) :
    ∀ r ∈ used id (empty.run ops).1, r < ((empty.run ops).2.nextRevision id).1 := by
  intro r hr
  have hzero : empty.lastIssued id ≤ maxRevision := Nat.zero_le _
  have hle := lastIssued_run_le hzero ops
  have hused := used_le_lastIssued hzero ops r hr
  -- The counter is a used revision or zero, so it is not the greatest revision.
  have hne : (empty.run ops).2.lastIssued id ≠ maxRevision := by
    intro heq
    rcases lastIssued_eq_or_mem_used hzero ops with hstart | hmem
    · rw [heq, lastIssued_empty] at hstart
      exact absurd hstart (by decide)
    · exact h (heq ▸ hmem)
  rw [nextRevision_fst]
  omega

/-- A run hands out fresh numbers only, exactly if it hands out none after the
greatest revision was used; from there on it repeats that one. -/
theorem handsOutFresh_iff (ops : List Operation) (id : String) :
    (HandsOutFresh id (empty.run ops).1 ↔
      ∀ before number, HandedOut id (empty.run ops).1 before number →
        maxRevision ∉ used id before) ∧
    ∀ before number, HandedOut id (empty.run ops).1 before number →
      (∀ r ∈ used id before, r < number) ∨
        (maxRevision ∈ used id before ∧ number = maxRevision) := by
  refine ⟨⟨?_, ?_⟩, ?_⟩
  · intro hfresh before number hout hmem
    have hlt := hfresh before number hout maxRevision hmem
    obtain ⟨ops', rfl, rfl⟩ := hout.exists_run
    rw [nextRevision_of_maxRevision_used hmem] at hlt
    exact Nat.lt_irrefl _ hlt
  · intro hnot before number hout
    have hmem := hnot before number hout
    obtain ⟨ops', rfl, rfl⟩ := hout.exists_run
    exact used_lt_nextRevision hmem
  · intro before number hout
    obtain ⟨ops', rfl, rfl⟩ := hout.exists_run
    by_cases hmem : maxRevision ∈ used id (empty.run ops').1
    · exact Or.inr ⟨hmem, nextRevision_of_maxRevision_used hmem⟩
    · exact Or.inl (used_lt_nextRevision hmem)

/-- A client that publishes the greatest revision gets it again when it asks for
the next one. -/
theorem not_handsOutFresh_after_greatest :
    ¬ HandsOutFresh "a" (empty.run [.publish "a" 18446744073709551615 [], .next "a"]).1 := by
  intro h
  have hout : HandedOut "a" (empty.run [.publish "a" 18446744073709551615 [], .next "a"]).1
      [(.publish "a" 18446744073709551615 [], .publication .applied)] 18446744073709551615 :=
    ⟨[], by decide⟩
  exact absurd (h _ _ hout 18446744073709551615 (by decide)) (Nat.lt_irrefl _)

end TradeScript.Store
