import TradeScript.Proofs.Store.Run
import TradeScript.Proofs.Table

/-!
# TradeScript.Proofs.Store.Independence

The documents of a store do not influence one another. Whatever is asked of a
store, in any order (`Store.serve`), one document sees only the requests that
concern it: those about it, and those that forget every document. Serving these
alone gives the same responses and leaves the document and its counter the same.

So a store is a family of stores of one document each, which share nothing but
that they are cleared together. Its size is the number of those that end with
something published.
-/

namespace TradeScript

namespace Store

/-! ### Requests -/

/-- Whatever can be asked of a store. -/
inductive Request where
  | change (op : Operation)
  /-- What is published for a document. -/
  | get (id : String)
  /-- The revision that is published for a document. -/
  | revision (id : String)
  /-- The number of documents. -/
  | size
  | isEmpty
  deriving Repr, DecidableEq

/-- What is given back. -/
inductive Response where
  | changed (answer : Answer)
  | published (entry : Option Published)
  | revision (number : Option Nat)
  | size (count : Nat)
  | isEmpty (empty : Bool)
  deriving Repr, DecidableEq

/-- Respond to a request. -/
def respond (store : Store) : Request → Response × Store
  | .change op => (.changed (store.perform op).1, (store.perform op).2)
  | .get id => (.published (store.get? id), store)
  | .revision id => (.revision ((store.get? id).map Published.revision), store)
  | .size => (.size store.size, store)
  | .isEmpty => (.isEmpty (store.size == 0), store)

/-- Respond to requests one after the other. The result is what was asked with what
response, and the store afterwards. -/
def serve (store : Store) : List Request → List (Request × Response) × Store
  | [] => ([], store)
  | request :: requests =>
      let here := store.respond request
      let rest := serve here.2 requests
      ((request, here.1) :: rest.1, rest.2)

/-- Is the operation about the document, or about all of them? -/
def Operation.concerns (id : String) : Operation → Bool
  | .next id' => id' == id
  | .publish id' _ _ => id' == id
  | .remove id' => id' == id
  | .clear => true

/-- Is the request about the document, or does it forget all of them? -/
def Request.concerns (id : String) : Request → Bool
  | .change op => op.concerns id
  | .get id' => id' == id
  | .revision id' => id' == id
  | .size => false
  | .isEmpty => false

/-- The requests that concern a document. -/
def project (id : String) (requests : List Request) : List Request :=
  requests.filter fun request => request.concerns id

/-! ### One request -/

/-- Two stores that are the same for a document. -/
structure AgreeOn (id : String) (a b : Store) : Prop where
  get?_eq : a.get? id = b.get? id
  lastIssued_eq : a.lastIssued id = b.lastIssued id

variable {id : String} {a b : Store}

/-- An operation that does not concern a document leaves it alone. -/
theorem perform_agreeOn {op : Operation} (h : op.concerns id = false) :
    AgreeOn id (a.perform op).2 a := by
  cases op with
  | next id' =>
      have hne : id' ≠ id := by simpa [Operation.concerns] using h
      exact ⟨rfl, by simp only [perform, lastIssued_nextRevision, if_neg hne]⟩
  | publish id' revision diagnostics =>
      have hne : id' ≠ id := by simpa [Operation.concerns] using h
      constructor
      · simp only [perform, publish, get?_replace, get?_note, hne, false_and, if_false]
      · simp only [perform, publish, lastIssued_replace, lastIssued_note, if_neg hne]
  | remove id' =>
      have hne : id' ≠ id := by simpa [Operation.concerns] using h
      exact ⟨by simp only [perform, get?_remove, if_neg hne], rfl⟩
  | clear => simp [Operation.concerns] at h

/-- An operation that concerns a document has the same answer and the same effect on
it in all stores that agree on it. -/
theorem AgreeOn.perform {op : Operation} (hab : AgreeOn id a b) (h : op.concerns id = true) :
    (a.perform op).1 = (b.perform op).1 ∧ AgreeOn id (a.perform op).2 (b.perform op).2 := by
  cases op with
  | next id' =>
      obtain rfl : id' = id := by simpa [Operation.concerns] using h
      have hnext : (a.nextRevision id').1 = (b.nextRevision id').1 := by
        rw [nextRevision_fst, nextRevision_fst, hab.lastIssued_eq]
      refine ⟨congrArg Answer.revision hnext, hab.get?_eq, ?_⟩
      simp only [Store.perform, lastIssued_nextRevision, if_true, hnext]
  | publish id' revision diagnostics =>
      obtain rfl : id' = id := by simpa [Operation.concerns] using h
      have houtcome : (a.publish id' revision.toNat diagnostics).1 =
          (b.publish id' revision.toNat diagnostics).1 := by
        simp only [publish, replace_fst, get?_note, hab.get?_eq]
      refine ⟨congrArg Answer.publication houtcome, ?_, ?_⟩
      · rw [publish, publish] at houtcome
        simp only [Store.perform, publish, get?_replace, get?_note, houtcome, hab.get?_eq]
      · simp only [Store.perform, publish, lastIssued_replace, lastIssued_note, if_true,
          hab.lastIssued_eq]
  | remove id' =>
      obtain rfl : id' = id := by simpa [Operation.concerns] using h
      refine ⟨congrArg Answer.forgotten hab.get?_eq, ?_, hab.lastIssued_eq⟩
      simp only [Store.perform, get?_remove, if_true]
  | clear => exact ⟨rfl, rfl, hab.lastIssued_eq⟩

theorem respond_agreeOn {request : Request} (h : request.concerns id = false) :
    AgreeOn id (a.respond request).2 a := by
  cases request with
  | change op => exact perform_agreeOn h
  | get id' => exact ⟨rfl, rfl⟩
  | revision id' => exact ⟨rfl, rfl⟩
  | size => exact ⟨rfl, rfl⟩
  | isEmpty => exact ⟨rfl, rfl⟩

theorem AgreeOn.respond {request : Request} (hab : AgreeOn id a b)
    (h : request.concerns id = true) :
    (a.respond request).1 = (b.respond request).1 ∧
      AgreeOn id (a.respond request).2 (b.respond request).2 := by
  cases request with
  | change op =>
      obtain ⟨hanswer, hagree⟩ := hab.perform h
      exact ⟨congrArg Response.changed hanswer, hagree⟩
  | get id' =>
      obtain rfl : id' = id := by simpa [Request.concerns] using h
      exact ⟨congrArg Response.published hab.get?_eq, hab⟩
  | revision id' =>
      obtain rfl : id' = id := by simpa [Request.concerns] using h
      refine ⟨?_, hab⟩
      simp only [Store.respond, hab.get?_eq]
  | size => simp [Request.concerns] at h
  | isEmpty => simp [Request.concerns] at h

/-! ### All requests -/

/-- Stores that agree on a document give the same responses about it, and agree on it
afterwards, if one serves all requests and the other only those that concern the
document. -/
theorem AgreeOn.serve (hab : AgreeOn id a b) (requests : List Request) :
    (b.serve (project id requests)).1 =
        (a.serve requests).1.filter (fun e => e.1.concerns id) ∧
      AgreeOn id (a.serve requests).2 (b.serve (project id requests)).2 := by
  induction requests generalizing a b with
  | nil => exact ⟨rfl, hab⟩
  | cons request requests ih =>
      cases h : request.concerns id with
      -- Both stores serve the request.
      | true =>
          obtain ⟨hresponse, hagree⟩ := hab.respond h
          obtain ⟨hrest, hend⟩ := ih hagree
          rw [project, List.filter_cons_of_pos h, ← project]
          refine ⟨?_, hend⟩
          calc (b.serve (request :: project id requests)).1
              = (request, (b.respond request).1) ::
                  ((b.respond request).2.serve (project id requests)).1 := rfl
            _ = (request, (a.respond request).1) ::
                  ((a.respond request).2.serve requests).1.filter (fun e => e.1.concerns id) := by
                rw [hresponse, hrest]
            _ = (a.serve (request :: requests)).1.filter (fun e => e.1.concerns id) :=
                Eq.symm (List.filter_cons_of_pos h)
      -- Only `a` serves it, and keeps the document as it is.
      | false =>
          have hleft := respond_agreeOn (a := a) h
          have hagree : AgreeOn id (a.respond request).2 b :=
            ⟨hleft.get?_eq.trans hab.get?_eq, hleft.lastIssued_eq.trans hab.lastIssued_eq⟩
          obtain ⟨hrest, hend⟩ := ih hagree
          have hneg : ¬ request.concerns id = true := by simp [h]
          rw [project, List.filter_cons_of_neg hneg, ← project]
          refine ⟨?_, hend⟩
          calc (b.serve (project id requests)).1
              = ((a.respond request).2.serve requests).1.filter (fun e => e.1.concerns id) := hrest
            _ = (a.serve (request :: requests)).1.filter (fun e => e.1.concerns id) :=
                Eq.symm (List.filter_cons_of_neg hneg)

theorem nodup_names_perform (h : a.documents.names.Nodup) (op : Operation) :
    (a.perform op).2.documents.names.Nodup := by
  cases op with
  | next id' => exact h
  | publish id' revision diagnostics =>
      rcases replace_cases (a.note id' revision.toNat) id' ⟨revision.toNat, diagnostics⟩ with
        ⟨_, -, -, hr⟩ | ⟨-, hr⟩
      · simp only [Store.perform, publish, hr]
        exact h
      · simp only [Store.perform, publish, hr]
        exact Table.nodup_names_insert h ..
  | remove id' => exact Table.nodup_names_erase h id'
  | clear => exact List.nodup_nil

theorem nodup_names_serve (h : a.documents.names.Nodup) (requests : List Request) :
    (a.serve requests).2.documents.names.Nodup := by
  induction requests generalizing a with
  | nil => exact h
  | cons request requests ih =>
      refine ih ?_
      cases request with
      | change op => exact nodup_names_perform h op
      | _ => exact h

/-- Whatever is asked of a store, each document gets the responses, and ends with the
publication and the counter, that it has when only the requests that concern it are
served. The size of the store is the number of documents for which these end with
something published. -/
theorem serve_projects_to_each_document (requests : List Request) :
    (∀ id,
      (empty.serve (project id requests)).1 =
          (empty.serve requests).1.filter (fun e => e.1.concerns id) ∧
        (empty.serve (project id requests)).2.get? id = (empty.serve requests).2.get? id ∧
        (empty.serve (project id requests)).2.lastIssued id =
          (empty.serve requests).2.lastIssued id) ∧
    {id | ((empty.serve (project id requests)).2.get? id).isSome}.encard =
      (empty.serve requests).2.size := by
  have hserve := fun id => (AgreeOn.mk rfl rfl : AgreeOn id empty empty).serve requests
  constructor
  · intro id
    obtain ⟨hresponses, hagree⟩ := hserve id
    exact ⟨hresponses, hagree.get?_eq.symm, hagree.lastIssued_eq.symm⟩
  · have hsame : ∀ id, (empty.serve (project id requests)).2.get? id =
        (empty.serve requests).2.documents.get? id :=
      fun id => (hserve id).2.get?_eq.symm
    simp only [hsame]
    exact Table.encard_isSome_get? (nodup_names_serve (a := empty) List.nodup_nil requests)

end Store

end TradeScript
