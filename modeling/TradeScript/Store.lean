import TradeScript.Diagnostic.Basic
import TradeScript.Table

/-!
# TradeScript.Store

The diagnostics published for each document. A result carries the revision of
the text it was computed from, and a result for an older revision never replaces
one for a newer revision. Revisions are handed out per document; the counter
survives when a document is forgotten, so that numbers are not used again. The
counter is a 64-bit number and stays at the greatest one.
-/

namespace TradeScript

/-- The greatest revision. -/
def maxRevision : Nat := Nat.pow 2 64 - 1

/-- What is published for a document. -/
structure Published where
  revision : Nat
  diagnostics : List Diagnostic
  deriving Repr, DecidableEq

/-- What became of a publication. -/
inductive Publication where
  /-- It is what is published now. -/
  | applied
  /-- Revision `current` is newer and stays. -/
  | stale (current : Nat)
  deriving Repr, DecidableEq

/-- The published diagnostics by document, and the greatest revision handed out
or published for each. -/
structure Store where
  documents : Table Published
  issued : Table Nat
  deriving Repr, DecidableEq

namespace Store

/-- The store without documents. -/
def empty : Store :=
  ⟨.empty, .empty⟩

/-- The greatest revision handed out or published for a document. -/
def lastIssued (store : Store) (id : String) : Nat :=
  (store.issued.get? id).getD 0

/-- Hand out the next revision of a document. -/
def nextRevision (store : Store) (id : String) : Nat × Store :=
  let revision := min (store.lastIssued id + 1) maxRevision
  (revision, { store with issued := store.issued.insert id revision })

/-- Note that a revision of a document is in use. -/
def note (store : Store) (id : String) (revision : Nat) : Store :=
  { store with issued := store.issued.insert id (max (store.lastIssued id) revision) }

/-- Replace what is published for a document, unless that is newer. -/
def replace (store : Store) (id : String) (published : Published) : Publication × Store :=
  match store.documents.get? id with
  | some current =>
      if published.revision < current.revision then (.stale current.revision, store)
      else (.applied, { store with documents := store.documents.insert id published })
  | none => (.applied, { store with documents := store.documents.insert id published })

/-- Publish the diagnostics of a revision: its number is noted, then it replaces
what is published, unless that is newer. -/
def publish (store : Store) (id : String) (revision : Nat) (diagnostics : List Diagnostic) :
    Publication × Store :=
  (store.note id revision).replace id ⟨revision, diagnostics⟩

/-- What is published for a document. -/
def get? (store : Store) (id : String) : Option Published :=
  store.documents.get? id

/-- Forget a document; what was published for it is given back. -/
def remove (store : Store) (id : String) : Option Published × Store :=
  (store.get? id, { store with documents := store.documents.erase id })

/-- Forget every document. -/
def clear (store : Store) : Store :=
  { store with documents := .empty }

/-- The number of documents with published diagnostics. -/
def size (store : Store) : Nat :=
  store.documents.size

end Store

end TradeScript
