import TradeScript.Scan.Reader
import TradeScript.Text.Basic

/-!
# TradeScript.Scan.Occurrence

Finding every place where a recogniser fits. A recogniser is asked at each
character whether what it looks for starts there; where it does, the search goes
on behind the matched text, so occurrences never overlap and come in the order
of the text.
-/

namespace TradeScript.Scan

open Text (byteLength)

/-- A piece of text that a recogniser matched: the name it is about, with the
text before and after the name that belongs to the match. -/
structure Found where
  lead : List Char
  name : List Char
  trail : List Char
  deriving Repr, DecidableEq

/-- Things that were matched in a text, with the text they cover. -/
class Matched (α : Type) where
  text : α → List Char

instance : Matched Found where
  text f := f.lead ++ f.name ++ f.trail

/-- A recogniser is given the character before the place it is asked about, if
there is one, and the text from there on. What it finds is a piece of text at
the front. -/
abbrev Recogniser (α : Type) := Option Char → List Char → Option α

/-- Recognise a name by what stands before it, the name itself and what stands
after it. -/
def naming (lead name trail : Reader) (cs : List Char) : Option Found :=
  match lead cs with
  | none => none
  | some (l, rest) =>
      match name rest with
      | none => none
      | some (n, rest') => (trail rest').map fun t => ⟨l, n, t.1⟩

/-- Recognise an identifier by what stands before and after it, from the start
of a word on. -/
def wordNaming (lead trail : Reader) : Recogniser Found := fun previous cs =>
  if opensWord previous then naming lead identifier trail cs else none

/-- A match, the text before it, last character first, and the byte offset at which
it starts. -/
structure Occurrence (α : Type) where
  behind : List Char
  offset : Nat
  found : α
  deriving Repr, DecidableEq

/-- The occurrences in a text. `skip` characters still belong to the match before;
`behind` is what stands before the text, last character first, and `offset` its
length in bytes. -/
def occurrencesFrom {α : Type} [Matched α] (r : Recogniser α) :
    (skip : Nat) → (behind : List Char) → (offset : Nat) → List Char → List (Occurrence α)
  | _, _, _, [] => []
  | skip + 1, behind, offset, c :: cs =>
      occurrencesFrom r skip (c :: behind) (offset + c.utf8Size) cs
  | 0, behind, offset, c :: cs =>
      match r behind.head? (c :: cs) with
      | some found =>
          let skip := (Matched.text found).length - 1
          ⟨behind, offset, found⟩ ::
            occurrencesFrom r skip (c :: behind) (offset + c.utf8Size) cs
      | none => occurrencesFrom r 0 (c :: behind) (offset + c.utf8Size) cs

/-- The occurrences in a text, in order and without overlap. -/
def occurrences {α : Type} [Matched α] (r : Recogniser α) (text : List Char) :
    List (Occurrence α) :=
  occurrencesFrom r 0 [] 0 text

namespace Occurrence

/-- The byte offset of the name of a match. -/
def start (o : Occurrence Found) : Nat :=
  o.offset + byteLength o.found.lead

/-- The byte offset behind the name of a match. -/
def stop (o : Occurrence Found) : Nat :=
  o.start + byteLength o.found.name

/-- The name of a match. -/
def name (o : Occurrence Found) : String :=
  String.ofList o.found.name

end Occurrence

end TradeScript.Scan
