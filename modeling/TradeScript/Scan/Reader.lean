import TradeScript.Text.Basic
import TradeScript.Text.Blank
import TradeScript.Text.Word

/-!
# TradeScript.Scan.Reader

The small readers that the recognisers of declarations, calls and directives are
made of. A reader takes a piece off the front of a text and gives the piece and
the rest; the two together are the text (`Reader.Faithful`). Readers take as much
as they can and never try again with less: in every pattern of this library what
may follow a piece cannot also continue it.
-/

namespace TradeScript.Scan

open Text (isBlank isWord)

/-- A letter or underscore of ASCII, which may start an identifier. -/
def isNameStart (c : Char) : Bool :=
  c.isAlpha || c == '_'

/-- A letter, digit or underscore of ASCII, which may stand in an identifier. -/
def isNamePart (c : Char) : Bool :=
  c.isAlphanum || c == '_'

/-- Is the text an identifier, as a whole? -/
def isIdentifier : List Char → Bool
  | [] => false
  | c :: cs => isNameStart c && cs.all isNamePart

/-- Does a word boundary lie between the character before a word and the word? -/
def opensWord : Option Char → Bool
  | none => true
  | some c => !isWord c

/-- Does a word boundary lie between a word and the text after it? -/
def closesWord : List Char → Bool
  | [] => true
  | c :: _ => !isWord c

/-- Does a word start or end between a character and the text after it? -/
def wordEdge (previous : Option Char) (cs : List Char) : Bool :=
  opensWord previous != closesWord cs

/-- A reader splits a text into the piece it takes and the rest, or fails. -/
abbrev Reader := List Char → Option (List Char × List Char)

/-- A reader that loses nothing: the piece and the rest are the text. -/
def Reader.Faithful (r : Reader) : Prop :=
  ∀ cs piece rest, r cs = some (piece, rest) → piece ++ rest = cs

/-! ### Readers for single pieces -/

/-- Take nothing. -/
def nothing : Reader := fun cs =>
  some ([], cs)

/-- Take nothing, where a word ends. -/
def wordEnd : Reader := fun cs =>
  if closesWord cs then some ([], cs) else none

/-- Take one character of the class. -/
def single (p : Char → Bool) : Reader := fun cs =>
  match cs with
  | [] => none
  | c :: rest => if p c then some ([c], rest) else none

/-- Take the longest piece of characters in the class, which may be empty. -/
def manyOf (p : Char → Bool) : Reader := fun cs =>
  some (cs.takeWhile p, cs.dropWhile p)

/-- Take the longest piece of characters in the class, which may not be empty. -/
def someOf (p : Char → Bool) : Reader := fun cs =>
  match cs with
  | [] => none
  | c :: _ => if p c then manyOf p cs else none

/-- Take the blanks at the front, if any. -/
def blanks : Reader := manyOf isBlank

/-- Take the blanks at the front, of which there has to be one. -/
def gap : Reader := someOf isBlank

/-- Take the identifier at the front. -/
def identifier : Reader := fun cs =>
  match cs with
  | [] => none
  | c :: _ => if isNameStart c then manyOf isNamePart cs else none

/-- Take the given text at the front. -/
def exactly (piece : List Char) : Reader := fun cs =>
  (Text.after? piece cs).map fun rest => (piece, rest)

/-- Take the piece that `r` takes, if it passes the test. -/
def passing (test : List Char → Bool) (r : Reader) : Reader := fun cs =>
  (r cs).filter fun taken => test taken.1

/-- Take the identifier at the front, if it is one of the words. -/
def wordOf (words : List String) : Reader :=
  passing (fun word => words.contains (String.ofList word)) identifier

/-! ### Readers for several pieces -/

/-- Take the pieces of all readers, one after the other. -/
def inTurn : List Reader → Reader
  | [] => nothing
  | r :: rs => fun cs =>
      match r cs with
      | none => none
      | some (piece, rest) => (inTurn rs rest).map fun more => (piece ++ more.1, more.2)

/-- Take the piece of the first reader that does not fail. -/
def oneOf : List Reader → Reader
  | [] => fun _ => none
  | r :: rs => fun cs => (r cs).or (oneOf rs cs)

/-- Take the piece of the reader, or nothing. -/
def optional (r : Reader) : Reader :=
  oneOf [r, nothing]

/-- Take the pieces that the reader takes when used again and again, at most
`limit` times. -/
def repeatUpTo (r : Reader) : Nat → Reader
  | 0 => nothing
  | limit + 1 => optional (fun cs =>
      match r cs with
      | none => none
      | some (piece, rest) =>
          (repeatUpTo r limit rest).map fun more => (piece ++ more.1, more.2))

/-- Take the pieces that the reader takes when used again and again. A piece has
at least one character, so the length of the text bounds their number. -/
def repeated (r : Reader) : Reader := fun cs =>
  match r cs with
  | none => nothing cs
  | some (piece, rest) =>
      (repeatUpTo r rest.length rest).map fun more => (piece ++ more.1, more.2)

/-- A mark that makes a declared name a reference or a pointer. -/
def isReferenceMark (c : Char) : Bool :=
  c == '&' || c == '*'

/-- Take what may stand between a type and the name it declares: a reference
mark with blanks around it, or just blanks. -/
def separator : Reader :=
  oneOf [inTurn [blanks, single isReferenceMark, blanks], gap]

/-- Take blanks and the parenthesis that opens an argument list. -/
def openParen : Reader :=
  inTurn [blanks, exactly ['(']]

/-! ### Readers are faithful -/

theorem nothing_faithful : nothing.Faithful := by
  intro cs piece rest h
  simp only [nothing, Option.some.injEq, Prod.mk.injEq] at h
  obtain ⟨rfl, rfl⟩ := h
  rfl

theorem wordEnd_faithful : wordEnd.Faithful := by
  intro cs piece rest h
  unfold wordEnd at h
  split at h
  · exact nothing_faithful cs piece rest h
  · simp at h

theorem single_faithful (p : Char → Bool) : (single p).Faithful := by
  intro cs piece rest h
  unfold single at h
  split at h
  · simp at h
  · split at h
    · simp only [Option.some.injEq, Prod.mk.injEq] at h
      obtain ⟨rfl, rfl⟩ := h
      rfl
    · simp at h

theorem manyOf_faithful (p : Char → Bool) : (manyOf p).Faithful := by
  intro cs piece rest h
  simp only [manyOf, Option.some.injEq, Prod.mk.injEq] at h
  obtain ⟨rfl, rfl⟩ := h
  exact List.takeWhile_append_dropWhile

theorem someOf_faithful (p : Char → Bool) : (someOf p).Faithful := by
  intro cs piece rest h
  unfold someOf at h
  split at h
  · simp at h
  · split at h
    · exact manyOf_faithful p _ piece rest h
    · simp at h

theorem identifier_faithful : identifier.Faithful := by
  intro cs piece rest h
  unfold identifier at h
  split at h
  · simp at h
  · split at h
    · exact manyOf_faithful isNamePart _ piece rest h
    · simp at h

theorem exactly_faithful (piece : List Char) : (exactly piece).Faithful := by
  intro cs taken rest h
  simp only [exactly, Text.after?, Option.map_eq_some_iff, Prod.mk.injEq] at h
  obtain ⟨rest', h', rfl, rfl⟩ := h
  split at h'
  · rename_i hp
    simp only [Option.some.injEq] at h'
    obtain ⟨t, rfl⟩ := List.isPrefixOf_iff_prefix.mp hp
    simp [← h']
  · simp at h'

theorem passing_faithful {test : List Char → Bool} {r : Reader} (hr : r.Faithful) :
    (passing test r).Faithful := by
  intro cs piece rest h
  simp only [passing, Option.filter_eq_some_iff] at h
  exact hr cs piece rest h.1

theorem wordOf_faithful (words : List String) : (wordOf words).Faithful :=
  passing_faithful identifier_faithful

theorem inTurn_faithful {rs : List Reader} (hrs : ∀ r ∈ rs, r.Faithful) :
    (inTurn rs).Faithful := by
  induction rs with
  | nil => exact nothing_faithful
  | cons r rs ih =>
      intro cs piece rest h
      simp only [inTurn] at h
      split at h
      · simp at h
      · rename_i p r' hp
        simp only [Option.map_eq_some_iff, Prod.mk.injEq] at h
        obtain ⟨⟨q, r''⟩, hq, rfl, rfl⟩ := h
        have hrest := ih (fun r hr => hrs r (List.mem_cons_of_mem _ hr)) _ _ _ hq
        rw [List.append_assoc, hrest]
        exact hrs r List.mem_cons_self _ _ _ hp

theorem oneOf_faithful {rs : List Reader} (hrs : ∀ r ∈ rs, r.Faithful) :
    (oneOf rs).Faithful := by
  induction rs with
  | nil => intro cs piece rest h; simp [oneOf] at h
  | cons r rs ih =>
      intro cs piece rest h
      simp only [oneOf, Option.or_eq_some_iff] at h
      rcases h with h | ⟨_, h⟩
      · exact hrs r List.mem_cons_self _ _ _ h
      · exact ih (fun r hr => hrs r (List.mem_cons_of_mem _ hr)) _ _ _ h

end TradeScript.Scan
