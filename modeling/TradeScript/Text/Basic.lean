/-!
# TradeScript.Text.Basic

Measures of a text. A text is a list of characters; its length is counted in
two other units as well: the bytes of its UTF-8 encoding, in which scanners give
offsets, and UTF-16 code units, in which editors give columns.
-/

namespace TradeScript.Text

/-- The number of UTF-16 code units of a character. -/
def units (c : Char) : Nat :=
  if c.toNat < 0x10000 then 1 else 2

/-- The number of bytes of the UTF-8 encoding of a text. -/
def byteLength : List Char → Nat
  | [] => 0
  | c :: cs => c.utf8Size + byteLength cs

@[simp] theorem byteLength_nil : byteLength [] = 0 := rfl

@[simp] theorem byteLength_cons (c : Char) (cs : List Char) :
    byteLength (c :: cs) = c.utf8Size + byteLength cs := rfl

theorem byteLength_append (as bs : List Char) :
    byteLength (as ++ bs) = byteLength as + byteLength bs := by
  induction as with
  | nil => simp
  | cons a as ih => simp [ih, Nat.add_assoc]

/-- The UTF-16 column of a byte offset: the units of the characters that start
before it. An offset inside a character counts that character. -/
def unitColumn : List Char → Nat → Nat
  | [], _ => 0
  | _ :: _, 0 => 0
  | c :: cs, n + 1 => units c + unitColumn cs (n + 1 - c.utf8Size)

/-- The UTF-16 column of a byte offset as positions have it, in 32 bits. -/
def column (cs : List Char) (n : Nat) : UInt32 :=
  .ofNatClamp (unitColumn cs n)

/-- The number of UTF-16 code units of a text. -/
def unitLength (cs : List Char) : Nat :=
  unitColumn cs (byteLength cs)

/-- The characters that start before a byte offset. -/
def takeBytes : Nat → List Char → List Char
  | _, [] => []
  | 0, _ :: _ => []
  | n + 1, c :: cs => c :: takeBytes (n + 1 - c.utf8Size) cs

/-- The characters that start at or behind a byte offset. -/
def dropBytes : Nat → List Char → List Char
  | _, [] => []
  | 0, c :: cs => c :: cs
  | n + 1, c :: cs => dropBytes (n + 1 - c.utf8Size) cs

/-- The characters of a text, each with its byte offset, the first of which is
`offset`. -/
def withOffsets (offset : Nat) : List Char → List (Nat × Char)
  | [] => []
  | c :: cs => (offset, c) :: withOffsets (offset + c.utf8Size) cs

/-- Cut a text at every `sep`. There is always at least one piece, and the
pieces joined by `sep` give the text back (`joinWith_splitAt`). -/
def splitAt (sep : Char) : List Char → List (List Char)
  | [] => [[]]
  | c :: cs =>
      if c = sep then [] :: splitAt sep cs
      else
        match splitAt sep cs with
        | [] => [[c]]
        | p :: ps => (c :: p) :: ps

/-- The pieces with `sep` between each two neighbours. -/
def joinWith (sep : Char) : List (List Char) → List Char
  | [] => []
  | [p] => p
  | p :: q :: ps => p ++ sep :: joinWith sep (q :: ps)

theorem splitAt_ne_nil (sep : Char) (cs : List Char) : splitAt sep cs ≠ [] := by
  cases cs with
  | nil => simp [splitAt]
  | cons c cs =>
      rw [splitAt]
      split
      · simp
      · split <;> simp

theorem joinWith_cons_cons (sep : Char) (c : Char) (p : List Char) (ps : List (List Char)) :
    joinWith sep ((c :: p) :: ps) = c :: joinWith sep (p :: ps) := by
  cases ps <;> simp [joinWith]

theorem joinWith_splitAt (sep : Char) (cs : List Char) : joinWith sep (splitAt sep cs) = cs := by
  induction cs with
  | nil => rfl
  | cons c cs ih =>
      rw [splitAt]
      split
      case isTrue h =>
        cases hs : splitAt sep cs with
        | nil => exact absurd hs (splitAt_ne_nil sep cs)
        | cons p ps => rw [hs] at ih; simp [joinWith, ih, h]
      case isFalse h =>
        cases hs : splitAt sep cs with
        | nil => exact absurd hs (splitAt_ne_nil sep cs)
        | cons p ps => rw [hs] at ih; simp only [joinWith_cons_cons, ih]

/-- Cut a text at every character of the class, which belongs to no piece. -/
def pieces (p : Char → Bool) : List Char → List (List Char)
  | [] => [[]]
  | c :: cs =>
      if p c then [] :: pieces p cs
      else
        match pieces p cs with
        | [] => [[c]]
        | q :: qs => (c :: q) :: qs

/-- What follows the given piece at the front of a text, if it stands there. -/
def after? (piece cs : List Char) : Option (List Char) :=
  if piece.isPrefixOf cs then some (cs.drop piece.length) else none

/-- Does the text end in the given piece? -/
def endsIn (piece cs : List Char) : Bool :=
  piece.reverse.isPrefixOf cs.reverse

/-- Does the piece stand anywhere in the text? -/
def contains (piece : List Char) : List Char → Bool
  | [] => piece.isEmpty
  | c :: cs => piece.isPrefixOf (c :: cs) || contains piece cs

end TradeScript.Text
