import TradeScript.Proofs.Location

/-!
# TradeScript.Proofs.Place

Characters of the bare text and the lines on which they stand. A check that goes line by
line knows the lines above a character and what stands before it on its line
(`StandsAt`); a statement about the bare text knows what stands before it in the text.
Both are the same: every character of the bare text that is no newline stands at one
place, the text before it is made of the lines above it and the front of its line
(`exists_standsAt`), and its offset leads back to its line and column
(`WellFormed.placeOf_textBefore`).
-/

namespace TradeScript

open Text (byteLength byteLength_append byteLength_cons)

namespace Text

theorem withOffsets_append (offset : Nat) (front back : List Char) :
    withOffsets offset (front ++ back) =
      withOffsets offset front ++ withOffsets (offset + byteLength front) back := by
  induction front generalizing offset with
  | nil => rfl
  | cons c front ih =>
      simp only [List.cons_append, withOffsets, ih, byteLength_cons, Nat.add_assoc]

theorem joinWith_cons_of_ne_nil (sep : Char) (p : List Char) {ps : List (List Char)}
    (h : ps ≠ []) : joinWith sep (p :: ps) = p ++ sep :: joinWith sep ps := by
  cases ps with
  | nil => exact absurd rfl h
  | cons q qs => rfl

theorem joinWith_append (sep : Char) {xs ys : List (List Char)} (hxs : xs ≠ [])
    (hys : ys ≠ []) : joinWith sep (xs ++ ys) = joinWith sep xs ++ sep :: joinWith sep ys := by
  induction xs with
  | nil => exact absurd rfl hxs
  | cons x xs ih =>
      by_cases hempty : xs = []
      · subst hempty
        exact joinWith_cons_of_ne_nil sep x hys
      · rw [List.cons_append, joinWith_cons_of_ne_nil sep x (by simp [hempty]),
          joinWith_cons_of_ne_nil sep x hempty, ih hempty, List.append_assoc, List.cons_append]

theorem joinWith_concat_append (sep : Char) (above : List (List Char)) (front back : List Char) :
    joinWith sep (above ++ [front ++ back]) = joinWith sep (above ++ [front]) ++ back := by
  induction above with
  | nil => rfl
  | cons p above ih =>
      rw [List.cons_append, List.cons_append, joinWith_cons_of_ne_nil sep p (by simp),
        joinWith_cons_of_ne_nil sep p (by simp), ih, List.append_assoc, List.cons_append]

/-- A character in one of the pieces: what stands before it, and behind it. -/
theorem joinWith_append_cons (sep c : Char) (above : List (List Char)) (front behind : List Char)
    (below : List (List Char)) :
    joinWith sep (above ++ (front ++ c :: behind) :: below) =
      joinWith sep (above ++ [front]) ++ c :: joinWith sep (behind :: below) := by
  induction above with
  | nil =>
      cases below with
      | nil => rfl
      | cons next below => simp [joinWith]
  | cons p above ih =>
      rw [List.cons_append, List.cons_append, joinWith_cons_of_ne_nil sep p (by simp),
        joinWith_cons_of_ne_nil sep p (by simp), ih]
      simp

/-- A character of the joined pieces that does not separate them stands in one of
them. -/
theorem exists_piece_of_joinWith {sep c : Char} {pieces : List (List Char)}
    {before after : List Char} (h : joinWith sep pieces = before ++ c :: after) (hc : c ≠ sep) :
    ∃ above front behind below, pieces = above ++ (front ++ c :: behind) :: below ∧
      before = joinWith sep (above ++ [front]) := by
  induction pieces generalizing before with
  | nil => simp [joinWith] at h
  | cons piece pieces ih =>
      by_cases hpieces : pieces = []
      · subst hpieces
        exact ⟨[], before, after, [], congrArg (· :: []) h, rfl⟩
      · rw [joinWith_cons_of_ne_nil sep piece hpieces] at h
        -- The character is in the first piece, or in one behind the separator.
        rcases List.append_eq_append_iff.mp h with ⟨gap, rfl, hrest⟩ | ⟨tail, rfl, hrest⟩
        · cases gap with
          | nil => exact absurd (List.cons.inj hrest).1.symm hc
          | cons g gap =>
              obtain ⟨rfl, hjoin⟩ := List.cons.inj hrest
              obtain ⟨above, front, behind, below, rfl, rfl⟩ := ih hjoin
              refine ⟨piece :: above, front, behind, below, rfl, ?_⟩
              rw [List.cons_append, joinWith_cons_of_ne_nil sep piece (by simp)]
        · cases tail with
          | nil => exact absurd (List.cons.inj hrest).1 hc
          | cons t tail =>
              obtain ⟨rfl, -⟩ := List.cons.inj hrest
              exact ⟨[], before, tail, pieces, rfl, rfl⟩

end Text

namespace Document

variable {doc : Document}

/-- The offset of a character of a line: the lines above it, and what stands before it. -/
theorem locateIn_joinWith (above below : List (List Char)) {line front : List Char}
    (h : byteLength front ≤ byteLength line) :
    locateIn ((above ++ line :: below).map byteLength)
        (byteLength (Text.joinWith '\n' (above ++ [front]))) =
      (above.length, byteLength front) := by
  induction above with
  | nil =>
      cases below with
      | nil => rfl
      | cons next below => exact locateIn_of_le h
  | cons p above ih =>
      have hoffset : byteLength (Text.joinWith '\n' (p :: (above ++ [front]))) =
          byteLength p + 1 + byteLength (Text.joinWith '\n' (above ++ [front])) := by
        rw [Text.joinWith_cons_of_ne_nil '\n' p (by simp), byteLength_append, byteLength_cons,
          show '\n'.utf8Size = 1 from rfl, Nat.add_assoc]
      obtain ⟨len, lengths, hlengths⟩ : ∃ len lengths,
          (above ++ line :: below).map byteLength = len :: lengths :=
        List.exists_cons_of_ne_nil (by simp)
      rw [List.cons_append, List.cons_append, List.map_cons, hoffset, hlengths, locateIn_add,
        ← hlengths, ih, List.length_cons]

/-- The bare text before a character that stands behind `front` on the line that comes
after the lines `above`. -/
def textBefore (above : List (Line × Nat)) (front : List Char) : List Char :=
  Text.joinWith '\n' (above.map (fun line => line.1.bare) ++ [front])

theorem textBefore_append (above : List (Line × Nat)) (front back : List Char) :
    textBefore above (front ++ back) = textBefore above front ++ back :=
  Text.joinWith_concat_append '\n' _ front back

/-- The last of the lines above, with its newline, is text before the character too. -/
theorem textBefore_concat (above : List (Line × Nat)) (line : Line × Nat) (front : List Char) :
    textBefore (above ++ [line]) front = textBefore above (line.1.bare ++ '\n' :: front) := by
  rw [textBefore_append, textBefore, textBefore, List.map_append,
    Text.joinWith_append '\n' (by simp) (by simp)]
  rfl

/-- The character stands behind `front` on line `number`, and `above` are the lines before
that one. -/
def StandsAt (doc : Document) (c : Char) (above : List (Line × Nat)) (number : Nat)
    (front : List Char) : Prop :=
  ∃ line below behind, doc.numbered = above ++ (line, number) :: below ∧
    line.bare = front ++ c :: behind

theorem lines_eq_map_numbered (doc : Document) : doc.lines = doc.numbered.map Prod.fst := by
  rw [numbered, List.zipIdx_map_fst]

theorem bareText_eq (doc : Document) :
    doc.bareText = Text.joinWith '\n' (doc.numbered.map fun line => line.1.bare) := by
  rw [bareText, doc.lines_eq_map_numbered, List.map_map]
  rfl

theorem StandsAt.bareText_eq {c : Char} {above : List (Line × Nat)} {number : Nat}
    {front : List Char} (h : doc.StandsAt c above number front) :
    ∃ after, doc.bareText = textBefore above front ++ c :: after := by
  obtain ⟨line, below, behind, hlines, hbare⟩ := h
  rw [Document.bareText_eq, hlines, List.map_append, List.map_cons, hbare,
    Text.joinWith_append_cons]
  exact ⟨_, rfl⟩

theorem WellFormed.placeOf_textBefore (wf : doc.WellFormed) {c : Char} {above : List (Line × Nat)}
    {number : Nat} {front : List Char} (h : doc.StandsAt c above number front) :
    doc.placeOf (byteLength (textBefore above front)) = (number, byteLength front) := by
  obtain ⟨line, below, behind, hlines, hbare⟩ := h
  have hnumber : above.length = number := by
    have hget : doc.numbered[above.length]? = some (line, number) := by simp [hlines]
    rw [numbered, List.getElem?_zipIdx, Option.map_eq_some_iff] at hget
    obtain ⟨_, -, hpair⟩ := hget
    simpa using (Prod.mk.inj hpair).2
  have hle : byteLength front ≤ byteLength line.bare := by
    rw [hbare, byteLength_append]
    exact Nat.le_add_right _ _
  have hlengths : doc.lengths = (doc.numbered.map fun line => line.1.bare).map byteLength := by
    rw [wf.lengths_eq, doc.lines_eq_map_numbered, List.map_map, List.map_map]
    rfl
  rw [placeOf, hlengths, hlines, List.map_append, List.map_cons, textBefore,
    locateIn_joinWith _ _ hle, List.length_map, hnumber]

theorem exists_standsAt {c : Char} {before after : List Char}
    (h : doc.bareText = before ++ c :: after) (hc : c ≠ '\n') :
    ∃ above number front, doc.StandsAt c above number front ∧ before = textBefore above front := by
  rw [bareText_eq] at h
  obtain ⟨above, front, behind, below, hpieces, hbefore⟩ := Text.exists_piece_of_joinWith h hc
  obtain ⟨aboveLines, rest, hlines, rfl, hrest⟩ := List.map_eq_append_iff.mp hpieces
  obtain ⟨⟨line, number⟩, belowLines, rfl, hbare, -⟩ := List.map_eq_cons_iff.mp hrest
  exact ⟨aboveLines, number, front, ⟨line, belowLines, behind, hlines, hbare⟩, hbefore⟩

end Document

end TradeScript
