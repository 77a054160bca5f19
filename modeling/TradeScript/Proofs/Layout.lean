import TradeScript.Proofs.Place

/-!
# TradeScript.Proofs.Layout

Finding the line of an offset by bisection. While the bare lines are laid one behind the
other, the offset at which each of them starts can be written down (`Layout`). The line of
an offset is then the last one that starts at or before it, and bisection finds it.

That is how `Document.locate` answers too, although it goes through the lines one after
another (`Document.WellFormed.placeOf_eq`). As long as all lines have numbers of 32 bits, it
inverts the starts: start and column add up to the offset again, also where the offset lies
past the end, and a column that its line has is found again behind the line's start
(`locate_inverts_starts`).
-/

namespace TradeScript

open Text (byteLength byteLength_append byteLength_cons)

/-! ### Laying out lines -/

/-- Lines laid one behind the other: their text, and the offset in it at which each of them
starts. -/
structure Layout where
  text : List Char := []
  starts : List Nat := []

namespace Layout

/-- Lay one more line behind the others. A newline goes before it, unless it is the first. -/
def push (layout : Layout) (line : List Char) : Layout :=
  let front := if layout.starts = [] then layout.text else layout.text ++ ['\n']
  ⟨front ++ line, layout.starts ++ [byteLength front]⟩

/-- Lay out lines one after another. -/
def ofLines (lines : List (List Char)) : Layout :=
  lines.foldl push {}

/-- Where a line starts that comes after the lines `above`. -/
def startAfter (above : List (List Char)) : Nat :=
  byteLength (Text.joinWith '\n' (above ++ [[]]))

/-- The layout is that of the lines. -/
structure Of (lines : List (List Char)) (layout : Layout) : Prop where
  text_eq : layout.text = Text.joinWith '\n' lines
  length_starts : layout.starts.length = lines.length
  start {above : List (List Char)} {line : List Char} {below : List (List Char)} :
    lines = above ++ line :: below → layout.starts[above.length]? = some (startAfter above)

variable {layout : Layout} {lines : List (List Char)}

theorem Of.nil : Of [] {} where
  text_eq := rfl
  length_starts := rfl
  start h := by simp at h

/-- With one more line, the layout of the lines becomes that of one line more. -/
theorem Of.push (h : Of lines layout) (line : List Char) :
    Of (lines ++ [line]) (layout.push line) := by
  have hfront : (if layout.starts = [] then layout.text else layout.text ++ ['\n']) =
      Text.joinWith '\n' (lines ++ [[]]) := by
    have hempty : layout.starts = [] ↔ lines = [] := by
      rw [← List.length_eq_zero_iff, h.length_starts, List.length_eq_zero_iff]
    rw [h.text_eq]
    split
    · rename_i hstarts
      rw [hempty.mp hstarts]
      rfl
    · rename_i hstarts
      exact (Text.joinWith_append '\n' (mt hempty.mpr hstarts) (List.cons_ne_nil [] [])).symm
  refine ⟨?_, ?_, fun {above last below} hlines => ?_⟩
  · rw [Layout.push, hfront, ← Text.joinWith_concat_append, List.nil_append]
  · simp only [Layout.push, List.length_append, List.length_singleton, h.length_starts]
  · simp only [Layout.push, hfront]
    rcases List.eq_nil_or_concat below with rfl | ⟨below, final, rfl⟩
    · -- It is the new line.
      obtain ⟨rfl, -⟩ := List.append_inj' hlines rfl
      rw [← h.length_starts, List.getElem?_concat_length]
      rfl
    · rw [List.concat_eq_append, ← List.cons_append, ← List.append_assoc] at hlines
      obtain ⟨rfl, -⟩ := List.append_inj' hlines rfl
      have hlt : above.length < layout.starts.length := by
        rw [h.length_starts, List.length_append, List.length_cons]
        omega
      rw [List.getElem?_append_left hlt]
      exact h.start rfl

theorem Of.foldl_push (h : Of lines layout) (more : List (List Char)) :
    Of (lines ++ more) (more.foldl Layout.push layout) := by
  induction more generalizing lines layout with
  | nil =>
      rw [List.append_nil]
      exact h
  | cons line more ih =>
      rw [← List.singleton_append, ← List.append_assoc]
      exact ih (h.push line)

theorem ofLines_of (lines : List (List Char)) : Of lines (ofLines lines) :=
  Of.nil.foldl_push lines

theorem exists_append_of_getElem? {n : Nat} {line : List Char} (h : lines[n]? = some line) :
    ∃ above below, lines = above ++ line :: below ∧ above.length = n := by
  obtain ⟨hlt, rfl⟩ := List.getElem?_eq_some_iff.mp h
  exact ⟨lines.take n, lines.drop (n + 1), by simp, List.length_take_of_le (Nat.le_of_lt hlt)⟩

/-! ### Bisection -/

/-- The first of the `size` numbers from `base` on that fails the test, found by halving. It
is `base + size` where all of them pass. -/
def bisect (test : Nat → Bool) (base size : Nat) : Nat :=
  if size = 0 then base
  else if test (base + size / 2) then bisect test (base + size / 2 + 1) (size - size / 2 - 1)
  else bisect test base (size / 2)
termination_by size

/-- Where the numbers that pass come before those that fail, bisection finds the border. -/
theorem bisect_eq {test : Nat → Bool} {border base size : Nat}
    (htest : ∀ n, test n = true ↔ n < border) (hbase : base ≤ border)
    (hborder : border ≤ base + size) : bisect test base size = border := by
  fun_induction bisect test base size with
  | case1 base => omega
  | case2 base size hsize hpass ih =>
      have := (htest _).mp hpass
      exact ih (by omega) (by omega)
  | case3 base size hsize hfail ih =>
      have := mt (htest _).mpr hfail
      exact ih hbase (by omega)

/-- The line and the column of an offset: the last line that starts at or before it, and how
far behind the start of the line it is. -/
def placeOf (layout : Layout) (offset : Nat) : Nat × Nat :=
  let started := bisect (fun n => layout.starts[n]?.any (· ≤ offset)) 0 layout.starts.length
  (started - 1, offset - layout.starts[started - 1]?.getD 0)

/-- The same, with the number that positions have for the line. -/
def locate (layout : Layout) (offset : Nat) : UInt32 × Nat :=
  let (index, column) := layout.placeOf offset
  (.ofNatClamp index, column)

end Layout

/-! ### Offsets and starts -/

namespace Document

open Layout (startAfter)

variable {doc : Document}

theorem startAfter_cons (p : List Char) (above : List (List Char)) :
    startAfter (p :: above) = byteLength p + 1 + startAfter above := by
  rw [startAfter, List.cons_append, Text.joinWith_cons_of_ne_nil '\n' p (by simp),
    byteLength_append, byteLength_cons, show '\n'.utf8Size = 1 from rfl, Nat.add_assoc]
  rfl

/-- A column that the line has is found behind the line's start. It need not be the column of
a character. -/
theorem locateIn_startAfter_add (above below : List (List Char)) {line : List Char} {column : Nat}
    (h : column ≤ byteLength line) :
    locateIn ((above ++ line :: below).map byteLength) (startAfter above + column) =
      (above.length, column) := by
  -- Any text of that length will do as what stands before the column.
  have hlength := byteLength_replicate_space column
  rw [← hlength] at h
  have hlocate := locateIn_joinWith above below h
  rw [← List.nil_append (List.replicate column ' '), Text.joinWith_concat_append,
    byteLength_append, List.nil_append, hlength] at hlocate
  exact hlocate

/-- Every offset is some column behind the start of the line on which it is found. Unless it
lies past the end, the line has that column. -/
theorem exists_line_of_locateIn {lines : List (List Char)} (hne : lines ≠ []) (offset : Nat) :
    ∃ above line below column, lines = above ++ line :: below ∧
      locateIn (lines.map byteLength) offset = (above.length, column) ∧
      startAfter above + column = offset ∧
      (offset ≤ byteLength (Text.joinWith '\n' lines) → column ≤ byteLength line) := by
  induction lines generalizing offset with
  | nil => exact absurd rfl hne
  | cons line lines ih =>
      cases lines with
      | nil => exact ⟨[], line, [], offset, rfl, rfl, Nat.zero_add offset, id⟩
      | cons next rest =>
          rcases Nat.lt_or_ge (byteLength line) offset with hlt | hle
          · obtain ⟨behind, rfl⟩ : ∃ behind, offset = byteLength line + 1 + behind :=
              ⟨offset - (byteLength line + 1), by omega⟩
            obtain ⟨above, found, below, column, hlines, hlocate, hsum, hcolumn⟩ :=
              ih (List.cons_ne_nil next rest) behind
            refine ⟨line :: above, found, below, column, congrArg _ hlines, ?_, ?_, fun hend => ?_⟩
            · rw [List.map_cons] at hlocate
              rw [List.map_cons, List.map_cons, locateIn_add, hlocate, List.length_cons]
            · rw [startAfter_cons]
              omega
            · rw [Text.joinWith, byteLength_append, byteLength_cons,
                show '\n'.utf8Size = 1 from rfl] at hend
              exact hcolumn (by omega)
          · exact ⟨[], line, next :: rest, offset, rfl, locateIn_of_le hle, Nat.zero_add offset,
              fun _ => hle⟩

/-- The lines that start at or before an offset are those up to the one on which it is
found. -/
theorem startAfter_le_iff (above below : List (List Char)) (line : List Char) (offset : Nat) :
    startAfter above ≤ offset ↔
      above.length ≤ (locateIn ((above ++ line :: below).map byteLength) offset).1 := by
  have hstart := locateIn_startAfter_add above below (Nat.zero_le (byteLength line))
  rw [Nat.add_zero] at hstart
  rcases Nat.lt_trichotomy (startAfter above) offset with hlt | rfl | hgt
  · have hlex := locateIn_lex ((above ++ line :: below).map byteLength) hlt
    rw [hstart] at hlex
    omega
  · rw [hstart]
    exact ⟨fun _ => Nat.le_refl _, fun _ => Nat.le_refl _⟩
  · have hlex := locateIn_lex ((above ++ line :: below).map byteLength) hgt
    rw [hstart] at hlex
    omega

/-- Going through the lines one after another finds what bisection finds. -/
theorem locateIn_eq_placeOf {lines : List (List Char)} (hne : lines ≠ []) {layout : Layout}
    (hlayout : layout.Of lines) (offset : Nat) :
    locateIn (lines.map byteLength) offset = layout.placeOf offset := by
  obtain ⟨above, line, below, column, hlines, hlocate, hsum, -⟩ :=
    exists_line_of_locateIn hne offset
  have htest : ∀ n, layout.starts[n]?.any (· ≤ offset) = true ↔ n < above.length + 1 := by
    intro n
    cases hn : lines[n]? with
    | some other =>
        obtain ⟨above', below', hsplit, rfl⟩ := Layout.exists_append_of_getElem? hn
        have hle := startAfter_le_iff above' below' other offset
        rw [← hsplit, hlocate] at hle
        rw [hlayout.start hsplit, Option.any_some, decide_eq_true_iff, hle, Nat.lt_succ_iff]
    | none =>
        have hge := List.getElem?_eq_none_iff.mp hn
        have hnone : layout.starts[n]? = none :=
          List.getElem?_eq_none (hlayout.length_starts ▸ hge)
        rw [hlines, List.length_append, List.length_cons] at hge
        rw [hnone, Option.any_none]
        simp only [Bool.false_eq_true, false_iff]
        omega
  have hstarted : Layout.bisect (fun n => layout.starts[n]?.any (· ≤ offset)) 0
      layout.starts.length = above.length + 1 := by
    refine Layout.bisect_eq htest (Nat.zero_le _) ?_
    rw [hlayout.length_starts, hlines, List.length_append, List.length_cons]
    omega
  rw [Layout.placeOf, hstarted, Nat.add_sub_cancel, hlayout.start hlines, hlocate, Option.getD_some,
    ← hsum, Nat.add_sub_cancel_left]

/-- The layout of the bare lines. -/
def layout (doc : Document) : Layout :=
  Layout.ofLines (doc.lines.map Line.bare)

theorem WellFormed.lengths_eq_map (wf : doc.WellFormed) :
    doc.lengths = (doc.lines.map Line.bare).map byteLength := by
  rw [wf.lengths_eq, List.map_map]
  rfl

theorem WellFormed.bares_ne_nil (wf : doc.WellFormed) : doc.lines.map Line.bare ≠ [] :=
  mt List.map_eq_nil_iff.mp wf.lines_ne_nil

/-- The line of an offset can be found by bisection. -/
theorem WellFormed.placeOf_eq (wf : doc.WellFormed) (offset : Nat) :
    doc.placeOf offset = doc.layout.placeOf offset := by
  rw [placeOf, wf.lengths_eq_map]
  exact locateIn_eq_placeOf wf.bares_ne_nil (Layout.ofLines_of _) offset

/-- Start and column of an offset add up to it. -/
theorem WellFormed.exists_start_add (wf : doc.WellFormed) (offset : Nat) :
    ∃ line start, doc.lines[(doc.placeOf offset).1]? = some line ∧
      doc.layout.starts[(doc.placeOf offset).1]? = some start ∧
      start + (doc.placeOf offset).2 = offset ∧
      (offset ≤ byteLength doc.bareText → (doc.placeOf offset).2 ≤ byteLength line.bare) := by
  obtain ⟨above, bare, below, column, hbares, hplace, hsum, hcolumn⟩ :=
    exists_line_of_locateIn wf.bares_ne_nil offset
  have hget : (doc.lines.map Line.bare)[above.length]? = some bare := by simp [hbares]
  rw [List.getElem?_map, Option.map_eq_some_iff] at hget
  obtain ⟨line, hline, rfl⟩ := hget
  rw [← wf.lengths_eq_map] at hplace
  rw [placeOf, hplace]
  exact ⟨line, startAfter above, hline, (Layout.ofLines_of _).start hbares, hsum, hcolumn⟩

/-- The columns of a line are found again behind its start. -/
theorem WellFormed.placeOf_start_add (wf : doc.WellFormed) {number : Nat} {line : Line}
    (h : doc.lines[number]? = some line) :
    ∃ start, doc.layout.starts[number]? = some start ∧
      ∀ column ≤ byteLength line.bare, doc.placeOf (start + column) = (number, column) := by
  have hbare : (doc.lines.map Line.bare)[number]? = some line.bare := by
    rw [List.getElem?_map, h, Option.map_some]
  obtain ⟨above, below, hbares, rfl⟩ := Layout.exists_append_of_getElem? hbare
  refine ⟨startAfter above, (Layout.ofLines_of _).start hbares, fun column hcolumn => ?_⟩
  rw [placeOf, wf.lengths_eq_map, hbares]
  exact locateIn_startAfter_add above below hcolumn

/-- With no more lines than numbers of 32 bits, no line is given the number of another. -/
theorem WellFormed.toNat_locate (wf : doc.WellFormed) (hlines : doc.lineCount < UInt32.size)
    (offset : Nat) : (doc.locate offset).1.toNat = (doc.placeOf offset).1 :=
  UInt32.toNat_ofNatClamp_of_lt (Nat.lt_trans (wf.placeOf_lt offset) hlines)

end Document

/-- The line and column of an offset are those that bisection finds among the starts of the
lines. The start and the column add up to the offset, so whatever the offset is, no start is
taken from it that is greater. Up to the end of the text the line has the column. And every
column of every line is found again from the offset that it makes with the line's start. -/
theorem locate_inverts_starts (text : String)
    (hlines : (Document.ofText text.toList).lineCount < UInt32.size) :
    let doc := Document.ofText text.toList
    doc.layout.text = doc.bareText ∧ doc.layout.starts.length = doc.lineCount ∧
    (∀ offset, doc.locate offset = doc.layout.locate offset ∧
      ∃ line start, doc.lines[(doc.locate offset).1.toNat]? = some line ∧
        doc.layout.starts[(doc.locate offset).1.toNat]? = some start ∧
        start + (doc.locate offset).2 = offset ∧
        (offset ≤ byteLength doc.bareText → (doc.locate offset).2 ≤ byteLength line.bare)) ∧
    ∀ number line, doc.lines[number]? = some line →
      ∃ start, doc.layout.starts[number]? = some start ∧
        ∀ column ≤ byteLength line.bare,
          (doc.locate (start + column)).1.toNat = number ∧
            (doc.locate (start + column)).2 = column := by
  intro doc
  have wf : doc.WellFormed := Document.ofText_wellFormed text.toList
  have hlayout : doc.layout.Of (doc.lines.map Line.bare) := Layout.ofLines_of _
  refine ⟨hlayout.text_eq, ?_, fun offset => ⟨?_, ?_⟩, fun number line hline => ?_⟩
  · rw [hlayout.length_starts, List.length_map, Document.lineCount]
  · rw [Document.locate, wf.placeOf_eq, Layout.locate]
  · rw [wf.toNat_locate hlines]
    exact wf.exists_start_add offset
  · obtain ⟨start, hstart, hcolumns⟩ := wf.placeOf_start_add hline
    refine ⟨start, hstart, fun column hcolumn => ?_⟩
    have hplace := hcolumns column hcolumn
    rw [wf.toNat_locate hlines, hplace]
    exact ⟨rfl, congrArg Prod.snd hplace⟩

/-- An empty line between others, the end of a line, and an offset past the end. -/
theorem locate_inverts_starts_around_empty_line :
    let doc := Document.ofText "é\n\nab".toList
    let first : Line := ⟨['é'], ['é'], ['é']⟩
    let empty : Line := ⟨[], [], []⟩
    doc.lineCount < UInt32.size ∧ doc.lines[1]? = some empty ∧ doc.layout.starts = [0, 3, 4] ∧
      (∀ column ≤ byteLength empty.bare,
        (doc.locate (3 + column)).1.toNat = 1 ∧ (doc.locate (3 + column)).2 = column) ∧
      doc.locate 2 = (0, 2) ∧ 2 ≤ byteLength doc.bareText ∧ 2 ≤ byteLength first.bare ∧
      doc.layout.locate 9 = (2, 5) := by
  intro doc first empty
  have hlines : doc.lineCount < UInt32.size := by decide +kernel
  obtain ⟨-, -, hoffset, hcolumns⟩ := locate_inverts_starts "é\n\nab" hlines
  have hempty : doc.lines[1]? = some empty := by decide +kernel
  have hstarts : doc.layout.starts = [0, 3, 4] := by decide +kernel
  have hend : doc.locate 2 = (0, 2) := by decide +kernel
  have hlength : 2 ≤ byteLength doc.bareText := by decide +kernel
  refine ⟨hlines, hempty, hstarts, ?_, hend, hlength, ?_, ?_⟩
  · obtain ⟨start, hstart, hfound⟩ := hcolumns 1 empty hempty
    obtain rfl : 3 = start := by
      have hstart : doc.layout.starts[1]? = some start := hstart
      rw [hstarts] at hstart
      exact Option.some.inj hstart
    exact hfound
  · obtain ⟨-, line, -, hline, -, -, hcolumn⟩ := hoffset 2
    obtain rfl : first = line := by
      have hline : doc.lines[(doc.locate 2).1.toNat]? = some line := hline
      have hfirst : doc.lines[0]? = some first := by decide +kernel
      rw [hend] at hline
      exact Option.some.inj (hfirst.symm.trans hline)
    have hcolumn : (doc.locate 2).2 ≤ byteLength first.bare := hcolumn hlength
    rw [hend] at hcolumn
    exact hcolumn
  · have hpast : doc.locate 9 = (2, 5) := by decide +kernel
    exact (hoffset 9).1.symm.trans hpast

end TradeScript
