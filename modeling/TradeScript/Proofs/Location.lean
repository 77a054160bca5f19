import TradeScript.Proofs.Measure
import TradeScript.Proofs.View

/-!
# TradeScript.Proofs.Location

Where the ranges of a document lead. A range made from byte offsets stays inside
the document (`Document.Contains`), however large the document is. In a document
whose lines and columns are numbers of 32 bits (`Document.Fits`), as those of every
text of less than 4 GiB are, a range made from the offsets of a token of a bare line,
or of the bare text, reads exactly that token on the line as written
(`Document.textAt?`).

The second fact joins three: the offset of a token in the bare text is found on
the token's line (`locateIn_join`), the bare line is a blanking of the raw line,
and columns are lengths of what stands before them.
-/

namespace TradeScript

open Text (byteLength byteLength_append byteLength_cons unitLength column)

namespace Text

theorem byteLength_le_of_mem_joinWith (sep : Char) {piece : List Char}
    {pieces : List (List Char)} (h : piece ∈ pieces) :
    byteLength piece ≤ byteLength (joinWith sep pieces) := by
  induction pieces with
  | nil => exact absurd h List.not_mem_nil
  | cons p ps ih =>
      cases ps with
      | nil => exact List.mem_singleton.mp h ▸ Nat.le_refl _
      | cons q qs =>
          rw [joinWith, byteLength_append, byteLength_cons]
          rcases List.mem_cons.mp h with rfl | h
          · exact Nat.le_add_right _ _
          · exact Nat.le_trans (ih h) (by omega)

theorem length_le_byteLength_joinWith (sep : Char) (pieces : List (List Char)) :
    pieces.length ≤ byteLength (joinWith sep pieces) + 1 := by
  induction pieces with
  | nil => exact Nat.zero_le _
  | cons p ps ih =>
      cases ps with
      | nil => exact Nat.le_add_left _ _
      | cons q qs =>
          have hsep := sep.utf8Size_pos
          rw [joinWith, byteLength_append, byteLength_cons, List.length_cons]
          omega

end Text

/-- Only at the end is something dropped. -/
theorem exists_dropReturn_append (cs : List Char) : ∃ rest, dropReturn cs ++ rest = cs := by
  fun_induction dropReturn cs with
  | case1 => exact ⟨[], rfl⟩
  | case2 => exact ⟨['\r'], rfl⟩
  | case3 c cs _ ih =>
      obtain ⟨rest, hrest⟩ := ih
      exact ⟨rest, by rw [List.cons_append, hrest]⟩

theorem byteLength_dropReturn_le (cs : List Char) : byteLength (dropReturn cs) ≤ byteLength cs := by
  obtain ⟨rest, hrest⟩ := exists_dropReturn_append cs
  rw [← congrArg byteLength hrest, byteLength_append]
  exact Nat.le_add_right _ _

/-- A text that is read as one piece: not empty, and without spaces and newlines. -/
structure IsToken (cs : List Char) : Prop where
  ne_nil : cs ≠ []
  no_space : ' ' ∉ cs
  no_newline : '\n' ∉ cs

/-- The range goes from one column of a line to another. -/
structure Range.Spans (range : Range) (number first last : Nat) : Prop where
  start_line : range.start.line.toNat = number
  stop_line : range.stop.line.toNat = number
  start_character : range.start.character.toNat = first
  stop_character : range.stop.character.toNat = last

namespace Document

/-- What every document made from a text satisfies. -/
structure WellFormed (doc : Document) : Prop where
  lines_ne_nil : doc.lines ≠ []
  lengths_eq : doc.lengths = doc.lines.map fun line => byteLength line.bare
  blanking : ∀ line ∈ doc.lines, Blanking line.raw line.bare

/-- A well-formed document whose lines and columns are numbers of 32 bits. -/
structure Fits (doc : Document) : Prop extends doc.WellFormed where
  lineCount_le : doc.lineCount ≤ UInt32.size
  unitLength_lt : ∀ line ∈ doc.lines, unitLength line.raw < UInt32.size

/-- The range lies on one line of the document, inside that line. -/
structure Contains (doc : Document) (r : Range) : Prop where
  one_line : r.start.line = r.stop.line
  line_lt : r.start.line.toNat < doc.lineCount
  start_le : r.start.character ≤ r.stop.character
  stop_le : r.stop.character ≤ doc.lineLength r.start.line

/-- The characters of the raw line that a range selects. A range over several
lines, or with an end inside a character, selects nothing. -/
def textAt? (doc : Document) (r : Range) : Option (List Char) :=
  if r.start.line = r.stop.line then
    Text.betweenUnits? r.start.character.toNat r.stop.character.toNat
      (doc.rawLine r.start.line.toNat)
  else none

theorem textAt?_of_spans {doc : Document} {r : Range} {number first last : Nat}
    (h : r.Spans number first last) :
    doc.textAt? r = Text.betweenUnits? first last (doc.rawLine number) := by
  have honeLine : r.start.line = r.stop.line :=
    UInt32.toNat_inj.mp (h.start_line.trans h.stop_line.symm)
  rw [textAt?, if_pos honeLine, h.start_line, h.start_character, h.stop_character]

/-! ### Documents made from texts -/

theorem codeViews_length (inBlock : Bool) (raws : List (List Char)) :
    (codeViews inBlock raws).length = raws.length := by
  induction raws generalizing inBlock with
  | nil => rfl
  | cons raw raws ih => simp only [codeViews, List.length_cons, ih]

/-- Each line is its raw text with the code view that the lines before leave it. -/
theorem exists_codeView_of_mem {inBlock : Bool} {raws : List (List Char)} {line : Line}
    (h : line ∈ raws.zipWith (fun raw view => Line.ofCode raw view.1) (codeViews inBlock raws)) :
    ∃ raw ∈ raws, ∃ inBlock', line = Line.ofCode raw (codeView inBlock' raw).1 := by
  induction raws generalizing inBlock with
  | nil => simp at h
  | cons raw raws ih =>
      simp only [codeViews, List.zipWith_cons_cons, List.mem_cons] at h
      rcases h with rfl | h
      · exact ⟨raw, List.mem_cons_self, inBlock, rfl⟩
      · obtain ⟨raw', hraw', inBlock', rfl⟩ := ih h
        exact ⟨raw', List.mem_cons_of_mem _ hraw', inBlock', rfl⟩

theorem length_lines_ofText (text : List Char) :
    (ofText text).lines.length = (Text.splitAt '\n' text).length := by
  simp only [ofText, rawLines, List.length_zipWith, codeViews_length, List.length_map,
    Nat.min_self]

theorem ofText_wellFormed (text : List Char) : (ofText text).WellFormed where
  lines_ne_nil := by
    intro h
    have hlen := length_lines_ofText text
    rw [h] at hlen
    exact Text.splitAt_ne_nil '\n' text (List.length_eq_zero_iff.mp hlen.symm)
  lengths_eq := rfl
  blanking := by
    intro line h
    obtain ⟨raw, -, inBlock, rfl⟩ := exists_codeView_of_mem h
    exact (codeView_blanking inBlock raw).trans (bareView_blanking _)

/-- A text of less than 4 GiB has no more lines than there are numbers of 32 bits, and no
line of it is longer than these can tell. -/
theorem ofText_fits {text : List Char} (h : byteLength text < UInt32.size) :
    (ofText text).Fits where
  toWellFormed := ofText_wellFormed text
  lineCount_le := by
    have hlength := Text.length_le_byteLength_joinWith '\n' (Text.splitAt '\n' text)
    rw [Text.joinWith_splitAt] at hlength
    rw [lineCount, length_lines_ofText]
    omega
  unitLength_lt := by
    intro line hline
    obtain ⟨raw, hraw, _, rfl⟩ := exists_codeView_of_mem hline
    obtain ⟨piece, hpiece, rfl⟩ := List.mem_map.mp hraw
    have hle := Text.byteLength_le_of_mem_joinWith '\n' hpiece
    rw [Text.joinWith_splitAt] at hle
    exact Nat.lt_of_le_of_lt (Text.unitLength_le_byteLength _)
      (Nat.lt_of_le_of_lt (Nat.le_trans (byteLength_dropReturn_le piece) hle) h)

variable {doc : Document}

theorem mem_numbered {line : Line} {number : Nat} :
    (line, number) ∈ doc.numbered ↔ doc.lines[number]? = some line := by
  rw [numbered, List.mem_zipIdx_iff_getElem?]

theorem lt_lineCount_of_mem {line : Line} {number : Nat} (h : (line, number) ∈ doc.numbered) :
    number < doc.lineCount := by
  rw [mem_numbered] at h
  exact (List.getElem?_eq_some_iff.mp h).1

theorem rawLine_of_getElem? {line : Line} {number : Nat} (h : doc.lines[number]? = some line) :
    doc.rawLine number = line.raw := by
  simp only [rawLine, h]

/-- The number of a line in 32 bits is the index of a line, if not always of the same. -/
theorem toNat_ofNatClamp_lt {index : Nat} (h : index < doc.lineCount) :
    (UInt32.ofNatClamp index).toNat < doc.lineCount :=
  Nat.lt_of_le_of_lt (toNat_ofNatClamp_le index) h

theorem Fits.lt_size (fits : doc.Fits) {index : Nat} (h : index < doc.lineCount) :
    index < UInt32.size :=
  Nat.lt_of_lt_of_le h fits.lineCount_le

theorem Fits.rawLine_toNat (fits : doc.Fits) {line : Line} {index : Nat}
    (h : doc.lines[index]? = some line) :
    doc.rawLine (UInt32.ofNatClamp index).toNat = line.raw := by
  have hindex : index < doc.lineCount := (List.getElem?_eq_some_iff.mp h).1
  rw [UInt32.toNat_ofNatClamp_of_lt (fits.lt_size hindex), rawLine_of_getElem? h]

/-! ### Ranges inside the document -/

theorem contains_span {index first last : Nat} (hindex : index < doc.lineCount)
    (h : first ≤ last) : doc.Contains (doc.span index first last) where
  one_line := rfl
  line_lt := toNat_ofNatClamp_lt hindex
  start_le := Text.column_mono _ h
  stop_le := Text.column_le_column_byteLength _ _

theorem contains_fullLine {index : Nat} (hindex : index < doc.lineCount) :
    doc.Contains (doc.fullLine index) where
  one_line := rfl
  line_lt := toNat_ofNatClamp_lt hindex
  start_le := UInt32.le_iff_toNat_le.mpr (Nat.zero_le _)
  stop_le := UInt32.le_refl _

theorem contains_endPoint {index : Nat} (hindex : index < doc.lineCount) :
    let line := UInt32.ofNatClamp index
    doc.Contains (Range.point line (doc.lineLength line)) where
  one_line := rfl
  line_lt := toNat_ofNatClamp_lt hindex
  start_le := UInt32.le_refl _
  stop_le := UInt32.le_refl _

theorem locateIn_lt {lengths : List Nat} (h : lengths ≠ []) (offset : Nat) :
    (locateIn lengths offset).1 < lengths.length := by
  fun_induction locateIn lengths offset with
  | case1 => exact absurd rfl h
  | case2 => exact Nat.zero_lt_one
  | case3 => exact Nat.zero_lt_succ _
  | case4 offset len next rest _ line column heq ih =>
      rw [heq] at ih
      exact Nat.succ_lt_succ (ih (List.cons_ne_nil _ _))

theorem WellFormed.placeOf_lt (wf : doc.WellFormed) (offset : Nat) :
    (doc.placeOf offset).1 < doc.lineCount := by
  have hlen : doc.lengths.length = doc.lineCount := by
    rw [wf.lengths_eq, List.length_map, lineCount]
  have hne : doc.lengths ≠ [] := by
    rw [wf.lengths_eq]
    exact fun h => wf.lines_ne_nil (List.map_eq_nil_iff.mp h)
  exact hlen ▸ locateIn_lt hne offset

/-- The range of a stretch of the bare text is one of its line. -/
theorem spanAt_eq_span (doc : Document) (first last : Nat) :
    doc.spanAt first last = doc.span (doc.placeOf first).1 (doc.placeOf first).2
      ((doc.placeOf first).2 + (last - first)) := by
  simp only [spanAt, locate, span, UInt32.ofNatClamp_toNat]

theorem line_start_spanAt (doc : Document) (first last : Nat) :
    (doc.spanAt first last).start.line = (doc.locate first).1 :=
  UInt32.ofNatClamp_toNat _

theorem WellFormed.contains_spanAt (wf : doc.WellFormed) (first last : Nat) :
    doc.Contains (doc.spanAt first last) := by
  rw [spanAt_eq_span]
  exact contains_span (wf.placeOf_lt first) (Nat.le_add_right _ _)

/-! ### Ranges that read a token -/

/-- The range of a piece of a raw line, from the bytes before it and those it has. -/
theorem span_of_raw {line : Line} {index : Nat} {before piece after : List Char}
    (hsize : index < UInt32.size) (hline : doc.lines[index]? = some line)
    (hraw : line.raw = before ++ piece ++ after) :
    doc.span index (byteLength before) (byteLength before + byteLength piece) =
      Range.onLine (.ofNatClamp index) (.ofNatClamp (unitLength before))
        (.ofNatClamp (unitLength (before ++ piece))) := by
  have hfirst : column line.raw (byteLength before) = .ofNatClamp (unitLength before) := by
    rw [hraw, List.append_assoc, column, Text.unitColumn_byteLength]
  have hlast : column line.raw (byteLength before + byteLength piece) =
      .ofNatClamp (unitLength (before ++ piece)) := by
    rw [hraw, ← byteLength_append, column, Text.unitColumn_byteLength]
  simp only [span, UInt32.toNat_ofNatClamp_of_lt hsize, rawLine_of_getElem? hline, hfirst, hlast]

/-- In a document that fits, columns are what they are counted as. -/
theorem Fits.spans_of_raw (fits : doc.Fits) {line : Line} {index : Nat}
    {before piece after : List Char} (hline : doc.lines[index]? = some line)
    (hraw : line.raw = before ++ piece ++ after) :
    (doc.span index (byteLength before) (byteLength before + byteLength piece)).Spans index
      (unitLength before) (unitLength (before ++ piece)) := by
  have hsize : index < UInt32.size := fits.lt_size (List.getElem?_eq_some_iff.mp hline).1
  have hunits := fits.unitLength_lt line (List.mem_of_getElem? hline)
  rw [hraw, Text.unitLength_append] at hunits
  have hlast : unitLength (before ++ piece) < UInt32.size := by omega
  have hfirst : unitLength before < UInt32.size := by
    rw [Text.unitLength_append] at hlast
    omega
  rw [span_of_raw hsize hline hraw]
  exact ⟨UInt32.toNat_ofNatClamp_of_lt hsize, UInt32.toNat_ofNatClamp_of_lt hsize,
    UInt32.toNat_ofNatClamp_of_lt hfirst, UInt32.toNat_ofNatClamp_of_lt hlast⟩

/-- The range of a token of a bare line reads the token on the raw line. -/
theorem Fits.textAt?_span (fits : doc.Fits) {line : Line} {index : Nat}
    {before token after : List Char} (hline : doc.lines[index]? = some line)
    (hbare : line.bare = before ++ token ++ after) (ht : IsToken token) :
    doc.textAt? (doc.span index (byteLength before) (byteLength before + byteLength token)) =
      some token := by
  have hblank := fits.blanking line (List.mem_of_getElem? hline)
  rw [hbare] at hblank
  obtain ⟨rawBefore, rawAfter, hraw, hlen⟩ := hblank.exists_token ht.ne_nil ht.no_space
  rw [← hlen, textAt?_of_spans (fits.spans_of_raw hline hraw), rawLine_of_getElem? hline, hraw,
    Text.betweenUnits?_append]

theorem locateIn_of_le {len next offset : Nat} {rest : List Nat} (h : offset ≤ len) :
    locateIn (len :: next :: rest) offset = (0, offset) := by
  rw [locateIn, if_pos h]

theorem locateIn_add (len next offset : Nat) (rest : List Nat) :
    locateIn (len :: next :: rest) (len + 1 + offset) =
      ((locateIn (next :: rest) offset).1 + 1, (locateIn (next :: rest) offset).2) := by
  rw [locateIn, if_neg (by omega), Nat.add_sub_cancel_left]

/-- A later offset is on a later line, or farther on the same one. -/
theorem locateIn_lex (lengths : List Nat) {m n : Nat} (h : m < n) :
    (locateIn lengths m).1 < (locateIn lengths n).1 ∨
      (locateIn lengths m).1 = (locateIn lengths n).1 ∧
        (locateIn lengths m).2 < (locateIn lengths n).2 := by
  induction lengths generalizing m n with
  | nil => exact Or.inr ⟨rfl, h⟩
  | cons len rest ih =>
      cases rest with
      | nil => exact Or.inr ⟨rfl, h⟩
      | cons next rest =>
          have behind : ∀ {k}, len < k → ∃ j, k = len + 1 + j := by
            intro k hk
            exact ⟨k - (len + 1), by omega⟩
          rcases Nat.lt_or_ge len m with hm | hm
          · obtain ⟨i, rfl⟩ := behind hm
            obtain ⟨j, rfl⟩ := behind (Nat.lt_trans hm h)
            have hlex := ih (show i < j by omega)
            rw [locateIn_add, locateIn_add]
            omega
          · rw [locateIn_of_le hm]
            rcases Nat.lt_or_ge len n with hn | hn
            · obtain ⟨j, rfl⟩ := behind hn
              rw [locateIn_add]
              exact Or.inl (Nat.succ_pos _)
            · rw [locateIn_of_le hn]
              exact Or.inr ⟨rfl, h⟩

/-- A token in lines joined by newlines stands on one of the lines, and its
offset is found there. -/
theorem locateIn_join {lines : List (List Char)} {before token after : List Char}
    (h : Text.joinWith '\n' lines = before ++ token ++ after) (ht : IsToken token) :
    ∃ number line lineBefore lineAfter, lines[number]? = some line ∧
      line = lineBefore ++ token ++ lineAfter ∧
      locateIn (lines.map byteLength) (byteLength before) = (number, byteLength lineBefore) := by
  induction lines generalizing before with
  | nil =>
      have hnil := (List.append_eq_nil_iff.mp h.symm).1
      exact absurd (List.append_eq_nil_iff.mp hnil).2 ht.ne_nil
  | cons line lines ih =>
      cases lines with
      | nil => exact ⟨0, line, before, after, rfl, h, rfl⟩
      | cons next rest =>
          rw [Text.joinWith, List.append_assoc] at h
          obtain ⟨t, more, rfl⟩ := List.exists_cons_of_ne_nil ht.ne_nil
          -- Either the token starts behind the first line, or it lies in that line: it
          -- cannot run over the newline between them.
          rcases List.append_eq_append_iff.mp h with ⟨gap, rfl, hrest⟩ | ⟨tail, rfl, hrest⟩
          · cases gap with
            | nil =>
                have hnl : '\n' = t := (List.cons.inj hrest).1
                exact absurd (hnl ▸ List.mem_cons_self) ht.no_newline
            | cons g gap =>
                rw [List.cons_append] at hrest
                obtain ⟨rfl, hjoin⟩ := List.cons.inj hrest
                rw [← List.append_assoc] at hjoin
                obtain ⟨number, line', lineBefore, lineAfter, hget, hline', hloc⟩ := ih hjoin
                refine ⟨number + 1, line', lineBefore, lineAfter, hget, hline', ?_⟩
                have hoff : byteLength (line ++ '\n' :: gap) =
                    byteLength line + 1 + byteLength gap := by
                  rw [byteLength_append, byteLength_cons, show '\n'.utf8Size = 1 from rfl,
                    Nat.add_assoc]
                rw [List.map_cons] at hloc
                rw [List.map_cons, List.map_cons, hoff, locateIn_add, hloc]
          · obtain ⟨lineAfter, rfl, -⟩ := exists_append_of_notMem hrest.symm ht.no_newline
            refine ⟨0, _, before, lineAfter, rfl, (List.append_assoc ..).symm, ?_⟩
            have hle : byteLength before ≤ byteLength (before ++ (t :: more ++ lineAfter)) := by
              rw [byteLength_append]
              exact Nat.le_add_right _ _
            rw [List.map_cons, List.map_cons, locateIn_of_le hle]

/-- A token of the bare text stands on a line of the document, and its offset is
found there. -/
theorem WellFormed.exists_line_of_token (wf : doc.WellFormed) {before token after : List Char}
    (h : doc.bareText = before ++ token ++ after) (ht : IsToken token) :
    ∃ number line lineBefore lineAfter, doc.lines[number]? = some line ∧
      line.bare = lineBefore ++ token ++ lineAfter ∧
      doc.placeOf (byteLength before) = (number, byteLength lineBefore) := by
  obtain ⟨number, bare, lineBefore, lineAfter, hget, hbare, hloc⟩ := locateIn_join h ht
  rw [List.getElem?_map, Option.map_eq_some_iff] at hget
  obtain ⟨line, hline, rfl⟩ := hget
  refine ⟨number, line, lineBefore, lineAfter, hline, hbare, ?_⟩
  rw [placeOf, wf.lengths_eq, ← hloc, List.map_map]
  rfl

/-- The range of a token of the bare text reads the token on its raw line. -/
theorem Fits.textAt?_spanAt (fits : doc.Fits) {before token after : List Char}
    (h : doc.bareText = before ++ token ++ after) (ht : IsToken token) :
    doc.textAt? (doc.spanAt (byteLength before) (byteLength before + byteLength token)) =
      some token := by
  obtain ⟨number, line, lineBefore, lineAfter, hline, hbare, hplace⟩ :=
    fits.exists_line_of_token h ht
  rw [spanAt_eq_span, hplace]
  simp only [Nat.add_sub_cancel_left]
  exact fits.textAt?_span hline hbare ht

end Document

end TradeScript
