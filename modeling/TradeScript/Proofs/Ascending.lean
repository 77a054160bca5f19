import TradeScript.Proofs.Placement

/-!
# TradeScript.Proofs.Ascending

Diagnostics in the order of the text. The checks that go through a document once
report at strictly increasing positions (`Ascending`), so none of them reports the
same place twice. All this is about documents whose lines and columns are numbers of
32 bits: beyond, positions no longer grow.

Offsets increase because scans go forward. Positions count in other units, and a
column grows only where a character starts. So what is reported has to start at a
character (`VisibleAt`): it does in the bare view, where a blanked character would be
a space, and hence in the line as written.
-/

namespace TradeScript

open Scan (Found Occurrence Recogniser occurrences)
open Text (byteLength byteLength_append byteLength_cons)

/-! ### Positions -/

/-- Positions in the order of the text. -/
instance : LT Position where
  lt p q := p.line < q.line ∨ p.line = q.line ∧ p.character < q.character

instance (p q : Position) : Decidable (p < q) :=
  inferInstanceAs (Decidable (p.line < q.line ∨ p.line = q.line ∧ p.character < q.character))

theorem Position.not_lt_of_lt {p q : Position} (h : p < q) : ¬ q < p := by
  intro h'
  change p.line < q.line ∨ p.line = q.line ∧ p.character < q.character at h
  change q.line < p.line ∨ q.line = p.line ∧ q.character < p.character at h'
  simp only [UInt32.lt_iff_toNat_lt, ← UInt32.toNat_inj] at h h'
  omega

theorem Position.not_lt_self (p : Position) : ¬ p < p := fun h => not_lt_of_lt h h

/-- The diagnostics start at strictly increasing positions. -/
def Ascending (ds : List Diagnostic) : Prop :=
  ds.Pairwise fun d e => d.range.start < e.range.start

/-! ### Characters that are seen -/

/-- At the byte offset, a character starts that is neither a space nor a newline. -/
def VisibleAt (cs : List Char) (offset : Nat) : Prop :=
  ∃ before c after, cs = before ++ [c] ++ after ∧ IsToken [c] ∧ offset = byteLength before

theorem IsToken.head {c : Char} {cs : List Char} (h : IsToken (c :: cs)) : IsToken [c] where
  ne_nil := List.cons_ne_nil _ _
  no_space hc := h.no_space (List.mem_singleton.mp hc ▸ List.mem_cons_self)
  no_newline hc := h.no_newline (List.mem_singleton.mp hc ▸ List.mem_cons_self)

theorem visibleAt_of_token {before token after : List Char} (h : IsToken token) :
    VisibleAt (before ++ token ++ after) (byteLength before) := by
  obtain ⟨c, more, rfl⟩ := List.exists_cons_of_ne_nil h.ne_nil
  exact ⟨before, c, more ++ after, by simp, h.head, rfl⟩

/-- A character that is seen in a view starts a character of the line. -/
theorem Blanking.unitColumn_lt {raw view : List Char} {m n : Nat} (h : Blanking raw view)
    (hm : VisibleAt view m) (hlt : m < n) : Text.unitColumn raw m < Text.unitColumn raw n := by
  obtain ⟨before, c, after, rfl, hc, rfl⟩ := hm
  obtain ⟨rawBefore, rawAfter, rfl, hlength⟩ := h.exists_token hc.ne_nil hc.no_space
  rw [← hlength] at hlt ⊢
  rw [← List.append_cons]
  exact Text.unitColumn_lt_of_lt hlt

namespace Document

variable {doc : Document} {line : Line} {number : Nat}

/-- Ranges on one line, by their offsets. -/
theorem Fits.span_start_lt (fits : doc.Fits) (h : (line, number) ∈ doc.numbered)
    {m n : Nat} (hm : VisibleAt line.bare m) (hlt : m < n) (m' n' : Nat) :
    (doc.span number m m').start < (doc.span number n n').start := by
  have hline := mem_numbered.mp h
  have hmem := List.mem_of_getElem? hline
  refine Or.inr ⟨rfl, ?_⟩
  show Text.column (doc.rawLine _) m < Text.column (doc.rawLine _) n
  rw [fits.rawLine_toNat hline]
  exact ofNatClamp_lt_ofNatClamp ((fits.blanking line hmem).unitColumn_lt hm hlt)
    (Nat.lt_of_le_of_lt (Text.unitColumn_le_unitLength _ _) (fits.unitLength_lt line hmem))

theorem Fits.span_start_inj (fits : doc.Fits) (h : (line, number) ∈ doc.numbered)
    {m n m' n' : Nat} (hm : VisibleAt line.bare m) (hn : VisibleAt line.bare n)
    (heq : (doc.span number m m').start = (doc.span number n n').start) : m = n := by
  rcases Nat.lt_trichotomy m n with hlt | rfl | hlt
  · exact absurd (heq ▸ fits.span_start_lt h hm hlt m' n') (Position.not_lt_self _)
  · rfl
  · exact absurd (heq ▸ fits.span_start_lt h hn hlt n' m') (Position.not_lt_self _)

/-- Later lines have greater numbers. -/
theorem Fits.line_lt (fits : doc.Fits) {number' : Nat} (h : number < number')
    (hlines : number' < doc.lineCount) : UInt32.ofNatClamp number < .ofNatClamp number' :=
  ofNatClamp_lt_ofNatClamp h (fits.lt_size hlines)

/-- Ranges of the bare text, by their offsets. -/
theorem Fits.spanAt_start_lt (fits : doc.Fits) {m n : Nat}
    (hm : VisibleAt doc.bareText m) (hlt : m < n) (m' n' : Nat) :
    (doc.spanAt m m').start < (doc.spanAt n n').start := by
  obtain ⟨before, c, after, htext, hc, rfl⟩ := hm
  obtain ⟨number, line, lineBefore, lineAfter, hline, hbare, hplace⟩ :=
    fits.exists_line_of_token htext hc
  have hvisible : VisibleAt line.bare (byteLength lineBefore) :=
    ⟨lineBefore, c, lineAfter, hbare, hc, rfl⟩
  have hlex := locateIn_lex doc.lengths hlt
  rw [← placeOf, ← placeOf, hplace] at hlex
  rw [spanAt_eq_span, spanAt_eq_span, hplace]
  rcases hlex with hlt | ⟨rfl, hlt⟩
  · exact Or.inl (fits.line_lt hlt (fits.placeOf_lt n))
  · exact fits.span_start_lt (mem_numbered.mpr hline) hvisible hlt _ _

theorem Fits.spanAt_start_inj (fits : doc.Fits) {m n m' n' : Nat}
    (hm : VisibleAt doc.bareText m) (hn : VisibleAt doc.bareText n)
    (heq : (doc.spanAt m m').start = (doc.spanAt n n').start) : m = n := by
  rcases Nat.lt_trichotomy m n with hlt | rfl | hlt
  · exact absurd (heq ▸ fits.spanAt_start_lt hm hlt m' n') (Position.not_lt_self _)
  · rfl
  · exact absurd (heq ▸ fits.spanAt_start_lt hn hlt n' m') (Position.not_lt_self _)

theorem numbered_pairwise (doc : Document) : doc.numbered.Pairwise fun a b => a.2 < b.2 := by
  rw [← List.pairwise_map, numbered, List.zipIdx_map_snd]
  exact List.pairwise_lt_range'

theorem zip_pairwise {α : Type} {xs : List α} (h : doc.numbered.length ≤ xs.length) :
    (doc.numbered.zip xs).Pairwise fun a b => a.1.2 < b.1.2 := by
  have horder := doc.numbered_pairwise
  rw [← List.map_fst_zip h, List.pairwise_map] at horder
  exact horder

end Document

namespace Scan

/-- A recogniser that matches only where a character is seen. -/
def Recogniser.StartsVisible {α : Type} (r : Recogniser α) : Prop :=
  ∀ previous cs found, r previous cs = some found → ∃ c rest, cs = c :: rest ∧ IsToken [c]

/-- A recogniser of names that matches nothing before the name. -/
def Recogniser.NoLead (r : Recogniser Found) : Prop :=
  ∀ previous cs found, r previous cs = some found → found.lead = []

theorem visibleAt_of_mem_occurrences {α : Type} [Matched α] {r : Recogniser α}
    (hr : r.StartsVisible) {text : List Char} {o : Occurrence α} (h : o ∈ occurrences r text) :
    VisibleAt text o.offset := by
  obtain ⟨before, cs, rfl, -, hoffset, hfound⟩ := isMatch_of_mem_occurrencesFrom h
  obtain ⟨c, rest, rfl, hc⟩ := hr _ _ _ hfound
  exact ⟨before, c, rest, List.append_cons .., hc, by rw [hoffset, Nat.zero_add]⟩

theorem start_of_mem_occurrences {r : Recogniser Found} (hr : r.NoLead) {text : List Char}
    {o : Occurrence Found} (h : o ∈ occurrences r text) : o.start = o.offset := by
  obtain ⟨_, _, -, -, -, hfound⟩ := isMatch_of_mem_occurrencesFrom h
  rw [Occurrence.start, hr _ _ _ hfound, Text.byteLength_nil, Nat.add_zero]

theorem lead_of_naming_nothing {name trail : Reader} {cs : List Char} {found : Found}
    (h : naming nothing name trail cs = some found) : found.lead = [] := by
  obtain ⟨_, _, _, hlead, -, -⟩ := naming_eq_some h
  exact (Prod.mk.inj (Option.some.inj hlead)).1.symm

theorem visible_of_naming_nothing {name trail : Reader} {cs : List Char} {found : Found}
    (hf : name.Faithful) (ht : name.TakesToken) (h : naming nothing name trail cs = some found) :
    ∃ c rest, cs = c :: rest ∧ IsToken [c] := by
  obtain ⟨cs₁, cs₂, _, hlead, hname, -⟩ := naming_eq_some h
  obtain rfl : cs = cs₁ := (Prod.mk.inj (Option.some.inj hlead)).2
  have htoken := ht _ _ _ hname
  obtain ⟨c, more, hc⟩ := List.exists_cons_of_ne_nil htoken.ne_nil
  refine ⟨c, more ++ cs₂, ?_, (hc ▸ htoken).head⟩
  rw [← hf _ _ _ hname, hc, List.cons_append]

theorem wordNaming_nothing_startsVisible (trail : Reader) :
    (wordNaming nothing trail).StartsVisible := by
  intro previous cs found h
  exact visible_of_naming_nothing identifier_faithful identifier_takesToken (wordNaming_eq_some h).2

theorem wordNaming_nothing_noLead (trail : Reader) : (wordNaming nothing trail).NoLead := by
  intro previous cs found h
  exact lead_of_naming_nothing (wordNaming_eq_some h).2

end Scan

namespace Check

open Scan

variable {doc : Document} {line : Line} {number : Nat}

/-! ### Checks of names -/

theorem digitWord_startsVisible : digitWord.StartsVisible := by
  intro previous cs found h
  exact visible_of_naming_nothing (by simp) (digits_takesToken _) (digitWord_eq_some h)

theorem digitWord_noLead : digitWord.NoLead := by
  intro previous cs found h
  exact lead_of_naming_nothing (digitWord_eq_some h)

theorem directiveName_startsVisible : directiveName.StartsVisible := by
  intro previous cs found h
  obtain ⟨cs₁, _, _, hlead, -, -⟩ := naming_eq_some h
  rw [lead_of_directiveName h] at hlead
  have hmark : IsToken ['#'] := ⟨List.cons_ne_nil _ _, by decide, by decide⟩
  exact ⟨'#', cs₁, (exactly_faithful _ _ _ _ hlead).symm, hmark⟩

/-- Names that are found on a line without a lead start at increasing positions. -/
theorem occurrences_span_pairwise (fits : doc.Fits) (h : (line, number) ∈ doc.numbered)
    {r : Recogniser Found} (hr : r.StartsVisible) (hlead : r.NoLead) :
    (occurrences r line.bare).Pairwise fun a b => ∀ m n,
      (doc.span number a.start m).start < (doc.span number b.start n).start := by
  refine (occurrences_pairwise r line.bare).imp_of_mem ?_
  intro a b ha hb hlt m n
  rw [start_of_mem_occurrences hlead ha, start_of_mem_occurrences hlead hb]
  exact fits.span_start_lt h (visibleAt_of_mem_occurrences hr ha) hlt m n

/-- What goes through lines in order is ordered by whatever orders lines and the
diagnostics of each line. -/
theorem pairwise_flatMap_of_lines {β : Type} {R : Diagnostic → Diagnostic → Prop} {xs : List β}
    {number : β → Nat} {f : β → List Diagnostic} (hxs : xs.Pairwise fun x y => number x < number y)
    (hsize : ∀ x ∈ xs, number x < UInt32.size)
    (hline : ∀ x ∈ xs, ∀ d ∈ f x, d.range.start.line = .ofNatClamp (number x))
    (hf : ∀ x ∈ xs, (f x).Pairwise R)
    (hR : ∀ x ∈ xs, ∀ d ∈ f x, ∀ y ∈ xs, ∀ e ∈ f y,
      d.range.start.line < e.range.start.line → R d e) :
    (xs.flatMap f).Pairwise R := by
  refine List.pairwise_flatMap.mpr ⟨hf, hxs.imp_of_mem ?_⟩
  intro x y hx hy hlt d hd e he
  refine hR x hx d hd y hy e he ?_
  rw [hline x hx d hd, hline y hy e he]
  exact ofNatClamp_lt_ofNatClamp hlt (hsize y hy)

theorem ascending_flatMap_numbered (fits : doc.Fits) {f : Line × Nat → List Diagnostic}
    (hline : ∀ x ∈ doc.numbered, ∀ d ∈ f x, d.range.start.line = .ofNatClamp x.2)
    (hf : ∀ x ∈ doc.numbered, Ascending (f x)) : Ascending (doc.numbered.flatMap f) :=
  pairwise_flatMap_of_lines doc.numbered_pairwise
    (fun _ hx => fits.lt_size (Document.lt_lineCount_of_mem hx)) hline hf
    fun _ _ _ _ _ _ _ _ hlt => Or.inl hlt

theorem filterMap_unless {α β : Type} (p : α → Bool) (g : α → β) (xs : List α) :
    (xs.filterMap fun x => if p x then none else some (g x)) = (xs.filter (!p ·)).map g := by
  induction xs with
  | nil => rfl
  | cons x xs ih =>
      cases hp : p x <;> simp [hp, ih]

theorem undefinedVariables_ascending (fits : doc.Fits) (dialect : Dialect) :
    Ascending (undefinedVariables dialect doc) := by
  refine ascending_flatMap_numbered fits ?_ ?_
  · rintro ⟨line, number⟩ _ d hd
    simp only [filterMap_unless] at hd
    obtain ⟨o, -, rfl⟩ := List.mem_map.mp hd
    rfl
  · rintro ⟨line, number⟩ hline
    have hspans := occurrences_span_pairwise fits hline (wordNaming_nothing_startsVisible wordEnd)
      (wordNaming_nothing_noLead wordEnd)
    simp only [filterMap_unless]
    exact List.pairwise_map.mpr ((hspans.filter _).imp fun hab => hab _ _)

theorem magicNumbers_ascending (fits : doc.Fits) : Ascending (magicNumbers doc) := by
  refine ascending_flatMap_numbered fits ?_ ?_
  · rintro ⟨line, number⟩ _ d hd
    obtain ⟨o, -, rfl⟩ := List.mem_map.mp hd
    rfl
  · rintro ⟨line, number⟩ hline
    have hspans := occurrences_span_pairwise fits hline digitWord_startsVisible digitWord_noLead
    exact List.pairwise_map.mpr (hspans.imp fun hab => hab _ _)

theorem undefinedFunctions_ascending [PatternEngine] (fits : doc.Fits) (dialect : Dialect) :
    Ascending (undefinedFunctions dialect doc) := by
  have hspans : (occurrences call doc.bareText).Pairwise fun a b => ∀ m n,
      (doc.spanAt a.start m).start < (doc.spanAt b.start n).start := by
    refine (occurrences_pairwise call doc.bareText).imp_of_mem ?_
    intro a b ha hb hlt m n
    rw [start_of_mem_occurrences (wordNaming_nothing_noLead openParen) ha,
      start_of_mem_occurrences (wordNaming_nothing_noLead openParen) hb]
    exact fits.spanAt_start_lt
      (visibleAt_of_mem_occurrences (wordNaming_nothing_startsVisible openParen) ha) hlt m n
  unfold undefinedFunctions
  rw [filterMap_unless]
  exact List.pairwise_map.mpr (((hspans.filter _).filter _).imp fun hab => hab _ _)

/-! ### Checks of brackets -/

/-- What is found at brackets of a line, in their order. -/
theorem brackets_ascending (fits : doc.Fits) (h : (line, number) ∈ doc.numbered) {α : Type}
    (finding : Nat × α → Finding) {found : List (Nat × α)}
    (hsublist : (found.map Prod.fst).Sublist ((Text.withOffsets 0 line.bare).map Prod.fst))
    (hvisible : ∀ f ∈ found, VisibleAt line.bare f.1) :
    Ascending (found.map fun f => (finding f).report (doc.span number f.1 (f.1 + 1))) := by
  have hcolumns : found.Pairwise fun a b => a.1 < b.1 :=
    List.pairwise_map.mp
      ((List.pairwise_map.mpr (Text.withOffsets_pairwise 0 line.bare)).sublist hsublist)
  refine List.pairwise_map.mpr (hcolumns.imp_of_mem ?_)
  intro a b ha _ hlt
  exact fits.span_start_lt h (hvisible a ha) hlt _ _

theorem matchBrackets_columns (pending : List OpenBracket) (chars : List (Nat × Char)) :
    ((matchBrackets number pending chars).1.map Prod.fst).Sublist (chars.map Prod.fst) := by
  fun_induction matchBrackets number pending chars with
  | case1 => exact .slnil
  | case2 _ _ _ _ _ ih => exact ih.cons _
  | case3 _ _ _ _ _ _ ih => exact ih.cons _
  | case4 _ _ _ _ _ _ ih => exact ih.cons_cons _
  | case5 _ _ _ _ _ _ ih => exact ih.cons _
  | case6 _ _ _ _ _ _ _ _ _ ih => exact ih.cons_cons _

/-- What lies too deep are opening braces of the line, in their order. -/
theorem deepBraces_sublist (depth : Nat) (chars : List (Nat × Char)) :
    ((deepBraces depth chars).1.map fun b => (b.1, '{')).Sublist chars := by
  induction chars generalizing depth with
  | nil => exact .slnil
  | cons head rest ih =>
      obtain ⟨column, c⟩ := head
      simp only [deepBraces]
      split
      · rename_i hc
        subst hc
        split
        · exact (ih _).cons_cons _
        · exact (ih _).cons _
      · split
        · exact (ih _).cons _
        · exact (ih _).cons _

theorem visibleAt_of_bracket {column : Nat} {m : BracketMark}
    (h : (column, m.char) ∈ Text.withOffsets 0 line.bare) : VisibleAt line.bare column := by
  obtain ⟨before, after, hbare, hcolumn⟩ := Text.exists_append_of_mem_withOffsets h
  rw [Nat.zero_add] at hcolumn
  exact ⟨before, m.char, after, hbare.trans (List.append_cons ..), m.isToken_char, hcolumn⟩

theorem bracketsOfLine_ascending (fits : doc.Fits) (h : (line, number) ∈ doc.numbered)
    (pending : List OpenBracket) : Ascending (bracketsOfLine doc pending line number).1 := by
  refine brackets_ascending fits h Prod.snd (matchBrackets_columns _ _) ?_
  rintro ⟨column, f⟩ hf
  obtain ⟨m, hm, -⟩ := exists_bracket_of_matchBrackets hf
  exact visibleAt_of_bracket hm

theorem deepBraces_ascending (fits : doc.Fits) (h : (line, number) ∈ doc.numbered)
    (depth : Nat) :
    Ascending ((deepBraces depth (Text.withOffsets 0 line.bare)).1.map fun b =>
      (Finding.deepNesting b.2).report (doc.span number b.1 (b.1 + 1))) := by
  have hsublist := deepBraces_sublist depth (Text.withOffsets 0 line.bare)
  refine brackets_ascending fits h (fun b => .deepNesting b.2) ?_ ?_
  · have hcolumns := hsublist.map Prod.fst
    rwa [List.map_map] at hcolumns
  · intro b hb
    have hbrace : (b.1, (BracketMark.opening .curly).char) ∈ Text.withOffsets 0 line.bare :=
      hsublist.subset (List.mem_map_of_mem hb)
    exact visibleAt_of_bracket hbrace

/-- The braces of each line ascend, and those of later lines come later. -/
theorem nestingFrom_ascending (fits : doc.Fits) {lines : List (Line × Nat)}
    (hlines : lines ⊆ doc.numbered) (horder : lines.Pairwise fun a b => a.2 < b.2) (depth : Nat) :
    Ascending (nestingFrom doc depth lines) ∧
      ∀ d ∈ nestingFrom doc depth lines,
        ∃ line ∈ lines, d.range.start.line = .ofNatClamp line.2 := by
  induction lines generalizing depth with
  | nil => exact ⟨.nil, fun d hd => absurd hd List.not_mem_nil⟩
  | cons head rest ih =>
      obtain ⟨line, number⟩ := head
      obtain ⟨hhead, hrest⟩ := List.cons_subset.mp hlines
      obtain ⟨hbefore, horder⟩ := List.pairwise_cons.mp horder
      obtain ⟨hascending, hon⟩ :=
        ih hrest horder (deepBraces depth (Text.withOffsets 0 line.bare)).2
      have hhere : ∀ d ∈ (deepBraces depth (Text.withOffsets 0 line.bare)).1.map fun b =>
          (Finding.deepNesting b.2).report (doc.span number b.1 (b.1 + 1)),
          d.range.start.line = .ofNatClamp number := by
        intro d hd
        obtain ⟨b, -, rfl⟩ := List.mem_map.mp hd
        rfl
      refine ⟨List.pairwise_append.mpr ⟨deepBraces_ascending fits hhead depth, hascending, ?_⟩, ?_⟩
      · intro d hd e he
        obtain ⟨later, hlater, hline⟩ := hon e he
        refine Or.inl ?_
        rw [hhere d hd, hline]
        exact fits.line_lt (hbefore _ hlater) (Document.lt_lineCount_of_mem (hrest hlater))
      · intro d hd
        rcases List.mem_append.mp hd with hd | hd
        · exact ⟨_, List.mem_cons_self, hhere d hd⟩
        · obtain ⟨later, hlater, hline⟩ := hon d hd
          exact ⟨later, List.mem_cons_of_mem _ hlater, hline⟩

/-- The places of the characters of consecutive lines: line and byte column. -/
def placesOf (lines : List (Line × Nat)) : List (Nat × Nat) :=
  lines.flatMap fun line => (Text.withOffsets 0 line.1.bare).map fun c => (line.2, c.1)

theorem placesOf_cons (line : Line) (number : Nat) (rest : List (Line × Nat)) :
    placesOf ((line, number) :: rest) =
      ((Text.withOffsets 0 line.bare).map fun c => (number, c.1)) ++ placesOf rest :=
  rfl

/-- The place of an open bracket. -/
def place (b : OpenBracket) : Nat × Nat :=
  (b.line, b.column)

/-- The open brackets from the outermost on stand in the order of the text: a bracket
is opened behind those that are open, and only the last one is closed. -/
theorem matchBrackets_places (number : Nat) (pending : List OpenBracket)
    (chars : List (Nat × Char)) :
    ((matchBrackets number pending chars).2.reverse.map place).Sublist
      (pending.reverse.map place ++ chars.map fun c => (number, c.1)) := by
  fun_induction matchBrackets number pending chars with
  | case1 => simp
  | case2 _ _ _ _ _ ih => exact ih.trans (by simp)
  | case3 _ _ _ _ _ _ ih => simpa [place] using ih
  | case4 _ _ _ _ _ _ ih => exact ih.trans (by simp)
  | case5 _ _ _ _ _ _ ih => exact ih.trans (by simp)
  | case6 _ _ _ _ _ _ _ _ _ ih => exact ih.trans (by simp)

theorem bracketsOfLines_places (doc : Document) (pending : List OpenBracket)
    (lines : List (Line × Nat)) :
    ((bracketsOfLines doc pending lines).2.reverse.map place).Sublist
      (pending.reverse.map place ++ placesOf lines) := by
  induction lines generalizing pending with
  | nil => simp [bracketsOfLines, placesOf]
  | cons head rest ih =>
      obtain ⟨line, number⟩ := head
      have hhere := matchBrackets_places number pending (Text.withOffsets 0 line.bare)
      refine (ih (bracketsOfLine doc pending line number).2).trans ?_
      rw [placesOf_cons, ← List.append_assoc]
      exact hhere.append_right _

theorem placesOf_pairwise {lines : List (Line × Nat)}
    (horder : lines.Pairwise fun a b => a.2 < b.2) :
    (placesOf lines).Pairwise (Prod.Lex (· < ·) (· < ·)) := by
  refine List.pairwise_flatMap.mpr ⟨fun line _ => ?_, horder.imp ?_⟩
  · exact List.pairwise_map.mpr ((Text.withOffsets_pairwise 0 line.1.bare).imp fun h => .right _ h)
  · intro a b hlt p hp q hq
    obtain ⟨c, -, rfl⟩ := List.mem_map.mp hp
    obtain ⟨d, -, rfl⟩ := List.mem_map.mp hq
    exact .left _ _ hlt

theorem unclosedBrackets_ascending (fits : doc.Fits) :
    Ascending (unclosedBrackets doc (bracketsOfLines doc [] doc.numbered).2) := by
  have hplaces := (placesOf_pairwise doc.numbered_pairwise).sublist
    (bracketsOfLines_places doc [] doc.numbered)
  have hat : ∀ b ∈ (bracketsOfLines doc [] doc.numbered).2, b.At doc :=
    bracketsOfLines_at (List.Subset.refl _) fun _ h => absurd h List.not_mem_nil
  refine List.pairwise_map.mpr ((List.pairwise_map.mp hplaces).imp_of_mem ?_)
  intro a b ha hb hlt
  obtain ⟨line, hline, hmem⟩ := hat a (List.mem_reverse.mp ha)
  have hchar : (a.column, (BracketMark.opening a.kind).char) ∈ Text.withOffsets 0 line.bare := hmem
  rcases Prod.lex_def.mp hlt with hlt | ⟨heq, hlt⟩
  · obtain ⟨_, hline', -⟩ := hat b (List.mem_reverse.mp hb)
    exact Or.inl (fits.line_lt hlt (Document.lt_lineCount_of_mem hline'))
  · have heq : a.line = b.line := heq
    rw [← heq]
    exact fits.span_start_lt hline (visibleAt_of_bracket hchar) hlt _ _

/-! ### Checks of whole lines -/

/-- The first statement comes before all that is never reached behind it. -/
theorem lt_of_mem_unreachableLines {lines : List (Line × Nat)}
    (horder : lines.Pairwise fun a b => a.2 < b.2) {first later : Nat}
    (hfirst : nextStatement lines = some first) (hlater : later ∈ unreachableLines lines) :
    first < later := by
  induction lines with
  | nil => simp [nextStatement] at hfirst
  | cons head rest ih =>
      obtain ⟨line, number⟩ := head
      obtain ⟨hbefore, horder⟩ := List.pairwise_cons.mp horder
      simp only [nextStatement] at hfirst
      split at hfirst
      · simp at hfirst
      · split at hfirst
        · -- A line without code is no `return`, so nothing starts here.
          rename_i hempty
          rw [unreachableLines, List.isEmpty_iff.mp hempty] at hlater
          exact ih horder hfirst hlater
        · obtain ⟨line', hline'⟩ := exists_mem_tail_of_unreachableLines hlater
          exact Option.some.inj hfirst ▸ hbefore _ hline'

theorem unreachableLines_pairwise {lines : List (Line × Nat)}
    (horder : lines.Pairwise fun a b => a.2 < b.2) : (unreachableLines lines).Pairwise (· < ·) := by
  induction lines with
  | nil => exact .nil
  | cons head rest ih =>
      have horder := (List.pairwise_cons.mp horder).2
      rw [unreachableLines]
      split
      · cases hfirst : nextStatement rest with
        | none => exact ih horder
        | some first =>
            exact .cons (fun later => lt_of_mem_unreachableLines horder hfirst) (ih horder)
      · exact ih horder

theorem unreachable_ascending (fits : doc.Fits) : Ascending (unreachable doc) := by
  refine List.pairwise_map.mpr
    ((unreachableLines_pairwise doc.numbered_pairwise).imp_of_mem fun _ hb hlt => Or.inl ?_)
  obtain ⟨line, hline⟩ := exists_mem_of_unreachableLines hb
  exact fits.line_lt hlt (Document.lt_lineCount_of_mem hline)

/-- The functions that have ended come in the order of their first lines: where one
ends, none is open, so the next starts on a later line. -/
theorem functionsFrom_pairwise {start : Option Nat} {depth : Int} {lines : List (Line × Nat)}
    (horder : lines.Pairwise fun a b => a.2 < b.2)
    (hstart : ∀ first, start = some first → ∀ line ∈ lines, first < line.2) :
    (functionsFrom start depth lines).Pairwise fun f g => f.1 < g.1 := by
  induction lines generalizing start depth with
  | nil => exact .nil
  | cons head rest ih =>
      obtain ⟨line, number⟩ := head
      obtain ⟨hbefore, horder⟩ := List.pairwise_cons.mp horder
      have hopen : ∀ first, (if startsFunction line.bare then some number else start) = some first →
          ∀ line ∈ rest, first < line.2 := by
        intro first hfirst
        split at hfirst
        · exact Option.some.inj hfirst ▸ hbefore
        · exact fun line hline => hstart first hfirst line (List.mem_cons_of_mem _ hline)
      simp only [functionsFrom]
      generalize (if startsFunction line.bare then 0 else depth) + braceBalance line.bare = depth'
      split
      · exact ih horder (by simp)
      · rename_i first hfirst
        split
        · refine .cons (fun g hg => ?_) (ih horder (by simp))
          rcases exists_mem_of_functionsFrom hg with h | ⟨line', hline'⟩
          · exact absurd h (by simp)
          · exact hopen first hfirst _ hline'
        · exact ih horder fun first' hfirst' => hopen first' (hfirst.trans hfirst')

theorem longFunctions_ascending (fits : doc.Fits) : Ascending (longFunctions doc) := by
  have hfunctions : (functionsFrom none 0 doc.numbered).Pairwise fun f g => f.1 < g.1 :=
    functionsFrom_pairwise doc.numbered_pairwise (by simp)
  refine List.pairwise_map.mpr ((hfunctions.filter _).imp_of_mem fun {f g} _ hg hlt => Or.inl ?_)
  obtain hstart | ⟨line, hline⟩ := exists_mem_of_functionsFrom (List.mem_filter.mp hg).1
  · exact absurd hstart (by simp)
  · exact fits.line_lt hlt (Document.lt_lineCount_of_mem hline)

end Check

end TradeScript
