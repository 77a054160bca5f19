import TradeScript.Proofs.Variable

/-!
# TradeScript.Proofs.Symbols

What the symbols of a document say about its names. Variables are searched for one shape
after the other (`VariableShape`), and what is found takes the place of what was recorded
for the name before. So a name has the position of its last declaration in the last shape in
which it is declared (`IsRecorded`). A declaration farther on in the text that has an
earlier shape is overwritten, and this is the only way in which the recorded position is not
the last one (`isLastPlace_iff`).

Wherever a name is recorded, the name stands: positions are counted on lines as written, of
which the bare text is a blanking (`Fits.reads_name`).
-/

namespace TradeScript

open Scan
open Text (byteLength byteLength_append unitColumn unitLength)

/-- The shapes in which variables, macros and types are declared. -/
inductive VariableShape where
  | typed
  | object
  | macroName
  | typeName
  deriving DecidableEq

namespace VariableShape

def recogniser : VariableShape → Recogniser Found
  | .typed => typedDeclaration
  | .object => objectDeclaration
  | .macroName => macroDefinition
  | .typeName => typeDefinition

/-- Does a declaration of the shape count on a preprocessor line? -/
def onDirectives : VariableShape → Bool
  | .macroName => true
  | .typed | .object | .typeName => false

/-- The turn of the shape among the searches. -/
def turn : VariableShape → Nat
  | .typed => 0
  | .object => 1
  | .macroName => 2
  | .typeName => 3

def all : List VariableShape :=
  [.typed, .object, .macroName, .typeName]

theorem mem_all (shape : VariableShape) : shape ∈ all := by
  cases shape <;> simp [all]

theorem eq_of_turn_eq {shape other : VariableShape} (h : shape.turn = other.turn) :
    shape = other := by
  revert h
  cases shape <;> cases other <;> decide

theorem all_pairwise : all.Pairwise fun a b => a.turn < b.turn := by
  simp [all, turn]

end VariableShape

/-! ### Names in a text -/

namespace Scan

theorem isToken_of_isIdentifier {name : List Char} (h : isIdentifier name = true) :
    IsToken name where
  ne_nil := by
    obtain ⟨c, cs, rfl, -, -⟩ := exists_cons_of_isIdentifier h
    exact List.cons_ne_nil c cs
  no_space hmem := by
    have hpart := forall_isNamePart_of_isIdentifier h ' ' hmem
    exact absurd hpart (by decide)
  no_newline hmem := by
    have hpart := forall_isNamePart_of_isIdentifier h '\n' hmem
    exact absurd hpart (by decide)

theorem macroDefinition_eq_some {previous : Option Char} {cs : List Char} {found : Found}
    (h : macroDefinition previous cs = some found) :
    naming (inTurn [blanks, exactly ['#'], blanks, exactly "define".toList, gap]) identifier
      nothing cs = some found := by
  unfold macroDefinition at h
  split at h
  · exact h
  · simp at h

theorem macroDefinition_faithful : macroDefinition.Faithful := by
  intro previous cs found h
  exact naming_prefix (by simp) identifier_faithful nothing_faithful (macroDefinition_eq_some h)

theorem macroDefinition_namesToken : macroDefinition.NamesToken := by
  intro previous cs found h
  exact naming_isToken identifier_takesToken (macroDefinition_eq_some h)

/-- Matches that name something come with their names in the order of the text. -/
theorem occurrences_start_pairwise {r : Recogniser Found} (hf : r.Faithful) (ht : r.NamesToken)
    (text : List Char) : (occurrences r text).Pairwise fun a b => a.start < b.start := by
  refine (occurrences_apart hf text).imp_of_mem ?_
  intro a b ha _ hapart
  have hname : 0 < byteLength a.found.name := by
    obtain ⟨c, cs, hc⟩ := List.exists_cons_of_ne_nil (isToken_name_of_mem_occurrences ht ha).ne_nil
    rw [hc]
    exact Nat.add_pos_left c.utf8Size_pos _
  simp only [Matched.text, byteLength_append] at hapart
  simp only [Occurrence.start]
  omega

end Scan

theorem VariableShape.faithful (shape : VariableShape) : shape.recogniser.Faithful := by
  cases shape with
  | typed => exact wordNaming_faithful (by simp) wordEnd_faithful
  | object => exact wordNaming_faithful (by simp) wordEnd_faithful
  | macroName => exact macroDefinition_faithful
  | typeName => exact wordNaming_faithful (by simp) nothing_faithful

theorem VariableShape.namesToken (shape : VariableShape) : shape.recogniser.NamesToken := by
  cases shape with
  | macroName => exact macroDefinition_namesToken
  | typed | object | typeName => exact wordNaming_namesToken _ _

namespace Document

variable {doc : Document} {shape : VariableShape} {o p : Occurrence Found}

/-- The declarations of one shape, in the order of the text. -/
def declaredAs (doc : Document) (shape : VariableShape) : List (Occurrence Found) :=
  (occurrences shape.recogniser doc.bareText).filter fun o =>
    shape.onDirectives || !doc.onDirective o.start

theorem variableDeclarations_eq (doc : Document) :
    doc.variableDeclarations = VariableShape.all.flatMap doc.declaredAs := by
  simp [variableDeclarations, VariableShape.all, declaredAs, declarations,
    VariableShape.recogniser, VariableShape.onDirectives]

theorem declaredAs_pairwise (doc : Document) (shape : VariableShape) :
    (doc.declaredAs shape).Pairwise fun a b => a.start < b.start :=
  (occurrences_start_pairwise shape.faithful shape.namesToken doc.bareText).filter _

/-! ### The declaration that is recorded -/

theorem isLast_append_iff {front back : List (Occurrence Found)} :
    Check.IsLast (front ++ back) o ↔
      Check.IsLast back o ∨ Check.IsLast front o ∧ ∀ p ∈ back, p.name ≠ o.name := by
  refine ⟨fun h => ?_, fun h => ?_⟩
  · obtain ⟨before, after, hsplit, hlast⟩ := h
    rcases List.append_eq_append_iff.mp hsplit with ⟨more, rfl, hback⟩ | ⟨more, hfront, hback⟩
    · exact .inl ⟨more, after, hback, hlast⟩
    · cases more with
      | nil => exact .inl ⟨[], after, hback.symm, hlast⟩
      | cons q more =>
          obtain ⟨rfl, rfl⟩ := List.cons.inj hback
          refine .inr ⟨⟨before, more, hfront, fun p hp => ?_⟩, fun p hp => ?_⟩
          · exact hlast p (List.mem_append_left _ hp)
          · exact hlast p (List.mem_append_right _ hp)
  · rcases h with ⟨before, after, rfl, hlast⟩ | ⟨⟨before, after, rfl, hlast⟩, hback⟩
    · exact ⟨front ++ before, after, (List.append_assoc ..).symm, hlast⟩
    · refine ⟨before, after ++ back, by simp, fun p hp => ?_⟩
      exact (List.mem_append.mp hp).elim (hlast p) (hback p)

/-- In a list that is in the order of the text, the last of a name is farthest on. -/
theorem isLast_iff_of_pairwise {os : List (Occurrence Found)}
    (h : os.Pairwise fun a b => a.start < b.start) :
    Check.IsLast os o ↔ o ∈ os ∧ ∀ p ∈ os, p.name = o.name → p.start ≤ o.start := by
  refine ⟨fun hlast => ⟨hlast.mem, fun p hp hname => ?_⟩, fun hlast => ?_⟩
  · obtain ⟨front, back, rfl, hback⟩ := hlast
    rcases List.mem_append.mp hp with hp | hp
    · exact Nat.le_of_lt ((List.pairwise_append.mp h).2.2 p hp o List.mem_cons_self)
    · cases hp with
      | head => exact Nat.le_refl _
      | tail _ hp => exact absurd hname (hback p hp)
  · obtain ⟨hmem, hlast⟩ := hlast
    obtain ⟨front, back, rfl⟩ := List.append_of_mem hmem
    refine ⟨front, back, rfl, fun p hp hname => ?_⟩
    have hle := hlast p (List.mem_append_right _ (List.mem_cons_of_mem _ hp)) hname
    have hlt := List.rel_of_pairwise_cons (List.pairwise_append.mp h).2.1 hp
    exact Nat.not_lt_of_le hle hlt

/-- The declaration is the last one of its name in its shape, and the name is declared in no
shape that comes later. -/
structure IsRecorded (doc : Document) (shape : VariableShape) (o : Occurrence Found) : Prop where
  mem : o ∈ doc.declaredAs shape
  last : ∀ p ∈ doc.declaredAs shape, p.name = o.name → p.start ≤ o.start
  later : ∀ other : VariableShape, shape.turn < other.turn →
    ∀ p ∈ doc.declaredAs other, p.name ≠ o.name

theorem isLast_flatMap_iff {shapes : List VariableShape}
    (h : shapes.Pairwise fun a b => a.turn < b.turn) :
    Check.IsLast (shapes.flatMap doc.declaredAs) o ↔
      ∃ shape ∈ shapes, Check.IsLast (doc.declaredAs shape) o ∧
        ∀ other ∈ shapes, shape.turn < other.turn →
          ∀ p ∈ doc.declaredAs other, p.name ≠ o.name := by
  induction shapes with
  | nil =>
      refine ⟨fun hlast => absurd hlast.mem List.not_mem_nil, fun hlast => ?_⟩
      obtain ⟨shape, hshape, -⟩ := hlast
      exact absurd hshape List.not_mem_nil
  | cons first rest ih =>
      obtain ⟨hfirst, hrest⟩ := List.pairwise_cons.mp h
      rw [List.flatMap_cons, isLast_append_iff, ih hrest]
      refine ⟨fun hlast => ?_, fun hlast => ?_⟩
      · rcases hlast with ⟨shape, hshape, hlast, hlater⟩ | ⟨hlast, hbehind⟩
        · refine ⟨shape, List.mem_cons_of_mem _ hshape, hlast, fun other hother hturn => ?_⟩
          cases hother with
          | head => exact absurd (hfirst shape hshape) (Nat.lt_asymm hturn)
          | tail _ hother => exact hlater other hother hturn
        · refine ⟨first, List.mem_cons_self, hlast, fun other hother hturn p hp => ?_⟩
          cases hother with
          | head => exact absurd hturn (Nat.lt_irrefl _)
          | tail _ hother => exact hbehind p (List.mem_flatMap.mpr ⟨other, hother, hp⟩)
      · obtain ⟨shape, hshape, hlast, hlater⟩ := hlast
        cases hshape with
        | head =>
            refine .inr ⟨hlast, fun p hp => ?_⟩
            obtain ⟨other, hother, hp⟩ := List.mem_flatMap.mp hp
            exact hlater other (List.mem_cons_of_mem _ hother) (hfirst other hother) p hp
        | tail _ hshape =>
            refine .inl ⟨shape, hshape, hlast, fun other hother hturn => ?_⟩
            exact hlater other (List.mem_cons_of_mem _ hother) hturn

theorem isLast_variableDeclarations_iff :
    Check.IsLast doc.variableDeclarations o ↔ ∃ shape, doc.IsRecorded shape o := by
  rw [variableDeclarations_eq, isLast_flatMap_iff VariableShape.all_pairwise]
  refine ⟨fun h => ?_, fun h => ?_⟩
  · obtain ⟨shape, -, hlast, hlater⟩ := h
    obtain ⟨hmem, hlast⟩ := (isLast_iff_of_pairwise (doc.declaredAs_pairwise shape)).mp hlast
    exact ⟨shape, hmem, hlast, fun other => hlater other other.mem_all⟩
  · obtain ⟨shape, hmem, hlast, hlater⟩ := h
    refine ⟨shape, shape.mem_all, ?_, fun other _ => hlater other⟩
    exact (isLast_iff_of_pairwise (doc.declaredAs_pairwise shape)).mpr ⟨hmem, hlast⟩

theorem nodup_names_places (doc : Document) : doc.symbols.places.names.Nodup := by
  have hempty : (Table.empty : Table Position).names.Nodup := List.nodup_nil
  exact Table.nodup_names_insertAll hempty _

/-- The symbols hold the declarations that are recorded. -/
theorem mem_entries_places_iff {name : String} {position : Position} :
    (name, position) ∈ doc.symbols.places.entries ↔
      ∃ shape o, doc.IsRecorded shape o ∧ o.name = name ∧ doc.positionAt o.start = position := by
  refine Check.mem_entries_insertAll_iff.trans ⟨fun h => ?_, fun h => ?_⟩
  · obtain ⟨o, hlast, hname, hposition⟩ := h
    obtain ⟨shape, hrecorded⟩ := isLast_variableDeclarations_iff.mp hlast
    exact ⟨shape, o, hrecorded, hname, hposition⟩
  · obtain ⟨shape, o, hrecorded, hname, hposition⟩ := h
    exact ⟨o, isLast_variableDeclarations_iff.mpr ⟨shape, hrecorded⟩, hname, hposition⟩

/-! ### The last place of a name -/

/-- No declaration of the name, of any shape, stands behind the offset. -/
def IsLastOffset (doc : Document) (name : String) (offset : Nat) : Prop :=
  ∀ shape, ∀ p ∈ doc.declaredAs shape, p.name = name → p.start ≤ offset

/-- No declaration of the name, of any shape, has a position behind this one. -/
def IsLastPlace (doc : Document) (name : String) (position : Position) : Prop :=
  ∀ shape, ∀ p ∈ doc.declaredAs shape, p.name = name → ¬ position < doc.positionAt p.start

theorem visibleAt_start_of_mem_declaredAs (h : o ∈ doc.declaredAs shape) :
    VisibleAt doc.bareText o.start := by
  have ho := (List.mem_filter.mp h).1
  obtain ⟨before, after, htext, hstart, -⟩ := exists_name_of_mem_occurrences shape.faithful ho
  rw [htext, hstart]
  exact visibleAt_of_token (isToken_name_of_mem_occurrences shape.namesToken ho)

theorem Fits.positionAt_lt_iff (fits : doc.Fits) {m n : Nat}
    (hm : VisibleAt doc.bareText m) (hn : VisibleAt doc.bareText n) :
    doc.positionAt m < doc.positionAt n ↔ m < n := by
  refine ⟨fun h => Nat.lt_of_not_le fun hle => ?_, fun h => fits.spanAt_start_lt hm h m n⟩
  rcases Nat.lt_or_eq_of_le hle with hlt | rfl
  · have hback : doc.positionAt n < doc.positionAt m := fits.spanAt_start_lt hn hlt n m
    exact Position.not_lt_of_lt hback h
  · exact Position.not_lt_self _ h

/-- In a document that fits, positions are as far on in the text as their offsets. -/
theorem Fits.isLastPlace_iff (fits : doc.Fits) (h : o ∈ doc.declaredAs shape) :
    doc.IsLastPlace o.name (doc.positionAt o.start) ↔ doc.IsLastOffset o.name o.start := by
  have hplace : ∀ {other p}, p ∈ doc.declaredAs other →
      (¬ doc.positionAt o.start < doc.positionAt p.start ↔ p.start ≤ o.start) := by
    intro other p hp
    rw [fits.positionAt_lt_iff (visibleAt_start_of_mem_declaredAs h)
      (visibleAt_start_of_mem_declaredAs hp), Nat.not_lt]
  constructor
  · exact fun hlast other p hp hname => (hplace hp).mp (hlast other p hp hname)
  · exact fun hlast other p hp hname => (hplace hp).mpr (hlast other p hp hname)

/-- The recorded place of a name is its last one, unless a shape that was searched for
earlier has a declaration behind it. -/
theorem IsRecorded.isLastOffset_iff (h : doc.IsRecorded shape o) :
    doc.IsLastOffset o.name o.start ↔
      ∀ earlier : VariableShape, earlier.turn < shape.turn →
        ∀ p ∈ doc.declaredAs earlier, p.name = o.name → p.start ≤ o.start := by
  refine ⟨fun hlast earlier _ => hlast earlier, fun hearlier other p hp hname => ?_⟩
  rcases Nat.lt_trichotomy other.turn shape.turn with hturn | hturn | hturn
  · exact hearlier other hturn p hp hname
  · obtain rfl := VariableShape.eq_of_turn_eq hturn
    exact h.last p hp hname
  · exact absurd hname (h.later other hturn p hp)

/-! ### Names and the lines they stand on -/

variable {before name after : List Char}

/-- A name of the bare text stands on a line, and whether that is a preprocessor line can be
asked of the offset. -/
theorem WellFormed.exists_line_of_name (wf : doc.WellFormed)
    (htext : doc.bareText = before ++ name ++ after) (ht : IsToken name) :
    ∃ line ∈ doc.lines, doc.onDirective (byteLength before) = line.isDirective ∧
      name <:+: line.bare := by
  obtain ⟨number, line, lineBefore, lineAfter, hline, hbare, hplace⟩ :=
    wf.exists_line_of_token htext ht
  refine ⟨line, List.mem_of_getElem? hline, ?_, lineBefore, lineAfter, hbare.symm⟩
  simp only [onDirective, hplace, hline]

/-- In a document that fits, the line reads the name at the position of the offset. -/
theorem Fits.reads_name (fits : doc.Fits) (htext : doc.bareText = before ++ name ++ after)
    (ht : IsToken name) :
    ∃ line, doc.lines[(doc.positionAt (byteLength before)).line.toNat]? = some line ∧
      doc.onDirective (byteLength before) = line.isDirective ∧
      ∃ rawBefore rawAfter, line.raw = rawBefore ++ name ++ rawAfter ∧
        (doc.positionAt (byteLength before)).character.toNat = unitLength rawBefore := by
  obtain ⟨number, line, lineBefore, lineAfter, hline, hbare, hplace⟩ :=
    fits.exists_line_of_token htext ht
  have hblank := fits.blanking line (List.mem_of_getElem? hline)
  rw [hbare] at hblank
  obtain ⟨rawBefore, rawAfter, hraw, hlength⟩ := hblank.exists_token ht.ne_nil ht.no_space
  have hcut : line.raw = rawBefore ++ [] ++ (name ++ rawAfter) := by simp [hraw]
  have hspans := fits.spans_of_raw hline hcut
  have hposition : doc.positionAt (byteLength before) =
      (doc.span number (byteLength rawBefore) (byteLength rawBefore + byteLength [])).start := by
    rw [positionAt, spanAt_eq_span, hplace, hlength]
    rfl
  refine ⟨line, ?_, ?_, rawBefore, rawAfter, hraw, ?_⟩
  · rw [hposition, hspans.start_line]
    exact hline
  · simp only [onDirective, hplace, hline]
  · rw [hposition, hspans.start_character]

end Document

open Document

/-- The symbols record for a name the last of its declarations in the last of the shapes in
which it is declared. That is its last declaration in the text exactly if no shape that was
searched for earlier declares it farther on. In a document that fits, positions say the same
as offsets do. -/
theorem recorded_position_is_last_iff (text name : String) (position : Position) :
    let doc := Document.ofText text.toList
    doc.symbols.places.get? name = some position ↔
      ∃ shape o, doc.IsRecorded shape o ∧ o.name = name ∧ doc.positionAt o.start = position ∧
        (doc.IsLastOffset name o.start ↔
          ∀ earlier : VariableShape, earlier.turn < shape.turn →
            ∀ p ∈ doc.declaredAs earlier, p.name = name → p.start ≤ o.start) ∧
        (doc.Fits → (doc.IsLastPlace name position ↔ doc.IsLastOffset name o.start)) := by
  intro doc
  rw [← Table.mem_entries_iff doc.nodup_names_places, mem_entries_places_iff]
  refine ⟨fun h => ?_, fun h => ?_⟩
  · obtain ⟨shape, o, hrecorded, rfl, rfl⟩ := h
    exact ⟨shape, o, hrecorded, rfl, rfl, hrecorded.isLastOffset_iff,
      fun fits => fits.isLastPlace_iff hrecorded.mem⟩
  · obtain ⟨shape, o, hrecorded, hname, hposition, -⟩ := h
    exact ⟨shape, o, hrecorded, hname, hposition⟩

/-- Objects are searched for after variables of the value types, so the object is recorded
though the other declaration stands behind it. -/
theorem recorded_position_not_last :
    let doc := Document.ofText "Foo x; int x;".toList
    doc.symbols.places.get? "x" = some ⟨0, 4⟩ ∧ ¬ doc.IsLastPlace "x" ⟨0, 4⟩ := by
  intro doc
  let o : Occurrence Found := ⟨" ;x ooF".toList, 7, ⟨"int ".toList, ['x'], []⟩⟩
  have ho : o ∈ doc.declaredAs .typed := by decide +kernel
  have hbehind : (⟨0, 4⟩ : Position) < doc.positionAt o.start := by decide +kernel
  exact ⟨by decide +kernel, fun h => h .typed o ho rfl hbehind⟩

/-- The symbols hold each variable once, at a position where the line as written reads its
name, if the text is shorter than 2^32 bytes. On a preprocessor line, this is where the name
is defined as a macro. The name of a function stands on a line that is no preprocessor line. -/
theorem symbols_anchored (text : String) :
    let doc := Document.ofText text.toList
    doc.symbols.places.names.Nodup ∧
    (byteLength text.toList < UInt32.size →
      ∀ name position, (name, position) ∈ doc.symbols.places.entries →
        ∃ line, doc.lines[position.line.toNat]? = some line ∧
          (∃ before after, line.raw = before ++ name.toList ++ after ∧
            position.character.toNat = unitLength before) ∧
          (line.isDirective = true → ∃ o ∈ occurrences macroDefinition doc.bareText,
            o.name = name ∧ doc.positionAt o.start = position)) ∧
    ∀ name ∈ doc.symbols.functions, ∃ line ∈ doc.lines,
      name.toList <:+: line.bare ∧ line.isDirective = false := by
  intro doc
  have wf : doc.WellFormed := ofText_wellFormed text.toList
  refine ⟨doc.nodup_names_places, fun hsize name position h => ?_, fun name h => ?_⟩
  · have fits : doc.Fits := ofText_fits hsize
    obtain ⟨shape, o, hrecorded, rfl, rfl⟩ := mem_entries_places_iff.mp h
    obtain ⟨ho, hkept⟩ := List.mem_filter.mp hrecorded.mem
    obtain ⟨before, after, htext, hstart, -⟩ := exists_name_of_mem_occurrences shape.faithful ho
    obtain ⟨line, hline, hdirective, hreads⟩ :=
      fits.reads_name htext (isToken_name_of_mem_occurrences shape.namesToken ho)
    rw [← hstart] at hline hdirective hreads
    rw [Occurrence.toList_name]
    refine ⟨line, hline, hreads, fun hon => ?_⟩
    -- Only macros are kept on a preprocessor line.
    rw [hdirective, hon] at hkept
    cases shape with
    | macroName => exact ⟨o, ho, rfl, rfl⟩
    | typed | object | typeName => simp [VariableShape.onDirectives] at hkept
  · obtain ⟨o, ho, rfl⟩ := Check.mem_functions_iff.mp h
    have hoff : doc.onDirective o.start = false := by
      rcases List.mem_append.mp ho with ho | ho <;> simpa using (List.mem_filter.mp ho).2
    obtain ⟨lead, hlead, hopens, ho⟩ := Check.exists_lead_of_mem_functionDeclarations ho
    obtain ⟨before, after, hword, hstart⟩ :=
      exists_wordAt_of_mem_occurrences hlead hopens openParen_closesWord ho
    obtain ⟨line, hline, hdirective, hinfix⟩ :=
      wf.exists_line_of_name (hword.eq.trans (List.append_assoc ..).symm)
        (isToken_of_isIdentifier hword.isIdentifier)
    rw [Occurrence.toList_name]
    refine ⟨line, hline, hinfix, ?_⟩
    rw [← hdirective, ← hstart, hoff]

/-- A macro behind a comment whose characters have more bytes than columns, and a function
on the next line. -/
theorem symbols_anchored_behind_comment :
    let doc := Document.ofText "/*é*/#define A\nCFoo *b();".toList
    ("A", ⟨0, 13⟩) ∈ doc.symbols.places.entries ∧ "b" ∈ doc.symbols.functions ∧
      (∃ line, doc.lines[0]? = some line ∧
        (∃ before after, line.raw = before ++ "A".toList ++ after ∧ 13 = unitLength before) ∧
        (line.isDirective = true → ∃ o ∈ occurrences macroDefinition doc.bareText,
          o.name = "A" ∧ doc.positionAt o.start = ⟨0, 13⟩)) ∧
      ∃ line ∈ doc.lines, "b".toList <:+: line.bare ∧ line.isDirective = false := by
  intro doc
  have hdefined : ("A", ⟨0, 13⟩) ∈ doc.symbols.places.entries := by decide +kernel
  have hfunction : "b" ∈ doc.symbols.functions := by decide +kernel
  obtain ⟨-, hvariables, hfunctions⟩ := symbols_anchored "/*é*/#define A\nCFoo *b();"
  exact ⟨hdefined, hfunction, hvariables (by decide) _ _ hdefined, hfunctions _ hfunction⟩

end TradeScript
