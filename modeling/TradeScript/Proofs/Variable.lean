import TradeScript.Proofs.Function
import TradeScript.Proofs.Repetition

/-!
# TradeScript.Proofs.Variable

Variables of which one check says that they are not declared, and another that they are
declared and not used. The first check asks the symbols of the document, the second looks
for declarations itself, and the two do not agree on what a declaration is.

The symbols leave preprocessor lines alone, apart from macros. They also accept a
reference mark between a type and a name, and matches do not overlap: behind such a mark,
what is the type of the next declaration can be taken for a name, and then the search goes
on behind it (`overlooks_iff`). The other check knows of neither. A name that it finds where
the symbols record nothing is stray (`Stray`), and reports contradict themselves about
stray names only (`exists_reported_twice_iff`).
-/

namespace TradeScript

open Scan (Found Occurrence Recogniser occurrences)
open Text (byteLength byteLength_append byteLength_cons)

namespace Check

open Scan

variable {doc : Document} {dialect : Dialect}

/-! ### Undefined variables -/

/-- The words of the lines are the words of the text. -/
theorem undefinedVariables_eq_map (wf : doc.WellFormed) (dialect : Dialect) :
    undefinedVariables dialect doc =
      ((occurrences identifierWord doc.bareText).filter fun o =>
        !isDefined dialect doc.symbols o.name).map
        fun o => (Finding.undefinedVariable o.name).report (doc.spanAt o.start o.stop) := by
  let defined (placed : (Nat × Nat) × Found) : Bool :=
    isDefined dialect doc.symbols (String.ofList placed.2.name)
  let report (placed : (Nat × Nat) × Found) : Diagnostic :=
    (Finding.undefinedVariable (String.ofList placed.2.name)).report
      (doc.span placed.1.1 placed.1.2 (placed.1.2 + byteLength placed.2.name))
  have hstart : ∀ {text o}, o ∈ occurrences identifierWord text → o.start = o.offset :=
    start_of_mem_occurrences (wordNaming_nothing_noLead wordEnd)
  calc undefinedVariables dialect doc
      = ((((doc.lines.map Line.bare).zipIdx 0).flatMap fun line =>
          (occurrences identifierWord line.1).map fun o => ((line.2, o.offset), o.found)).filter
            (!defined ·)).map report := by
        rw [List.zipIdx_map, List.flatMap_map, List.filter_flatMap, List.map_flatMap]
        unfold undefinedVariables
        simp only [filterMap_unless]
        refine List.flatMap_congr fun x _ => ?_
        rw [List.filter_map, List.map_map]
        refine List.map_congr_left fun o ho => ?_
        simp only [Function.comp, report, ← hstart (List.mem_filter.mp ho).1]
        rfl
    _ = _ := by
        rw [occurrences_joinWith identifierWord_faithful identifierWord_staysOnLine,
          List.filter_map, List.map_map]
        refine List.map_congr_left fun o ho => ?_
        have hlengths : (doc.lines.map Line.bare).map byteLength = doc.lengths := by
          rw [wf.lengths_eq, List.map_map]
          rfl
        have hspan : doc.spanAt o.start o.stop = doc.span (doc.placeOf o.offset).1
            (doc.placeOf o.offset).2 ((doc.placeOf o.offset).2 + byteLength o.found.name) := by
          rw [Document.spanAt_eq_span, Occurrence.stop, Nat.add_sub_cancel_left,
            hstart (List.mem_filter.mp ho).1]
        simp only [Function.comp, report, hlengths, Nat.zero_add, hspan]
        rfl

/-! ### Unused variables -/

/-- The declaration is the last of its name. -/
def IsLast (declarations : List (Occurrence Found)) (o : Occurrence Found) : Prop :=
  ∃ front back, declarations = front ++ o :: back ∧ ∀ p ∈ back, p.name ≠ o.name

/-- The words of a text. -/
def wordsOf (text : List Char) : List String :=
  (occurrences identifierWord text).map Occurrence.name

/-- A table of declarations holds for each name what its last declaration gives. -/
theorem mem_entries_insertAll_iff {α : Type} {value : Occurrence Found → α}
    {declarations : List (Occurrence Found)} {name : String} {a : α} :
    (name, a) ∈ (Table.empty.insertAll
        (declarations.map fun o => (o.name, value o))).entries ↔
      ∃ o, IsLast declarations o ∧ o.name = name ∧ value o = a := by
  rw [Table.mem_entries_insertAll_empty]
  constructor
  · intro h
    obtain ⟨front, back, hsplit, hback⟩ := h
    obtain ⟨os, rest, hos, -, hrest⟩ := List.map_eq_append_iff.mp hsplit
    obtain ⟨o, os', rfl, ho, rfl⟩ := List.map_eq_cons_iff.mp hrest
    obtain ⟨rfl, rfl⟩ := Prod.mk.inj ho
    refine ⟨o, ⟨os, os', hos, fun p hp => ?_⟩, rfl, rfl⟩
    exact hback _ (List.mem_map_of_mem hp)
  · intro h
    obtain ⟨o, ⟨front, back, hsplit, hback⟩, rfl, rfl⟩ := h
    rw [hsplit, List.map_append, List.map_cons]
    refine ⟨_, _, rfl, fun e he => ?_⟩
    obtain ⟨p, hp, rfl⟩ := List.mem_map.mp he
    exact hback p hp

theorem mem_unusedVariables_iff {e : Diagnostic} :
    e ∈ unusedVariables doc ↔ ∃ o, IsLast (usableDeclarations doc.bareText) o ∧
      useCount (wordsOf doc.bareText) o.name = 1 ∧
      e = (Finding.unusedVariable o.name).report (doc.spanAt o.start o.stop) := by
  simp only [unusedVariables, List.mem_map, List.mem_filter, beq_iff_eq]
  constructor
  · rintro ⟨⟨name, range⟩, ⟨hentry, hcount⟩, rfl⟩
    obtain ⟨o, hlast, rfl, rfl⟩ := mem_entries_insertAll_iff.mp hentry
    exact ⟨o, hlast, hcount, rfl⟩
  · rintro ⟨o, hlast, hcount, rfl⟩
    exact ⟨_, ⟨mem_entries_insertAll_iff.mpr ⟨o, hlast, rfl, rfl⟩, hcount⟩, rfl⟩

theorem eq_of_useCount_eq_one {text : List Char} {v w : Occurrence Found}
    (hv : v ∈ occurrences identifierWord text) (hw : w ∈ occurrences identifierWord text)
    (h : useCount (wordsOf text) v.name = 1) (hname : v.name = w.name) : v = w := by
  rw [useCount, wordsOf, List.countP_map, List.countP_eq_length_filter] at h
  obtain ⟨only, honly⟩ := List.length_eq_one_iff.mp h
  have heq : ∀ o ∈ occurrences identifierWord text, o.name = v.name → o = only := by
    intro o ho hname
    refine List.mem_singleton.mp (honly ▸ List.mem_filter.mpr ⟨ho, ?_⟩)
    exact beq_iff_eq.mpr hname
  rw [heq v hv rfl, heq w hw hname.symm]

/-! ### Declarations in a text -/

theorem byteLength_pos_of_isIdentifier {name : List Char} (h : isIdentifier name = true) :
    0 < byteLength name := by
  obtain ⟨c, cs, rfl, -, -⟩ := exists_cons_of_isIdentifier h
  exact Nat.add_pos_left c.utf8Size_pos _

/-- A type that passes a test, and the name of a variable. -/
def declarationBy (test : List Char → Bool) : Recogniser Found :=
  wordNaming (inTurn [passing test identifier, separator]) wordEnd

theorem declarationBy_faithful (test : List Char → Bool) : (declarationBy test).Faithful :=
  wordNaming_faithful (by simp) wordEnd_faithful

theorem declarationBy_eq_some {test : List Char → Bool} {previous : Option Char} {cs : List Char}
    {found : Found} (h : declarationBy test previous cs = some found) :
    opensWord previous = true ∧ ∃ type sep name after, cs = type ++ (sep ++ (name ++ after)) ∧
      isIdentifier type = true ∧ (∀ c ∈ sep, isNameStart c = false) ∧ isIdentifier name = true ∧
      found = ⟨type ++ sep, name, []⟩ := by
  obtain ⟨lead, name, trail⟩ := found
  obtain ⟨hopens, h⟩ := wordNaming_eq_some h
  obtain ⟨cs₁, cs₂, cs₃, hlead, hname, htrail⟩ := naming_eq_some h
  obtain ⟨type, mid, _, htype, hrest, rfl⟩ := inTurn_cons_eq_some_iff.mp hlead
  obtain ⟨sep, mid', _, hsep, hend, rfl⟩ := inTurn_cons_eq_some_iff.mp hrest
  obtain ⟨rfl, rfl⟩ := inTurn_nil_eq_some_iff.mp hend
  obtain ⟨rfl, hisName, -⟩ := identifier_eq_some_iff.mp hname
  obtain ⟨-, rfl, -⟩ := wordEnd_eq_some_iff.mp htrail
  obtain rfl := separator_faithful _ _ _ hsep
  obtain ⟨rfl, hisType, -⟩ := identifier_eq_some_iff.mp (passing_eq_some_iff.mp htype).1
  refine ⟨hopens, type, sep, name, cs₂, rfl, hisType, fun c hc => ?_, hisName,
    by rw [List.append_nil]⟩
  exact isNameStart_of_isWord
    (((separator_eq_some hsep).2 c hc).elim isWord_of_isBlank isWord_of_isReferenceMark)

/-- Where a word can start inside a declaration, its name starts. -/
theorem eq_lead_of_opensWord {front inside type sep name after rest : List Char} {c : Char}
    (heq : inside ++ c :: rest = type ++ (sep ++ (name ++ after))) (hc : isNameStart c = true)
    (hopens : opensWord (front ++ inside).getLast? = true) (hne : inside ≠ [])
    (hlt : inside.length < (type ++ sep ++ name).length) (htype : isIdentifier type = true)
    (hsep : ∀ d ∈ sep, isNameStart d = false) (hname : isIdentifier name = true) :
    inside = type ++ sep := by
  rcases List.append_eq_append_iff.mp heq with ⟨xs, rfl, -⟩ | ⟨xs, rfl, hxs⟩
  · rw [not_opensWord_of_isNamePart hne fun d hd =>
      forall_isNamePart_of_isIdentifier htype d (List.mem_append_left _ hd)] at hopens
    exact absurd hopens Bool.false_ne_true
  · rcases List.append_eq_append_iff.mp hxs with ⟨ys, rfl, hys⟩ | ⟨ys, rfl, hys⟩
    · by_cases hys' : ys = []
      · rw [hys', List.append_nil]
      -- Inside the name, a character of it stands before the place.
      · obtain ⟨zs, rfl⟩ : ∃ zs, name = ys ++ zs := by
          rcases List.append_eq_append_iff.mp hys with ⟨zs, rfl, -⟩ | ⟨zs, rfl, -⟩
          · simp only [List.length_append] at hlt
            omega
          · exact ⟨zs, rfl⟩
        rw [← List.append_assoc, ← List.append_assoc, not_opensWord_of_isNamePart hys' fun d hd =>
          forall_isNamePart_of_isIdentifier hname d (List.mem_append_left _ hd)] at hopens
        exact absurd hopens Bool.false_ne_true
    · cases ys with
      | nil => rw [List.append_nil]
      | cons d ys =>
          obtain ⟨rfl, -⟩ := List.cons.inj hys
          rw [hsep c (by simp)] at hc
          exact absurd hc Bool.false_ne_true

/-! ### Declarations that are overlooked -/

/-- Wherever a declaration of the shape stands in the text, with its name at the offset,
its type has been taken for the name of another one. -/
def Overlooks (shape : Recogniser Found) (text : List Char) (start : Nat) : Prop :=
  ∀ before rest found, text = before ++ rest → shape before.getLast? rest = some found →
    start = byteLength before + byteLength found.lead →
    ∃ q ∈ occurrences shape text, q.start = byteLength before

/-- A declaration is overlooked exactly if the search for its shape does not find it. -/
theorem overlooks_iff {test : List Char → Bool} {text : List Char} {start : Nat} :
    Overlooks (declarationBy test) text start ↔
      ∀ q ∈ occurrences (declarationBy test) text, q.start ≠ start := by
  constructor
  · rintro h q hq rfl
    obtain ⟨before, rest, htext, -, hoffset, hfound⟩ := exists_match_of_mem_occurrences hq
    obtain ⟨q', hq', hstart'⟩ :=
      h before rest q.found htext hfound (by rw [Occurrence.start, hoffset])
    -- The two matches would overlap.
    obtain ⟨_, _, -, -, -, hfound'⟩ := exists_match_of_mem_occurrences hq'
    obtain ⟨-, type, sep, name, -, -, htype, -, hname, hq'found⟩ := declarationBy_eq_some hfound'
    have htype := byteLength_pos_of_isIdentifier htype
    have hname := byteLength_pos_of_isIdentifier hname
    have hapart := apart_of_mem_occurrences (declarationBy_faithful test) hq' hq
    rw [← hoffset, Occurrence.start, hq'found, byteLength_append] at hstart'
    simp only [hq'found, Matched.text, List.append_nil, byteLength_append] at hapart
    rcases hapart with rfl | hapart | hapart <;> omega
  · intro h before rest found htext hfound hstart
    obtain ⟨hopens, type, sep, name, after, rfl, htype, -⟩ := declarationBy_eq_some hfound
    obtain ⟨c, type, rfl, hc, -⟩ := exists_cons_of_isIdentifier htype
    have hne : c :: type ++ (sep ++ (name ++ after)) ≠ [] := List.cons_ne_nil _ _
    rcases mem_occurrences_or_covered hne hfound with
      hmem | ⟨front, inside, other, rfl, hinside, hlt, hother, hmem⟩
    · rw [← htext] at hmem
      exact absurd hstart.symm (h _ hmem)
    · obtain ⟨-, type', sep', name', after', heq, htype', hsep', hname', rfl⟩ :=
        declarationBy_eq_some hother
      obtain rfl := eq_lead_of_opensWord heq hc hopens hinside
        (by simpa [Matched.text] using hlt) htype' hsep' hname'
      rw [← htext] at hmem
      exact ⟨_, hmem, by simp [Occurrence.start, byteLength_append]⟩

/-- The shapes in which variables are declared. -/
def declarationShapes : List (Recogniser Found) :=
  [typedDeclaration, objectDeclaration]

theorem exists_test_of_mem_declarationShapes {shape : Recogniser Found}
    (h : shape ∈ declarationShapes) : ∃ test, shape = declarationBy test := by
  simp only [declarationShapes, List.mem_cons, List.not_mem_nil, or_false] at h
  rcases h with rfl | rfl
  · exact ⟨_, rfl⟩
  · exact ⟨_, rfl⟩

/-- The symbols of a document record no variable at the offset. On a preprocessor line
there is none, and elsewhere the searches have taken its type for the name of another. -/
def Overlooked (doc : Document) (start : Nat) : Prop :=
  doc.onDirective start = true ∨
    ∀ shape ∈ declarationShapes, Overlooks shape doc.bareText start

theorem overlooked_iff {start : Nat} :
    Overlooked doc start ↔
      ∀ shape ∈ declarationShapes, ∀ q ∈ doc.declarations shape, q.start ≠ start := by
  constructor
  · rintro (h | h) shape hshape q hq rfl
    · have hoff := (List.mem_filter.mp hq).2
      rw [h] at hoff
      exact absurd hoff (by decide)
    · obtain ⟨test, rfl⟩ := exists_test_of_mem_declarationShapes hshape
      exact overlooks_iff.mp (h _ hshape) q (List.mem_filter.mp hq).1 rfl
  · intro h
    refine Classical.or_iff_not_imp_left.mpr fun hoff shape hshape => ?_
    obtain ⟨test, rfl⟩ := exists_test_of_mem_declarationShapes hshape
    refine overlooks_iff.mpr fun q hq hstart => h _ hshape q (List.mem_filter.mpr ⟨hq, ?_⟩) hstart
    rw [hstart, Bool.eq_false_iff.mpr hoff]
    rfl

/-! ### Stray variables -/

/-- A variable that is declared for one check and not for the other: it is the last
declaration whose name has to be used, the name stands only here and as a word, but
neither the vocabulary nor the symbols know it. -/
structure Stray (dialect : Dialect) (doc : Document) (o : Occurrence Found) : Prop where
  last : IsLast (usableDeclarations doc.bareText) o
  once : useCount (wordsOf doc.bareText) o.name = 1
  word : ∃ w ∈ occurrences identifierWord doc.bareText, w.start = o.start
  unknown : Vocabulary.isKnown dialect o.name = false ∧ Vocabulary.isHeaderWord o.name = false
  unnamed : ∀ m ∈ occurrences macroDefinition doc.bareText ++ doc.declarations typeDefinition,
    m.name ≠ o.name
  overlooked : Overlooked doc o.start

theorem declares_iff {name : String} :
    doc.symbols.declares name = true ↔
      (∃ q ∈ doc.variableDeclarations, q.name = name) ∨
        ∃ q ∈ doc.functionDeclarations, q.name = name := by
  rw [Symbols.declares, Bool.or_eq_true, List.contains_iff_mem, mem_functions_iff]
  refine or_congr_left ?_
  rw [Document.symbols, Table.contains_insertAll_empty]
  simp

theorem mem_variableDeclarations_iff {q : Occurrence Found} :
    q ∈ doc.variableDeclarations ↔
      (∃ shape ∈ declarationShapes, q ∈ doc.declarations shape) ∨
        q ∈ occurrences macroDefinition doc.bareText ++ doc.declarations typeDefinition := by
  simp [Document.variableDeclarations, declarationShapes, or_assoc]

/-- The name of a variable that has to be used stands where a word may start. -/
theorem exists_lead_of_mem_usableDeclarations {text : List Char} {o : Occurrence Found}
    (h : o ∈ usableDeclarations text) :
    ∃ lead : Reader, lead.Faithful ∧ lead.OpensWord ∧
      o ∈ occurrences (wordNaming lead nothing) text := by
  have htyped : ∀ r, (inTurn [r, gap]).OpensWord := fun r =>
    inTurn_cons_opensWord r (inTurn_opensWord gap_opensWord (List.forall_mem_nil _))
  obtain ⟨pattern, hpattern, ho⟩ := List.mem_flatMap.mp (List.mem_filter.mp h).1
  simp only [usablePatterns, List.mem_cons, List.not_mem_nil, or_false] at hpattern
  rcases hpattern with rfl | rfl | rfl
  · exact ⟨_, by simp, htyped _, ho⟩
  · exact ⟨_, by simp, inTurn_cons_opensWord _ (inTurn_cons_opensWord _ (htyped _)), ho⟩
  · exact ⟨_, by simp, htyped _, ho⟩

/-- If a name stands only once, what declares it as a word declares it there. -/
theorem start_eq_of_name_eq {lead trail : Reader} (hlead : lead.Faithful)
    (hopens : lead.OpensWord) (hcloses : trail.ClosesWord) {text : List Char}
    {q w : Occurrence Found} (hq : q ∈ occurrences (wordNaming lead trail) text)
    (hw : w ∈ occurrences identifierWord text) (hcount : useCount (wordsOf text) w.name = 1)
    (hname : q.name = w.name) : q.start = w.start := by
  obtain ⟨before, after, hword, hstart⟩ := exists_wordAt_of_mem_occurrences hlead hopens hcloses hq
  have hv := mem_occurrences_identifierWord_iff.mpr ⟨before, _, after, hword, rfl⟩
  rw [eq_of_useCount_eq_one hw hv hcount hname.symm]
  exact hstart

theorem IsLast.mem {declarations : List (Occurrence Found)} {o : Occurrence Found}
    (h : IsLast declarations o) : o ∈ declarations := by
  obtain ⟨front, back, rfl, -⟩ := h
  simp

/-- A name that has to be used is no function, which has a parenthesis behind its name. -/
theorem start_ne_of_mem_functionDeclarations {q o : Occurrence Found}
    (hq : q ∈ doc.functionDeclarations) (ho : o ∈ usableDeclarations doc.bareText)
    (hname : q.name = o.name) : q.start ≠ o.start := by
  intro hstart
  obtain ⟨lead, hlead, -, hq⟩ := exists_lead_of_mem_functionDeclarations hq
  obtain ⟨before, cs, after, rest, htext, hbefore, -, hread, hparen⟩ :=
    exists_identifier_of_mem_occurrences hlead hq
  obtain ⟨rfl, -, -⟩ := identifier_eq_some_iff.mp hread
  obtain ⟨space, rfl, hspace, -⟩ := openParen_eq_some_iff.mp hparen
  have hstop : o.stop = byteLength (before ++ q.found.name) := by
    rw [Occurrence.stop, ← hstart, hbefore, byteLength_append,
      ← String.ofList_injective hname]
  have hfree := (List.mem_filter.mp ho).2
  rw [hstop, htext, ← List.append_assoc, Text.dropBytes_append, Text.trimStart,
    List.dropWhile_append_of_pos hspace, List.dropWhile_cons_of_neg (by decide)] at hfree
  simp at hfree

theorem isDefined_eq_false_iff {name : String} :
    isDefined dialect doc.symbols name = false ↔
      Vocabulary.isKnown dialect name = false ∧ Vocabulary.isHeaderWord name = false ∧
        (∀ q ∈ doc.variableDeclarations, q.name ≠ name) ∧
        ∀ q ∈ doc.functionDeclarations, q.name ≠ name := by
  rw [isDefined, Bool.or_eq_false_iff, Bool.or_eq_false_iff,
    ← Bool.not_eq_true (Symbols.declares ..), declares_iff]
  simp [and_assoc]

theorem name_eq_of_mem_usableDeclarations {text : List Char} {w o : Occurrence Found}
    (hw : w ∈ occurrences identifierWord text) (ho : o ∈ usableDeclarations text)
    (hstart : w.start = o.start) : w.found.name = o.found.name := by
  obtain ⟨lead, hlead, -, ho⟩ := exists_lead_of_mem_usableDeclarations ho
  exact name_eq_of_start_eq nothing_faithful hlead hw ho hstart

/-- A word that is undefined and at the same time an unused declaration is stray. -/
theorem stray_of_undefined {w o : Occurrence Found}
    (hw : w ∈ occurrences identifierWord doc.bareText)
    (hundefined : isDefined dialect doc.symbols w.name = false)
    (hlast : IsLast (usableDeclarations doc.bareText) o)
    (honce : useCount (wordsOf doc.bareText) o.name = 1) (hstart : w.start = o.start) :
    Stray dialect doc o := by
  have hname : w.name = o.name :=
    congrArg String.ofList (name_eq_of_mem_usableDeclarations hw hlast.mem hstart)
  rw [hname] at hundefined
  obtain ⟨hknown, hheader, hvariables, -⟩ := isDefined_eq_false_iff.mp hundefined
  refine ⟨hlast, honce, ⟨w, hw, hstart⟩, ⟨hknown, hheader⟩, fun m hm => ?_, ?_⟩
  · exact hvariables m (mem_variableDeclarations_iff.mpr (.inr hm))
  · refine overlooked_iff.mpr fun shape hshape q hq hq' => ?_
    refine hvariables q (mem_variableDeclarations_iff.mpr (.inl ⟨shape, hshape, hq⟩)) ?_
    obtain ⟨test, rfl⟩ := exists_test_of_mem_declarationShapes hshape
    obtain ⟨lead, hlead, -, ho⟩ := exists_lead_of_mem_usableDeclarations hlast.mem
    exact congrArg String.ofList
      (name_eq_of_start_eq (by simp) hlead (List.mem_filter.mp hq).1 ho hq')

theorem Stray.isDefined_eq_false {o : Occurrence Found} (h : Stray dialect doc o) :
    isDefined dialect doc.symbols o.name = false := by
  obtain ⟨w, hw, hstart⟩ := h.word
  have hname : w.name = o.name :=
    congrArg String.ofList (name_eq_of_mem_usableDeclarations hw h.last.mem hstart)
  have honce := h.once
  rw [← hname] at honce
  refine isDefined_eq_false_iff.mpr ⟨h.unknown.1, h.unknown.2, fun q hq hqname => ?_, ?_⟩
  · rcases mem_variableDeclarations_iff.mp hq with ⟨shape, hshape, hq⟩ | hq
    · refine overlooked_iff.mp h.overlooked shape hshape q hq ?_
      obtain ⟨test, rfl⟩ := exists_test_of_mem_declarationShapes hshape
      rw [← hstart]
      have hopens := inTurn_opensWord separator_opensWord (List.forall_mem_nil _)
      exact start_eq_of_name_eq (by simp) (inTurn_cons_opensWord _ hopens) wordEnd_closesWord
        (List.mem_filter.mp hq).1 hw honce (hqname.trans hname.symm)
    · exact h.unnamed q hq hqname
  · intro q hq hqname
    refine start_ne_of_mem_functionDeclarations hq h.last.mem hqname ?_
    obtain ⟨lead', hlead', hopens', hq⟩ := exists_lead_of_mem_functionDeclarations hq
    rw [← hstart]
    exact start_eq_of_name_eq hlead' hopens' openParen_closesWord hq hw honce
      (hqname.trans hname.symm)

/-! ### Types taken for names -/

/-- The name of the first occurrence stands right before the name of the second, as its
type does. -/
def TakesType (text : List Char) (q o : Occurrence Found) : Prop :=
  ∃ before space after, text = before ++ (q.found.name ++ (space ++ (o.found.name ++ after))) ∧
    (∀ c ∈ space, Text.isBlank c = true) ∧ q.start = byteLength before ∧
    o.start = byteLength before + byteLength q.found.name + byteLength space

theorem separator_of_blanks {space rest : List Char} {c : Char} (hne : space ≠ [])
    (hblank : ∀ d ∈ space, Text.isBlank d = true) (hc : isNameStart c = true) :
    separator (space ++ c :: rest) = some (space, c :: rest) := by
  have hpart := isNamePart_of_isNameStart hc
  have hnotBlank : Text.isBlank c = false := by
    rw [Bool.eq_false_iff]
    intro h
    rw [isNamePart_of_isBlank h] at hpart
    exact absurd hpart Bool.false_ne_true
  have hnotMark : isReferenceMark c = false := by
    rw [Bool.eq_false_iff]
    intro h
    rw [isNameStart_of_isWord (isWord_of_isReferenceMark h)] at hc
    exact absurd hc Bool.false_ne_true
  have hspace := manyOf_append (List.all_eq_true.mpr hblank) hnotBlank rest
  have hgap : gap (space ++ c :: rest) = some (space, c :: rest) :=
    someOf_eq_some_iff.mpr ⟨hne, hspace⟩
  have hmark : inTurn [blanks, single isReferenceMark, blanks] (space ++ c :: rest) = none := by
    have hblanks : blanks (space ++ c :: rest) = some (space, c :: rest) := hspace
    simp only [inTurn, hblanks, single, hnotMark]
    rfl
  simp only [separator, oneOf, hmark, hgap, Option.none_or, Option.some_or]

/-- A type and a name with blanks between them are a declaration, if the name is a word. -/
theorem declarationBy_of_blanks (test : List Char → Bool) {previous : Option Char}
    {type space name after : List Char} (hopens : opensWord previous = true)
    (htype : isIdentifier type = true) (htest : test type = true) (hne : space ≠ [])
    (hblank : ∀ c ∈ space, Text.isBlank c = true) (hname : isIdentifier name = true)
    (hcloses : closesWord after = true) :
    declarationBy test previous (type ++ (space ++ (name ++ after))) =
      some ⟨type ++ space, name, []⟩ := by
  have hreadType := identifier_before_blanks htype hne hblank (name ++ after)
  have hreadSpace : separator (space ++ (name ++ after)) = some (space, name ++ after) := by
    obtain ⟨c, cs, rfl, hstart, -⟩ := exists_cons_of_isIdentifier hname
    exact separator_of_blanks hne hblank hstart
  have hlead : inTurn [passing test identifier, separator] (type ++ (space ++ (name ++ after))) =
      some (type ++ space, name ++ after) :=
    inTurn_cons_eq_some_iff.mpr ⟨type, _, space, passing_eq_some_iff.mpr ⟨hreadType, htest⟩,
      inTurn_cons_eq_some_iff.mpr ⟨space, _, [], hreadSpace, rfl, (List.append_nil _).symm⟩, rfl⟩
  rw [declarationBy, wordNaming, if_pos hopens]
  exact naming_of_readers hlead
    (identifier_eq_some_iff.mpr ⟨rfl, hname, isNamePart_of_closesWord hcloses⟩)
    (wordEnd_eq_some_iff.mpr ⟨hcloses, rfl, rfl⟩)

/-- Before a name that has to be used there are a type and blanks. -/
theorem exists_type_of_mem_occurrences (rs : List Reader) (hrs : ∀ r ∈ rs, r.Faithful)
    (hkeeps : (inTurn rs).KeepsOpen) {test : List Char → Bool} {text : List Char}
    {o : Occurrence Found}
    (ho : o ∈ occurrences (wordNaming (inTurn (rs ++ [passing test identifier, gap])) nothing)
      text) :
    ∃ before type space after, text = before ++ (type ++ (space ++ (o.found.name ++ after))) ∧
      opensWord before.getLast? = true ∧ isIdentifier type = true ∧ test type = true ∧
      space ≠ [] ∧ (∀ c ∈ space, Text.isBlank c = true) ∧
      o.start = byteLength before + byteLength type + byteLength space := by
  obtain ⟨front, cs, rfl, -, hoffset, hfound⟩ := exists_match_of_mem_occurrences ho
  obtain ⟨hopens, hfound⟩ := wordNaming_eq_some hfound
  obtain ⟨cs₁, cs₂, cs₃, hlead, hname, -⟩ := naming_eq_some hfound
  obtain ⟨piece, mid, more, hpiece, hmore, hsplit⟩ := exists_of_inTurn_append hlead
  obtain ⟨type, mid', _, htype, hrest, rfl⟩ := inTurn_cons_eq_some_iff.mp hmore
  obtain ⟨space, mid'', _, hspace, hend, rfl⟩ := inTurn_cons_eq_some_iff.mp hrest
  obtain ⟨rfl, rfl⟩ := inTurn_nil_eq_some_iff.mp hend
  obtain ⟨htype, htest⟩ := passing_eq_some_iff.mp htype
  obtain ⟨hne, hblank⟩ := forall_of_someOf hspace
  refine ⟨front ++ piece, type, space, cs₂, ?_, ?_, (identifier_eq_some_iff.mp htype).2.1, htest,
    hne, hblank, ?_⟩
  · rw [identifier_faithful _ _ _ hname, gap_faithful _ _ _ hspace,
      identifier_faithful _ _ _ htype, List.append_assoc, inTurn_faithful hrs _ _ _ hpiece]
  · rw [List.getLast?_append]
    exact hkeeps _ _ _ hpiece _ hopens
  · rw [Occurrence.start, hoffset, hsplit]
    simp only [byteLength_append, Text.byteLength_nil]
    omega

theorem exists_type_of_mem_usableDeclarations {text : List Char} {o : Occurrence Found}
    (h : o ∈ usableDeclarations text) :
    ∃ test, declarationBy test ∈ declarationShapes ∧ ∃ before type space after,
      text = before ++ (type ++ (space ++ (o.found.name ++ after))) ∧
      opensWord before.getLast? = true ∧ isIdentifier type = true ∧ test type = true ∧
      space ≠ [] ∧ (∀ c ∈ space, Text.isBlank c = true) ∧
      o.start = byteLength before + byteLength type + byteLength space := by
  have htyped : typedDeclaration ∈ declarationShapes := List.mem_cons_self
  have hobject : objectDeclaration ∈ declarationShapes :=
    List.mem_cons_of_mem _ List.mem_cons_self
  have hnothing : (inTurn []).KeepsOpen := inTurn_keepsOpen (List.forall_mem_nil _)
  obtain ⟨pattern, hpattern, ho⟩ := List.mem_flatMap.mp (List.mem_filter.mp h).1
  simp only [usablePatterns, List.mem_cons, List.not_mem_nil, or_false] at hpattern
  rcases hpattern with rfl | rfl | rfl
  · exact ⟨_, htyped, exists_type_of_mem_occurrences [] (List.forall_mem_nil _) hnothing ho⟩
  · have haccess : (inTurn [wordOf Vocabulary.accessWords, gap]).OpensWord :=
      inTurn_cons_opensWord _ (inTurn_opensWord gap_opensWord (List.forall_mem_nil _))
    refine ⟨_, htyped, exists_type_of_mem_occurrences [wordOf Vocabulary.accessWords, gap]
      (by simp) ?_ ho⟩
    exact fun cs piece rest h previous _ => haccess cs piece rest h previous
  · exact ⟨_, hobject, exists_type_of_mem_occurrences [] (List.forall_mem_nil _) hnothing ho⟩

/-- Off the preprocessor lines, a stray variable is overlooked because a search took its
type for the name of another. -/
theorem Stray.exists_takesType {o : Occurrence Found} (h : Stray dialect doc o)
    (hoff : doc.onDirective o.start = false) :
    ∃ shape ∈ declarationShapes, ∃ q ∈ occurrences shape doc.bareText,
      TakesType doc.bareText q o := by
  obtain ⟨test, hshape, before, type, space, after, htext, hopens, htype, htest, hne, hblank,
    hstart⟩ := exists_type_of_mem_usableDeclarations h.last.mem
  obtain ⟨w, hw, hwstart⟩ := h.word
  have hfound := name_eq_of_mem_usableDeclarations hw h.last.mem hwstart
  obtain ⟨front, name, rest, hword, rfl⟩ := mem_occurrences_identifierWord_iff.mp hw
  obtain rfl : name = o.found.name := hfound
  -- The name is a word, so the type and the name are a declaration of the shape.
  have hcloses : closesWord after = true := by
    have hsame : doc.bareText = (before ++ type ++ space) ++ (o.found.name ++ after) := by
      rw [htext]
      simp only [List.append_assoc]
    refine hword.closes_at hsame ?_
    rw [byteLength_append, byteLength_append, ← hstart]
    exact hwstart
  have hfits := declarationBy_of_blanks test hopens htype htest hne hblank
    hword.isIdentifier hcloses
  have hoverlooks := h.overlooked.resolve_left (by rw [hoff]; decide) _ hshape
  obtain ⟨q, hq, hqstart⟩ := hoverlooks before _ _ htext hfits (by
    rw [hstart, byteLength_append, Nat.add_assoc])
  have htaken : q.found.name = type := by
    obtain ⟨front', cs, _, _, hsplit, hfront', -, hread, -⟩ :=
      exists_identifier_of_mem_occurrences (by simp) hq
    obtain ⟨-, rfl⟩ :=
      append_inj_of_byteLength (htext.symm.trans hsplit) (hqstart.symm.trans hfront')
    rw [identifier_before_blanks htype hne hblank] at hread
    exact (Prod.mk.inj (Option.some.inj hread)).1.symm
  subst htaken
  exact ⟨_, hshape, q, hq, before, space, after, htext, hblank, hqstart, hstart⟩

/-! ### Contradictions -/

theorem visibleAt_start_of_mem_occurrences {lead trail : Reader} (hlead : lead.Faithful)
    {text : List Char} {o : Occurrence Found} (h : o ∈ occurrences (wordNaming lead trail) text) :
    VisibleAt text o.start := by
  obtain ⟨before, cs, after, -, rfl, hstart, -, hread, -⟩ :=
    exists_identifier_of_mem_occurrences hlead h
  obtain ⟨rfl, -, -⟩ := identifier_eq_some_iff.mp hread
  rw [hstart, ← List.append_assoc]
  exact visibleAt_of_token (identifier_takesToken _ _ _ hread)

theorem visibleAt_start_of_mem_usableDeclarations {text : List Char} {o : Occurrence Found}
    (h : o ∈ usableDeclarations text) : VisibleAt text o.start := by
  obtain ⟨lead, hlead, -, ho⟩ := exists_lead_of_mem_usableDeclarations h
  exact visibleAt_start_of_mem_occurrences hlead ho

/-- A range is reported by both checks exactly if a stray variable stands there. -/
theorem exists_reported_twice_iff (fits : doc.Fits) {range : Range} :
    (∃ d ∈ undefinedVariables dialect doc, d.range = range) ∧
        (∃ e ∈ unusedVariables doc, e.range = range) ↔
      ∃ o, Stray dialect doc o ∧ doc.spanAt o.start o.stop = range := by
  rw [undefinedVariables_eq_map fits.toWellFormed]
  constructor
  · rintro ⟨⟨d, hd, rfl⟩, e, he, heq⟩
    obtain ⟨w, hw, rfl⟩ := List.mem_map.mp hd
    obtain ⟨hw, hundefined⟩ := List.mem_filter.mp hw
    obtain ⟨o, hlast, honce, rfl⟩ := mem_unusedVariables_iff.mp he
    have hstart : w.start = o.start :=
      fits.spanAt_start_inj (visibleAt_start_of_mem_occurrences nothing_faithful hw)
        (visibleAt_start_of_mem_usableDeclarations hlast.mem) (congrArg Range.start heq).symm
    exact ⟨o, stray_of_undefined hw (by simpa using hundefined) hlast honce hstart, heq⟩
  · rintro ⟨o, hstray, rfl⟩
    obtain ⟨w, hw, hstart⟩ := hstray.word
    have hfound := name_eq_of_mem_usableDeclarations hw hstray.last.mem hstart
    have hname : w.name = o.name := congrArg String.ofList hfound
    have hstop : w.stop = o.stop := by rw [Occurrence.stop, Occurrence.stop, hstart, hfound]
    constructor
    · refine ⟨_, List.mem_map.mpr ⟨w, List.mem_filter.mpr ⟨hw, ?_⟩, rfl⟩, ?_⟩
      · rw [hname, hstray.isDefined_eq_false]
        rfl
      · rw [hstart, hstop]
        rfl
    · exact ⟨_, mem_unusedVariables_iff.mpr ⟨o, hstray.last, hstray.once, rfl⟩, rfl⟩

end Check

/-! ### Reports -/

/-- Of the same token, the first says that it is not declared, the second that it is a
declaration. -/
def Diagnostic.Contradicts (d e : Diagnostic) : Prop :=
  d.code = .undefinedVariable ∧ e.code = .unusedVariable ∧ d.range = e.range

instance (d e : Diagnostic) : Decidable (d.Contradicts e) :=
  inferInstanceAs (Decidable (_ ∧ _))

/-- No diagnostics contradict each other. -/
def Consistent (ds : List Diagnostic) : Prop :=
  ∀ d ∈ ds, ∀ e ∈ ds, ¬ d.Contradicts e

instance (ds : List Diagnostic) : Decidable (Consistent ds) :=
  inferInstanceAs (Decidable (∀ d ∈ ds, ∀ e ∈ ds, ¬ d.Contradicts e))

/-- Diagnostics contradict each other about stray variables only. -/
theorem Diagnostic.Contradicts.exists_stray [Check.PatternEngine] {doc : Document}
    {dialect : Dialect} {d e : Diagnostic} (h : d.Contradicts e) (fits : doc.Fits)
    (hd : d ∈ Check.all dialect doc) (he : e ∈ Check.all dialect doc) :
    ∃ o, Check.Stray dialect doc o ∧ d.range = doc.spanAt o.start o.stop := by
  obtain ⟨hdcode, hecode, hrange⟩ := h
  have hd := Check.mem_checkOf hd
  have he := Check.mem_checkOf he
  rw [hdcode] at hd
  rw [hecode] at he
  obtain ⟨o, ho, hspan⟩ :=
    (Check.exists_reported_twice_iff fits).mp ⟨⟨d, hd, rfl⟩, e, he, hrange.symm⟩
  exact ⟨o, ho, hspan.symm⟩

theorem Check.Stray.exists_contradicts [PatternEngine] {doc : Document} {dialect : Dialect}
    {o : Occurrence Found} (h : Stray dialect doc o) (fits : doc.Fits) :
    ∃ d ∈ all dialect doc, ∃ e ∈ all dialect doc,
      d.Contradicts e ∧ d.range = doc.spanAt o.start o.stop := by
  obtain ⟨⟨d, hd, hdrange⟩, e, he, herange⟩ := (exists_reported_twice_iff fits).mpr ⟨o, h, rfl⟩
  have hdcode := List.mem_singleton.mp (undefinedVariables_code dialect d hd)
  have hecode := List.mem_singleton.mp (unusedVariables_code e he)
  refine ⟨d, ?_, e, ?_, ⟨hdcode, hecode, hdrange.trans herange.symm⟩, hdrange⟩
  · simp only [all, semantic, List.mem_append]
    exact .inl (.inr (.inl (.inl (.inl hd))))
  · simp only [all, style, List.mem_append]
    exact .inr (.inl (.inl (.inl he)))

/-- In a report, diagnostics contradict each other only about stray variables: those that
stand on a preprocessor line, or whose type was taken for the name of another variable.
The reports of a run are consistent, however many diagnostics are wanted, exactly if one
of the two codes is not to be reported, or the text switches one of them off on the line
of every stray variable. -/
theorem check_consistent_iff [Check.PatternEngine] (text : String)
    (fits : (Document.ofText text.toList).Fits) (dialect : Dialect) (codes : List Code) :
    let doc := Document.ofText text.toList
    let quiet := (Suppressions.ofText text.toList).isQuiet
    (∀ limit, ∀ d ∈ (check text dialect ⟨limit, codes⟩).diagnostics,
      ∀ e ∈ (check text dialect ⟨limit, codes⟩).diagnostics, d.Contradicts e →
        ∃ o, Check.Stray dialect doc o ∧ d.range = doc.spanAt o.start o.stop ∧
          (doc.onDirective o.start = true ∨ ∃ shape ∈ Check.declarationShapes,
            ∃ q ∈ occurrences shape doc.bareText, Check.TakesType doc.bareText q o)) ∧
      ((∀ limit, Consistent (check text dialect ⟨limit, codes⟩).diagnostics) ↔
        .undefinedVariable ∈ codes ∨ .unusedVariable ∈ codes ∨
          ∀ o, Check.Stray dialect doc o →
            quiet .undefinedVariable (doc.locate o.start).1 = true ∨
              quiet .unusedVariable (doc.locate o.start).1 = true) := by
  intro doc quiet
  have hwanted : ∀ limit, ∀ d ∈ (check text dialect ⟨limit, codes⟩).diagnostics,
      d ∈ wanted text dialect codes := by
    intro limit d hd
    rw [check_diagnostics] at hd
    exact List.mem_of_mem_take hd
  refine ⟨fun limit d hd e he h => ?_, ⟨fun h => ?_, fun h limit d hd e he hcontra => ?_⟩⟩
  · obtain ⟨hd, -⟩ := mem_wanted_iff.mp (hwanted limit d hd)
    obtain ⟨he, -⟩ := mem_wanted_iff.mp (hwanted limit e he)
    obtain ⟨o, ho, hspan⟩ := h.exists_stray fits hd he
    refine ⟨o, ho, hspan, ?_⟩
    cases hoff : doc.onDirective o.start with
    | true => exact .inl rfl
    | false => exact .inr (ho.exists_takesType hoff)
  · refine Classical.or_iff_not_imp_left.mpr fun hundefined => ?_
    refine Classical.or_iff_not_imp_left.mpr fun hunused o ho => ?_
    refine Classical.byContradiction fun hloud => ?_
    obtain ⟨hloud, hloud'⟩ := not_or.mp hloud
    obtain ⟨d, hd, e, he, hcontra, hrange⟩ := ho.exists_contradicts fits
    obtain ⟨hdcode, hecode, hsame⟩ := hcontra
    have hd : d ∈ wanted text dialect codes := by
      refine mem_wanted_iff.mpr ⟨hd, hdcode ▸ hundefined, ?_⟩
      rw [hdcode, hrange, doc.line_start_spanAt]
      exact Bool.eq_false_iff.mpr hloud
    have he : e ∈ wanted text dialect codes := by
      refine mem_wanted_iff.mpr ⟨he, hecode ▸ hunused, ?_⟩
      rw [hecode, ← hsame, hrange, doc.line_start_spanAt]
      exact Bool.eq_false_iff.mpr hloud'
    have hconsistent := h (wanted text dialect codes).length
    rw [check_diagnostics, List.take_length] at hconsistent
    exact hconsistent d hd e he ⟨hdcode, hecode, hsame⟩
  · obtain ⟨hd, hundefined, hloud⟩ := mem_wanted_iff.mp (hwanted limit d hd)
    obtain ⟨he, hunused, hloud'⟩ := mem_wanted_iff.mp (hwanted limit e he)
    obtain ⟨o, ho, hspan⟩ := hcontra.exists_stray fits hd he
    obtain ⟨hdcode, hecode, hrange⟩ := hcontra
    rw [hdcode] at hundefined hloud
    rw [hecode] at hunused hloud'
    rw [hspan, doc.line_start_spanAt] at hloud
    rw [← hrange, hspan, doc.line_start_spanAt] at hloud'
    rcases h with h | h | h
    · exact hundefined h
    · exact hunused h
    · rcases h o ho with h | h
      · exact absurd (h.symm.trans hloud) (by decide)
      · exact absurd (h.symm.trans hloud') (by decide)

example : ¬ Consistent (check "A & B c;" .mql5 ⟨3, []⟩).diagnostics := by decide +kernel

/-- Nothing is contradicted where unused variables are not to be reported. -/
theorem consistent_without_unused :
    (Document.ofText "#define n int x".toList).Fits ∧ ∀ limit, Consistent
      (check "#define n int x" .mql5 ⟨limit, [.unusedVariable]⟩).diagnostics := by
  have fits : (Document.ofText "#define n int x".toList).Fits :=
    Document.ofText_fits (by decide)
  exact ⟨fits, (check_consistent_iff _ fits _ _).2.mpr (.inr (.inl (by decide)))⟩

/-- The body of a macro declares nothing, but its variable has to be used. -/
theorem not_consistent_macro_body :
    ¬ Consistent (check "#define n int x" .mql5 ⟨2, []⟩).diagnostics := by
  decide +kernel

end TradeScript
