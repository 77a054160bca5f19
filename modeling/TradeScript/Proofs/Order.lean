import TradeScript.Proofs.Ascending

/-!
# TradeScript.Proofs.Order

The order of the diagnostics of a report. The families come one after the other, and
brackets that stay open come last in theirs. Otherwise diagnostics of different checks
may be mixed, but those of one *lane* come in the order of the text.

A list of diagnostics is `Orderly` if this holds of it, and its codes are known. Two
orderly lists can be put together if their codes allow it, which is decided by looking
at the codes alone. So each check is shown to be orderly, and families and reports are
put together from them. Leaving diagnostics out keeps a list orderly.

Only the order of the text asks for positions of 32 bits, so `Orderly` asks for it in
documents that fit. What is known of codes holds of every document, and tells which check
a diagnostic comes from (`mem_checkOf`).
-/

namespace TradeScript

open Scan (Occurrence occurrences)

/-- The place of a family in the order in which families are reported. -/
def Category.rank : Category → Nat
  | syntactic => 0
  | semantic => 1
  | style => 2

namespace Code

/-- The codes whose diagnostics come in the order of the text. Those of one lane are
counted together. -/
def lanes : List (List Code) :=
  [[missingSemicolon], [unmatchedBracket, mismatchedBracket], [unclosedBracket],
   [invalidPreprocessor], [undefinedVariable], [undefinedFunction], [unreachableCode],
   [magicNumber], [longFunction], [deepNesting]]

/-- May a diagnostic of the first code come before one of the second? Families do not
mix, and nothing of the first family comes behind a bracket that stays open. -/
def MayPrecede (c d : Code) : Prop :=
  c.category.rank ≤ d.category.rank ∧
    (c = unclosedBracket → d.category = .syntactic → d = unclosedBracket)

instance (c d : Code) : Decidable (c.MayPrecede d) :=
  inferInstanceAs (Decidable (_ ∧ _))

/-- Are the codes in the same lane? -/
def SameLane (c d : Code) : Prop :=
  ∃ lane ∈ lanes, c ∈ lane ∧ d ∈ lane

instance (c d : Code) : Decidable (c.SameLane d) :=
  inferInstanceAs (Decidable (∃ lane ∈ lanes, c ∈ lane ∧ d ∈ lane))

/-- Diagnostics of the first code may come before those of the second wherever they
are. -/
def Apart (c d : Code) : Prop :=
  c.MayPrecede d ∧ ¬ c.SameLane d

instance (c d : Code) : Decidable (c.Apart d) :=
  inferInstanceAs (Decidable (_ ∧ _))

end Code

/-- The first diagnostic may come before the second in a report on the document. -/
structure Diagnostic.InOrder (doc : Document) (d e : Diagnostic) : Prop where
  mayPrecede : d.code.MayPrecede e.code
  start_lt : doc.Fits → d.code.SameLane e.code → d.range.start < e.range.start

theorem Diagnostic.InOrder.of_apart {doc : Document} {d e : Diagnostic}
    (h : d.code.Apart e.code) : InOrder doc d e :=
  ⟨h.1, fun _ hsame => absurd hsame h.2⟩

/-- The diagnostics have codes from the list, and each may come before all behind it. -/
structure Orderly (doc : Document) (codes : List Code) (ds : List Diagnostic) : Prop where
  code_mem : ∀ d ∈ ds, d.code ∈ codes
  pairwise : ds.Pairwise (Diagnostic.InOrder doc)

namespace Orderly

variable {doc : Document} {codes codes' : List Code} {ds es : List Diagnostic}

/-- Diagnostics in the order of the text. -/
theorem of_ascending (hcodes : ∀ d ∈ ds, d.code ∈ codes) (hds : doc.Fits → Ascending ds)
    (h : ∀ c ∈ codes, ∀ d ∈ codes, c.MayPrecede d) : Orderly doc codes ds where
  code_mem := hcodes
  pairwise := by
    have hprecede : ds.Pairwise fun d e => d.code.MayPrecede e.code :=
      List.pairwise_of_forall_mem_list fun d hd e he => h _ (hcodes d hd) _ (hcodes e he)
    by_cases fits : doc.Fits
    · exact (hprecede.and (hds fits)).imp fun ⟨hcode, hlt⟩ => ⟨hcode, fun _ _ => hlt⟩
    · exact hprecede.imp fun hcode => ⟨hcode, fun hfits => absurd hfits fits⟩

/-- Diagnostics of codes outside the lanes. -/
theorem of_apart (hcodes : ∀ d ∈ ds, d.code ∈ codes)
    (h : ∀ c ∈ codes, ∀ d ∈ codes, c.Apart d) : Orderly doc codes ds where
  code_mem := hcodes
  pairwise := List.pairwise_of_forall_mem_list fun d hd e he =>
    .of_apart (h _ (hcodes d hd) _ (hcodes e he))

theorem append (hds : Orderly doc codes ds) (hes : Orderly doc codes' es)
    (h : ∀ c ∈ codes, ∀ d ∈ codes', c.Apart d) : Orderly doc (codes ++ codes') (ds ++ es) where
  code_mem := by
    intro d hd
    rcases List.mem_append.mp hd with hd | hd
    · exact List.mem_append_left _ (hds.code_mem d hd)
    · exact List.mem_append_right _ (hes.code_mem d hd)
  pairwise := by
    refine List.pairwise_append.mpr ⟨hds.pairwise, hes.pairwise, fun d hd e he => ?_⟩
    exact .of_apart (h _ (hds.code_mem d hd) _ (hes.code_mem e he))

end Orderly

namespace Check

open Scan

variable {doc : Document} {line : Line} {number : Nat}

/-! ### Checks of one line -/

theorem semicolon_on : ∀ d ∈ semicolon doc line number,
    d.code ∈ [Code.missingSemicolon] ∧ d.range.start.line = .ofNatClamp number := by
  intro d hd
  unfold semicolon at hd
  split at hd
  · simp at hd
  · obtain rfl := List.mem_singleton.mp hd
    exact ⟨List.mem_singleton_self _, rfl⟩

theorem semicolon_ascending : Ascending (semicolon doc line number) := by
  unfold semicolon
  split
  · exact .nil
  · exact List.pairwise_singleton _ _

theorem semicolon_orderly : Orderly doc [.missingSemicolon] (semicolon doc line number) :=
  .of_ascending (fun d hd => (semicolon_on d hd).1) (fun _ => semicolon_ascending)
    (by decide)

theorem code_of_matchBrackets {pending : List OpenBracket} {chars : List (Nat × Char)}
    {column : Nat} {f : Finding} (h : (column, f) ∈ (matchBrackets number pending chars).1) :
    f.code ∈ [Code.unmatchedBracket, Code.mismatchedBracket] := by
  fun_induction matchBrackets number pending chars with
  | case1 => simp at h
  | case2 _ _ _ _ _ ih => exact ih h
  | case3 _ _ _ _ _ _ ih => exact ih h
  | case4 _ _ _ _ _ _ ih =>
      rcases List.mem_cons.mp h with h | h
      · exact (Prod.mk.inj h).2 ▸ List.mem_cons_self
      · exact ih h
  | case5 _ _ _ _ _ _ ih => exact ih h
  | case6 _ _ _ _ _ _ _ _ _ ih =>
      rcases List.mem_cons.mp h with h | h
      · exact (Prod.mk.inj h).2 ▸ List.mem_cons_of_mem _ List.mem_cons_self
      · exact ih h

theorem bracketsOfLine_on (pending : List OpenBracket) :
    ∀ d ∈ (bracketsOfLine doc pending line number).1,
      d.code ∈ [Code.unmatchedBracket, Code.mismatchedBracket] ∧
        d.range.start.line = .ofNatClamp number := by
  intro d hd
  obtain ⟨⟨column, f⟩, hf, rfl⟩ := List.mem_map.mp hd
  exact ⟨code_of_matchBrackets hf, rfl⟩

theorem bracketsOfLine_orderly (h : (line, number) ∈ doc.numbered)
    (pending : List OpenBracket) :
    Orderly doc [.unmatchedBracket, .mismatchedBracket]
      (bracketsOfLine doc pending line number).1 :=
  .of_ascending (fun d hd => (bracketsOfLine_on pending d hd).1)
    (fun fits => bracketsOfLine_ascending fits h pending) (by decide)

theorem naming_on : ∀ d ∈ naming doc line number,
    d.code ∈ [Code.invalidFunctionName, Code.reservedKeyword] ∧
      d.range.start.line = .ofNatClamp number := by
  intro d hd
  unfold naming at hd
  split at hd
  · simp at hd
  · rcases List.mem_append.mp hd with hd | hd
    · unfold functionName at hd
      split at hd
      · simp at hd
      · split at hd
        · simp at hd
        · obtain rfl := List.mem_singleton.mp hd
          exact ⟨List.mem_cons_self, rfl⟩
    · obtain ⟨o, -, rfl⟩ := List.mem_map.mp hd
      exact ⟨List.mem_cons_of_mem _ List.mem_cons_self, rfl⟩

theorem naming_orderly :
    Orderly doc [.invalidFunctionName, .reservedKeyword] (naming doc line number) :=
  .of_apart (fun d hd => (naming_on d hd).1) (by decide)

/-- What is reported for one directive. -/
def ofDirective (doc : Document) (line : Line) (number : Nat) (o : Occurrence Found) :
    List Diagnostic :=
  if !Vocabulary.isDirective o.name then
    [(Finding.invalidPreprocessor o.name).report (doc.span number o.offset o.stop)]
  else if o.name == "property" then propertyKeyFrom doc line number o
  else []

theorem directives_eq_flatMap :
    directives doc line number =
      (occurrences directiveName line.bare).flatMap (ofDirective doc line number) :=
  rfl

/-- A directive is reported once at most: its name, or the key of a property. -/
theorem ofDirective_cases (o : Occurrence Found) :
    ofDirective doc line number o = [] ∨
      ∃ d, ofDirective doc line number o = [d] ∧ d.range.start.line = .ofNatClamp number ∧
        (d = (Finding.invalidPreprocessor o.name).report (doc.span number o.offset o.stop) ∨
          d.code = .invalidPropertyValue) := by
  unfold ofDirective
  split
  · exact Or.inr ⟨_, rfl, rfl, Or.inl rfl⟩
  · split
    · unfold propertyKeyFrom
      split
      · exact Or.inl rfl
      · split
        · exact Or.inl rfl
        · exact Or.inr ⟨_, rfl, rfl, Or.inr rfl⟩
    · exact Or.inl rfl

theorem of_mem_ofDirective {o : Occurrence Found} {d : Diagnostic}
    (h : d ∈ ofDirective doc line number o) : d.range.start.line = .ofNatClamp number ∧
      (d = (Finding.invalidPreprocessor o.name).report (doc.span number o.offset o.stop) ∨
        d.code = .invalidPropertyValue) := by
  rcases ofDirective_cases o with hnil | ⟨e, hcons, he⟩
  · exact absurd (hnil ▸ h) List.not_mem_nil
  · rw [hcons, List.mem_singleton] at h
    exact h ▸ he

theorem directives_on : ∀ d ∈ directives doc line number,
    d.code ∈ [Code.invalidPreprocessor, Code.invalidPropertyValue] ∧
      d.range.start.line = .ofNatClamp number := by
  intro d hd
  obtain ⟨o, -, hd⟩ := List.mem_flatMap.mp (directives_eq_flatMap ▸ hd)
  obtain ⟨hline, rfl | hcode⟩ := of_mem_ofDirective hd
  · exact ⟨List.mem_cons_self, rfl⟩
  · exact ⟨hcode ▸ List.mem_cons_of_mem _ List.mem_cons_self, hline⟩

theorem directives_orderly (h : (line, number) ∈ doc.numbered) :
    Orderly doc [.invalidPreprocessor, .invalidPropertyValue] (directives doc line number) := by
  refine ⟨fun d hd => (directives_on d hd).1, ?_⟩
  rw [directives_eq_flatMap]
  refine List.pairwise_flatMap.mpr ⟨fun o _ => ?_,
    (occurrences_pairwise directiveName line.bare).imp_of_mem ?_⟩
  · rcases ofDirective_cases o with hnil | ⟨d, hcons, -⟩
    · exact hnil ▸ .nil
    · exact hcons ▸ List.pairwise_singleton _ _
  · intro a b ha hb hlt d hd e he
    have hcode' : e.code ∈ [Code.invalidPreprocessor, Code.invalidPropertyValue] :=
      (directives_on e (List.mem_flatMap.mpr ⟨b, hb, he⟩)).1
    -- Only names of directives are in a lane, and these are reported where they start.
    obtain ⟨-, rfl | hcode⟩ := of_mem_ofDirective hd
    · obtain ⟨-, rfl | hcode⟩ := of_mem_ofDirective he
      · have hself : Code.MayPrecede .invalidPreprocessor .invalidPreprocessor := by decide
        have hvisible := visibleAt_of_mem_occurrences directiveName_startsVisible ha
        exact ⟨hself, fun fits _ => fits.span_start_lt h hvisible hlt _ _⟩
      · have hapart : Code.Apart .invalidPreprocessor .invalidPropertyValue := by decide
        exact .of_apart (hcode ▸ hapart)
    · have hapart : ∀ c ∈ [Code.invalidPreprocessor, Code.invalidPropertyValue],
          Code.Apart .invalidPropertyValue c := by decide
      exact .of_apart (hcode ▸ hapart _ hcode')

/-- The codes of the checks of one line. -/
def lineCodes : List Code :=
  [.missingSemicolon] ++ [.unmatchedBracket, .mismatchedBracket] ++
    [.invalidFunctionName, .reservedKeyword] ++ [.invalidPreprocessor, .invalidPropertyValue]

theorem syntaxOfLine_orderly (h : (line, number) ∈ doc.numbered)
    {matched : List Diagnostic} (hm : Orderly doc [.unmatchedBracket, .mismatchedBracket] matched) :
    Orderly doc lineCodes (syntaxOfLine doc (line, number) matched) :=
  ((semicolon_orderly.append hm (by decide)).append naming_orderly (by decide)).append
    (directives_orderly h) (by decide)

theorem syntaxOfLine_on {matched : List Diagnostic}
    (hm : ∀ d ∈ matched, d.range.start.line = .ofNatClamp number) :
    ∀ d ∈ syntaxOfLine doc (line, number) matched, d.range.start.line = .ofNatClamp number := by
  intro d hd
  simp only [syntaxOfLine, List.mem_append] at hd
  rcases hd with ((hd | hd) | hd) | hd
  · exact (semicolon_on d hd).2
  · exact hm d hd
  · exact (naming_on d hd).2
  · exact (directives_on d hd).2

/-! ### Families -/

theorem code_of_mem_map {α : Type} {xs : List α} {f : α → Diagnostic} {code : Code}
    {d : Diagnostic} (hd : d ∈ xs.map f) (h : ∀ x, (f x).code = code) : d.code ∈ [code] := by
  obtain ⟨x, -, rfl⟩ := List.mem_map.mp hd
  exact List.mem_singleton.mpr (h x)

theorem bracketsOfLines_length (doc : Document) (pending : List OpenBracket)
    (lines : List (Line × Nat)) :
    (bracketsOfLines doc pending lines).1.length = lines.length := by
  induction lines generalizing pending with
  | nil => rfl
  | cons head rest ih => rw [bracketsOfLines, List.length_cons, List.length_cons, ih]

/-- What goes with a line is what was matched on it. -/
theorem exists_bracketsOfLine {pending : List OpenBracket} {lines : List (Line × Nat)}
    {matched : List Diagnostic}
    (h : ((line, number), matched) ∈ lines.zip (bracketsOfLines doc pending lines).1) :
    ∃ pending', matched = (bracketsOfLine doc pending' line number).1 := by
  induction lines generalizing pending with
  | nil => simp at h
  | cons head rest ih =>
      rcases List.mem_cons.mp h with h | h
      · obtain ⟨rfl, rfl⟩ := Prod.mk.inj h
        exact ⟨pending, rfl⟩
      · exact ih h

/-- What the checks of one line find, line after line. -/
theorem mem_lines {d : Diagnostic}
    (h : d ∈ (doc.numbered.zipWith (syntaxOfLine doc)
      (bracketsOfLines doc [] doc.numbered).1).flatten) :
    ∃ line number pending, (line, number) ∈ doc.numbered ∧
      d ∈ syntaxOfLine doc (line, number) (bracketsOfLine doc pending line number).1 := by
  rw [← List.map_uncurry_zip_eq_zipWith, ← List.flatMap_def] at h
  obtain ⟨⟨⟨line, number⟩, matched⟩, hx, hd⟩ := List.mem_flatMap.mp h
  obtain ⟨pending, rfl⟩ := exists_bracketsOfLine hx
  exact ⟨line, number, pending, (List.of_mem_zip hx).1, hd⟩

/-- Line after line is ordered by whatever orders each line and what is found on
different lines. -/
theorem pairwise_lines {R : Diagnostic → Diagnostic → Prop}
    (hline : ∀ line number pending, (line, number) ∈ doc.numbered →
      (syntaxOfLine doc (line, number) (bracketsOfLine doc pending line number).1).Pairwise R)
    (hR : ∀ d e : Diagnostic, d.code ∈ lineCodes → e.code ∈ lineCodes →
      (doc.Fits → d.range.start.line < e.range.start.line) → R d e) :
    ((doc.numbered.zipWith (syntaxOfLine doc)
      (bracketsOfLines doc [] doc.numbered).1).flatten).Pairwise R := by
  rw [← List.map_uncurry_zip_eq_zipWith, ← List.flatMap_def]
  have hcode : ∀ x ∈ doc.numbered.zip (bracketsOfLines doc [] doc.numbered).1,
      ∀ d ∈ syntaxOfLine doc x.1 x.2,
        d.code ∈ lineCodes ∧ d.range.start.line = .ofNatClamp x.1.2 := by
    rintro ⟨⟨line, number⟩, matched⟩ hx d hd
    have hmem := (List.of_mem_zip hx).1
    obtain ⟨pending, rfl⟩ := exists_bracketsOfLine hx
    exact ⟨(syntaxOfLine_orderly hmem (bracketsOfLine_orderly hmem pending)).code_mem d hd,
      syntaxOfLine_on (fun d hd => (bracketsOfLine_on pending d hd).2) d hd⟩
  have hlength := Nat.le_of_eq (bracketsOfLines_length doc [] doc.numbered).symm
  refine List.pairwise_flatMap.mpr ⟨?_, (Document.zip_pairwise hlength).imp_of_mem ?_⟩
  · rintro ⟨⟨line, number⟩, matched⟩ hx
    obtain ⟨pending, rfl⟩ := exists_bracketsOfLine hx
    exact hline line number pending (List.of_mem_zip hx).1
  · intro x y hx hy hlt d hd e he
    obtain ⟨hd, hdline⟩ := hcode x hx d hd
    obtain ⟨he, heline⟩ := hcode y hy e he
    refine hR d e hd he fun fits => ?_
    rw [hdline, heline]
    exact fits.line_lt hlt (Document.lt_lineCount_of_mem (List.of_mem_zip hy).1)

/-- Line after line, each with what was matched on it. -/
theorem lines_orderly (doc : Document) :
    Orderly doc lineCodes ((doc.numbered.zipWith (syntaxOfLine doc)
      (bracketsOfLines doc [] doc.numbered).1).flatten) := by
  have hline : ∀ line number pending, (line, number) ∈ doc.numbered →
      Orderly doc lineCodes
        (syntaxOfLine doc (line, number) (bracketsOfLine doc pending line number).1) :=
    fun line number pending h => syntaxOfLine_orderly h (bracketsOfLine_orderly h pending)
  have hprecede : ∀ c ∈ lineCodes, ∀ d ∈ lineCodes, c.MayPrecede d := by decide
  constructor
  · intro d hd
    obtain ⟨line, number, pending, hmem, hd⟩ := mem_lines hd
    exact (hline line number pending hmem).code_mem d hd
  · exact pairwise_lines (fun line number pending h => (hline line number pending h).pairwise)
      fun d e hd he hlt => ⟨hprecede _ hd _ he, fun fits _ => Or.inl (hlt fits)⟩

theorem syntactic_orderly (doc : Document) :
    Orderly doc (lineCodes ++ [.unclosedBracket]) (syntactic doc) := by
  have hunclosed : Orderly doc [.unclosedBracket]
      (unclosedBrackets doc (bracketsOfLines doc [] doc.numbered).2) :=
    .of_ascending (fun _ hd => code_of_mem_map hd fun _ => rfl) unclosedBrackets_ascending
      (by decide)
  exact (lines_orderly doc).append hunclosed (by decide)

theorem undefinedVariables_code (dialect : Dialect) :
    ∀ d ∈ undefinedVariables dialect doc, d.code ∈ [Code.undefinedVariable] := by
  intro d hd
  obtain ⟨x, -, hd⟩ := List.mem_flatMap.mp hd
  simp only [filterMap_unless] at hd
  exact code_of_mem_map hd fun _ => rfl

theorem undefinedFunctions_code [PatternEngine] (dialect : Dialect) :
    ∀ d ∈ undefinedFunctions dialect doc, d.code ∈ [Code.undefinedFunction] := by
  unfold undefinedFunctions
  rw [filterMap_unless]
  exact fun _ hd => code_of_mem_map hd fun _ => rfl

theorem typeMismatches_code : ∀ d ∈ typeMismatches doc, d.code ∈ [Code.typeMismatch] := by
  intro d hd
  obtain ⟨f, -, hcode, _, _, _, _, -, -, rfl⟩ := exists_of_mem_typeMismatches hd
  exact List.mem_singleton.mpr hcode

theorem unreachable_code : ∀ d ∈ unreachable doc, d.code ∈ [Code.unreachableCode] :=
  fun _ hd => code_of_mem_map hd fun _ => rfl

/-- The codes of the second family. -/
def semanticCodes : List Code :=
  [.undefinedVariable] ++ [.undefinedFunction] ++ [.typeMismatch] ++ [.unreachableCode]

theorem semantic_orderly [PatternEngine] (dialect : Dialect) (doc : Document) :
    Orderly doc semanticCodes (semantic dialect doc) := by
  have hvariables : Orderly doc _ (undefinedVariables dialect doc) :=
    .of_ascending (undefinedVariables_code dialect)
      (fun fits => undefinedVariables_ascending fits dialect) (by decide)
  have hfunctions : Orderly doc _ (undefinedFunctions dialect doc) :=
    .of_ascending (undefinedFunctions_code dialect)
      (fun fits => undefinedFunctions_ascending fits dialect) (by decide)
  have hmismatches : Orderly doc _ (typeMismatches doc) := .of_apart typeMismatches_code (by decide)
  have hunreachable : Orderly doc _ (unreachable doc) :=
    .of_ascending unreachable_code unreachable_ascending (by decide)
  exact ((hvariables.append hfunctions (by decide)).append hmismatches (by decide)).append
    hunreachable (by decide)

theorem unusedVariables_code : ∀ d ∈ unusedVariables doc, d.code ∈ [Code.unusedVariable] :=
  fun _ hd => code_of_mem_map hd fun _ => rfl

theorem magicNumbers_code : ∀ d ∈ magicNumbers doc, d.code ∈ [Code.magicNumber] := by
  intro d hd
  obtain ⟨x, -, hd⟩ := List.mem_flatMap.mp hd
  exact code_of_mem_map hd fun _ => rfl

theorem longFunctions_code : ∀ d ∈ longFunctions doc, d.code ∈ [Code.longFunction] :=
  fun _ hd => code_of_mem_map hd fun _ => rfl

theorem nestingFrom_code (depth : Nat) (lines : List (Line × Nat)) :
    ∀ d ∈ nestingFrom doc depth lines, d.code ∈ [Code.deepNesting] := by
  induction lines generalizing depth with
  | nil => exact fun d hd => absurd hd List.not_mem_nil
  | cons head rest ih =>
      intro d hd
      rcases List.mem_append.mp hd with hd | hd
      · exact code_of_mem_map hd fun _ => rfl
      · exact ih _ d hd

/-- The codes of the third family. -/
def styleCodes : List Code :=
  [.unusedVariable] ++ [.magicNumber] ++ [.longFunction] ++ [.deepNesting]

theorem style_orderly (doc : Document) : Orderly doc styleCodes (style doc) := by
  have hunused : Orderly doc _ (unusedVariables doc) := .of_apart unusedVariables_code (by decide)
  have hnumbers : Orderly doc _ (magicNumbers doc) :=
    .of_ascending magicNumbers_code magicNumbers_ascending (by decide)
  have hlong : Orderly doc _ (longFunctions doc) :=
    .of_ascending longFunctions_code longFunctions_ascending (by decide)
  have hnesting : Orderly doc _ (nesting doc) :=
    .of_ascending (nestingFrom_code 0 doc.numbered)
      (fun fits => (nestingFrom_ascending fits (List.Subset.refl _) doc.numbered_pairwise 0).1)
      (by decide)
  exact ((hunused.append hnumbers (by decide)).append hlong (by decide)).append hnesting (by decide)

theorem all_orderly [PatternEngine] (dialect : Dialect) (doc : Document) :
    Orderly doc (lineCodes ++ [.unclosedBracket] ++ semanticCodes ++ styleCodes)
      (all dialect doc) :=
  ((syntactic_orderly doc).append (semantic_orderly dialect doc) (by decide)).append
    (style_orderly doc) (by decide)

/-- The check that reports diagnostics of a code. Those of the first family go through the
lines together. -/
def checkOf [PatternEngine] (dialect : Dialect) (doc : Document) : Code → List Diagnostic
  | .undefinedVariable => undefinedVariables dialect doc
  | .undefinedFunction => undefinedFunctions dialect doc
  | .typeMismatch => typeMismatches doc
  | .unreachableCode => unreachable doc
  | .unusedVariable => unusedVariables doc
  | .magicNumber => magicNumbers doc
  | .longFunction => longFunctions doc
  | .deepNesting => nesting doc
  | _ => syntactic doc

/-- The code of a diagnostic tells which check it comes from. -/
theorem mem_checkOf [PatternEngine] {dialect : Dialect} {d : Diagnostic}
    (hd : d ∈ all dialect doc) :
    d ∈ checkOf dialect doc d.code := by
  have of_code {code : Code} (hcode : d.code ∈ [code]) (hd : d ∈ checkOf dialect doc code) :
      d ∈ checkOf dialect doc d.code := List.mem_singleton.mp hcode ▸ hd
  simp only [all, semantic, style, List.mem_append] at hd
  rcases hd with (hd | ((hd | hd) | hd) | hd) | ((hd | hd) | hd) | hd
  · have hfirst : ∀ code ∈ lineCodes ++ [.unclosedBracket],
        checkOf dialect doc code = syntactic doc := by
      simp [lineCodes, checkOf]
    exact hfirst _ ((syntactic_orderly doc).code_mem d hd) ▸ hd
  · exact of_code (undefinedVariables_code dialect d hd) hd
  · exact of_code (undefinedFunctions_code dialect d hd) hd
  · exact of_code (typeMismatches_code d hd) hd
  · exact of_code (unreachable_code d hd) hd
  · exact of_code (unusedVariables_code d hd) hd
  · exact of_code (magicNumbers_code d hd) hd
  · exact of_code (longFunctions_code d hd) hd
  · exact of_code (nestingFrom_code _ _ d hd) hd

end Check

/-! ### Reports -/

/-- In every report, the families come one after the other, brackets that stay open
come behind all else of the first family, and the diagnostics of each lane start at
strictly increasing positions, if the text is shorter than 2^32 bytes. -/
theorem check_diagnostics_in_order [Check.PatternEngine] (text : String) (dialect : Dialect)
    (settings : RunSettings) :
    let ds := (check text dialect settings).diagnostics
    ds.Pairwise (fun d e => d.code.category.rank ≤ e.code.category.rank) ∧
      ds.Pairwise (fun d e => d.code = .unclosedBracket → e.code.category = .syntactic →
        e.code = .unclosedBracket) ∧
      (Text.byteLength text.toList < UInt32.size →
        ∀ lane ∈ Code.lanes, (ds.filter fun d => lane.contains d.code).Pairwise
          fun d e => d.range.start < e.range.start) := by
  intro ds
  have horder : ds.Pairwise (Diagnostic.InOrder (.ofText text.toList)) :=
    (Check.all_orderly dialect _).pairwise.sublist (check_sublist_all text dialect settings)
  refine ⟨horder.imp fun h => h.mayPrecede.1, horder.imp fun h => h.mayPrecede.2, ?_⟩
  intro hsize lane hlane
  have fits := Document.ofText_fits hsize
  refine List.pairwise_filter.mpr (horder.imp fun h hd he => h.start_lt fits ⟨lane, hlane, ?_, ?_⟩)
  · exact List.contains_iff_mem.mp hd
  · exact List.contains_iff_mem.mp he

/-- A closing bracket with nothing open, and two that do not fit the open one. -/
theorem check_brackets_in_order :
    let lane := [Code.unmatchedBracket, Code.mismatchedBracket]
    let found := (check ")(]\n]" .mql5 {}).diagnostics.filter fun d => lane.contains d.code
    lane ∈ Code.lanes ∧ found.length = 3 ∧
      found.Pairwise fun d e => d.range.start < e.range.start :=
  ⟨by decide, by decide +kernel,
    (check_diagnostics_in_order _ _ _).2.2 (by decide) _ (by decide)⟩

end TradeScript
