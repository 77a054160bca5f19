import Mathlib.Data.List.Forall2
import Mathlib.Data.List.TakeWhile
import TradeScript.Proofs.Location
import TradeScript.Report

/-!
# TradeScript.Proofs.Hiding

What comments and literals hold does not matter to the checks. Two documents that
cannot be told apart by their bare views, by the columns of their raw lines and by
which raw lines are blank (`Document.Alike`) get the same diagnostics, except for
missing semicolons; and if their code views are the same, these too.

Most checks read the bare view only. Two look at the code view as well: whether a
line is a directive, and whether it is a `return`, a closing brace or empty. A code
view and its bare view agree up to the first quote (`AgreeToQuote`), they still do
when blanks are trimmed off, and no text that is looked for holds a quote, so these
questions have the same answer on the bare view.
-/

namespace TradeScript

open Text (isBlank trim trimStart trimEnd unitColumn byteLength)

/-! ### Texts that agree up to a quote -/

/-- The quotes that open a literal. -/
def isQuote (c : Char) : Bool :=
  c == '"' || c == '\''

/-- The two texts are the same, or the same up to and with some quote. -/
inductive AgreeToQuote : List Char → List Char → Prop where
  | refl (cs : List Char) : AgreeToQuote cs cs
  | quote (front : List Char) {q : Char} (hq : isQuote q = true) (as bs : List Char) :
      AgreeToQuote (front ++ q :: as) (front ++ q :: bs)

namespace AgreeToQuote

variable {as bs : List Char}

theorem cons (c : Char) (h : AgreeToQuote as bs) : AgreeToQuote (c :: as) (c :: bs) := by
  cases h with
  | refl => exact .refl _
  | quote front hq xs ys => exact .quote (c :: front) hq xs ys

/-- A code view and its bare view. -/
theorem bareView (code : List Char) : AgreeToQuote code (bareView code) := by
  unfold TradeScript.bareView
  induction code with
  | nil => exact .refl []
  | cons c rest ih =>
      rw [maskFrom]
      by_cases hc : c = '"' ∨ c = '\''
      · exact .quote [] (by simpa [isQuote] using hc) _ _
      · rw [if_neg hc]
        exact ih.cons c

theorem not_isBlank_of_isQuote {q : Char} (hq : isQuote q = true) : isBlank q = false := by
  simp only [isQuote, Bool.or_eq_true, beq_iff_eq] at hq
  rcases hq with rfl | rfl <;> decide

/-- Dropping blanks stops at the quote at the latest. -/
theorem dropWhile_isBlank_append {front rest : List Char} {q : Char} (hq : isBlank q = false) :
    (front ++ q :: rest).dropWhile isBlank = front.dropWhile isBlank ++ q :: rest := by
  have hrest : (q :: rest).dropWhile isBlank = q :: rest := by
    rw [List.dropWhile_cons, hq]
    rfl
  rw [List.dropWhile_append, hrest]
  split
  · rename_i hfront
    rw [List.isEmpty_iff.mp hfront, List.nil_append]
  · rfl

theorem trimStart (h : AgreeToQuote as bs) : AgreeToQuote (trimStart as) (trimStart bs) := by
  cases h with
  | refl => exact .refl _
  | quote front hq xs ys =>
      have hblank := not_isBlank_of_isQuote hq
      rw [Text.trimStart, Text.trimStart, dropWhile_isBlank_append hblank,
        dropWhile_isBlank_append hblank]
      exact .quote _ hq xs ys

theorem trimEnd (h : AgreeToQuote as bs) : AgreeToQuote (trimEnd as) (trimEnd bs) := by
  cases h with
  | refl => exact .refl _
  | @quote front q hq xs ys =>
      have hend : ∀ rest, Text.trimEnd (front ++ q :: rest) = front ++ q :: Text.trimEnd rest := by
        intro rest
        rw [Text.trimEnd, List.reverse_append, List.reverse_cons, List.append_assoc,
          List.singleton_append, dropWhile_isBlank_append (not_isBlank_of_isQuote hq)]
        simp [Text.trimEnd]
      rw [hend, hend]
      exact .quote front hq _ _

theorem trim (h : AgreeToQuote as bs) : AgreeToQuote (trim as) (trim bs) :=
  h.trimStart.trimEnd

theorem head?_eq (h : AgreeToQuote as bs) : as.head? = bs.head? := by
  cases h with
  | refl => rfl
  | quote front => cases front <;> rfl

/-- A piece without quotes at the front of a text stands before every quote. -/
theorem prefix_iff (h : AgreeToQuote as bs) (piece : List Char) (hp : piece.all (!isQuote ·)) :
    piece <+: as ↔ piece <+: bs := by
  cases h with
  | refl => exact Iff.rfl
  | @quote front q hq xs ys =>
      have hfront : ∀ rest, piece <+: front ++ q :: rest ↔ piece <+: front := by
        intro rest
        refine ⟨fun h => ?_, fun h => h.trans (List.prefix_append _ _)⟩
        rcases List.prefix_or_prefix_of_prefix h (List.prefix_append front (q :: rest)) with
          hshort | ⟨tail, rfl⟩
        · exact hshort
        · -- A longer piece would have the quote in it.
          cases tail with
          | nil => simp
          | cons t tail =>
              rw [List.prefix_append_right_inj, List.cons_prefix_cons] at h
              simp [h.1, hq] at hp
      rw [hfront, hfront]

theorem eq_iff (h : AgreeToQuote as bs) (piece : List Char) (hp : piece.all (!isQuote ·)) :
    as = piece ↔ bs = piece := by
  cases h with
  | refl => exact Iff.rfl
  | @quote front q hq xs ys =>
      have hne : ∀ rest, front ++ q :: rest ≠ piece := by
        rintro rest rfl
        simp [hq] at hp
      exact ⟨fun e => absurd e (hne xs), fun e => absurd e (hne ys)⟩

end AgreeToQuote

/-! ### Lines and documents that look alike -/

/-- The lines differ at most in what comments and literals hold, and not in how wide
that is. -/
structure Line.Alike (a b : Line) : Prop where
  bare_eq : a.bare = b.bare
  column_eq : ∀ offset, Text.column a.raw offset = Text.column b.raw offset
  blank_eq : a.raw.all isBlank = b.raw.all isBlank

/-- The documents have the same number of lines, and these look alike. -/
def Document.Alike (doc doc' : Document) : Prop :=
  List.Forall₂ Line.Alike doc.lines doc'.lines

/-- What the checks see of a line, the check of semicolons apart. -/
structure Line.ReadsAlike (a b : Line) : Prop where
  bare_eq : a.bare = b.bare
  head?_eq : (trimStart a.code).head? = (trimStart b.code).head?
  isReturn_eq : Check.isReturn (trim a.code) = Check.isReturn (trim b.code)
  code_eq_iff : ∀ piece : List Char, piece.all (!isQuote ·) →
    (trim a.code = piece ↔ trim b.code = piece)
  blank_eq : (trim a.raw).isEmpty = (trim b.raw).isEmpty

/-- Numbered lines that are related one by one and have the same numbers. -/
inductive Aligned (R : Line → Line → Prop) : (lines lines' : List (Line × Nat)) → Prop where
  | nil : Aligned R [] []
  | cons {a b : Line} (number : Nat) {lines lines' : List (Line × Nat)} :
      R a b → Aligned R lines lines' → Aligned R ((a, number) :: lines) ((b, number) :: lines')

/-- What the checks see of a document, the check of semicolons apart: its lines, its
bare text, and the ranges they report. -/
structure Document.ReadsAlike (doc doc' : Document) : Prop where
  numbered : Aligned Line.ReadsAlike doc.numbered doc'.numbered
  bareText_eq : doc.bareText = doc'.bareText
  span_eq : doc.span = doc'.span
  lineLength_eq : doc.lineLength = doc'.lineLength
  placeOf_eq : doc.placeOf = doc'.placeOf
  onDirective_eq : doc.onDirective = doc'.onDirective

/-! ### From looking alike to reading alike -/

/-- Columns follow from the widths of the characters. -/
theorem Text.unitColumn_congr {cs ds : List Char}
    (h : (cs.map fun c => (c.utf8Size, units c)) = ds.map fun c => (c.utf8Size, units c))
    (offset : Nat) : unitColumn cs offset = unitColumn ds offset := by
  induction cs generalizing ds offset with
  | nil => rw [List.map_eq_nil_iff.mp h.symm]
  | cons c cs ih =>
      obtain ⟨d, ds, rfl, hd, hds⟩ := List.map_eq_cons_iff.mp h.symm
      obtain ⟨hsize, hunits⟩ := Prod.mk.inj hd
      cases offset with
      | zero => rfl
      | succ n => rw [unitColumn, unitColumn, hsize, hunits, ih hds.symm]

theorem Text.column_congr {cs ds : List Char}
    (h : (cs.map fun c => (c.utf8Size, units c)) = ds.map fun c => (c.utf8Size, units c))
    (offset : Nat) : column cs offset = column ds offset := by
  rw [column, column, unitColumn_congr h]

theorem Text.isEmpty_trim (cs : List Char) : (trim cs).isEmpty = cs.all isBlank := by
  rw [Bool.eq_iff_iff, List.isEmpty_iff, List.all_eq_true]
  simp only [trim, trimEnd, List.reverse_eq_nil_iff, List.dropWhile_eq_nil_iff, List.mem_reverse]
  refine ⟨fun h c hc => ?_, fun h c hc => h c ((List.dropWhile_sublist _).subset hc)⟩
  rw [← List.takeWhile_append_dropWhile (p := isBlank) (l := cs), List.mem_append] at hc
  rcases hc with hc | hc
  · exact List.mem_takeWhile_imp hc
  · exact h c hc

theorem Check.isReturn_eq {as bs : List Char} (h : AgreeToQuote as bs) :
    Check.isReturn as = Check.isReturn bs := by
  have hend := h.eq_iff "return;".toList (by decide)
  have hvalue := h.prefix_iff "return ".toList (by decide)
  rw [Bool.eq_iff_iff]
  simp only [Check.isReturn, Bool.or_eq_true, beq_iff_eq, List.isPrefixOf_iff_prefix, hend, hvalue]

theorem Line.Alike.readsAlike {a b : Line} (h : a.Alike b) (ha : a.bare = bareView a.code)
    (hb : b.bare = bareView b.code) : a.ReadsAlike b := by
  -- Both code views agree with the one bare view up to a quote.
  have hcode : AgreeToQuote a.code a.bare := ha ▸ .bareView a.code
  have hcode' : AgreeToQuote b.code a.bare := h.bare_eq ▸ hb ▸ .bareView b.code
  constructor
  · exact h.bare_eq
  · rw [hcode.trimStart.head?_eq, hcode'.trimStart.head?_eq]
  · rw [Check.isReturn_eq hcode.trim, Check.isReturn_eq hcode'.trim]
  · intro piece hpiece
    rw [hcode.trim.eq_iff piece hpiece, hcode'.trim.eq_iff piece hpiece]
  · rw [Text.isEmpty_trim, Text.isEmpty_trim, h.blank_eq]

section Forall₂

variable {α β γ : Type} {R S : α → β → Prop} {as : List α} {bs : List β}

theorem optionRel_getElem? (h : List.Forall₂ R as bs) (n : Nat) :
    Option.Rel R as[n]? bs[n]? := by
  induction h generalizing n with
  | nil => exact .none
  | cons hab _ ih =>
      cases n with
      | zero => exact .some hab
      | succ n => exact ih n

theorem forall₂_imp_mem (h : List.Forall₂ R as bs)
    (hS : ∀ a ∈ as, ∀ b ∈ bs, R a b → S a b) : List.Forall₂ S as bs := by
  obtain ⟨hlength, hzip⟩ := List.forall₂_iff_zip.mp h
  refine List.forall₂_iff_zip.mpr ⟨hlength, fun {a b} hab => ?_⟩
  obtain ⟨ha, hb⟩ := List.of_mem_zip hab
  exact hS a ha b hb (hzip hab)

theorem map_eq_of_forall₂ {f : α → γ} {g : β → γ} (h : List.Forall₂ R as bs)
    (hfg : ∀ a b, R a b → f a = g b) : as.map f = bs.map g := by
  induction h with
  | nil => rfl
  | cons hab _ ih => rw [List.map_cons, List.map_cons, hfg _ _ hab, ih]

end Forall₂

namespace Aligned

variable {R : Line → Line → Prop} {lines lines' : List (Line × Nat)}

theorem zipIdx {as bs : List Line} (h : List.Forall₂ R as bs) (k : Nat) :
    Aligned R (as.zipIdx k) (bs.zipIdx k) := by
  induction h generalizing k with
  | nil => exact .nil
  | cons hab _ ih => exact .cons k hab (ih (k + 1))

theorem flatMap_eq {α : Type} {f g : Line × Nat → List α} (h : Aligned R lines lines')
    (hfg : ∀ a b number, R a b → f (a, number) = g (b, number)) :
    lines.flatMap f = lines'.flatMap g := by
  induction h with
  | nil => rfl
  | cons number hab _ ih => rw [List.flatMap_cons, List.flatMap_cons, hfg _ _ _ hab, ih]

theorem zipWith_eq {α β : Type} {f g : Line × Nat → α → β} (h : Aligned R lines lines')
    (hfg : ∀ a b number x, R a b → f (a, number) x = g (b, number) x) (xs : List α) :
    lines.zipWith f xs = lines'.zipWith g xs := by
  induction h generalizing xs with
  | nil => rfl
  | cons number hab _ ih =>
      cases xs with
      | nil => rfl
      | cons x xs => rw [List.zipWith_cons_cons, List.zipWith_cons_cons, hfg _ _ _ x hab, ih]

end Aligned

namespace Document

theorem bare_eq_of_mem_ofText {text : List Char} {line : Line} (h : line ∈ (ofText text).lines) :
    line.bare = bareView line.code := by
  obtain ⟨raw, -, inBlock, rfl⟩ := exists_codeView_of_mem h
  rfl

variable {doc doc' : Document}

theorem Alike.column_eq (h : doc.Alike doc') (number offset : Nat) :
    Text.column (doc.rawLine number) offset = Text.column (doc'.rawLine number) offset := by
  have hline := optionRel_getElem? h number
  simp only [rawLine]
  generalize doc.lines[number]? = line at hline ⊢
  generalize doc'.lines[number]? = line' at hline ⊢
  cases hline with
  | none => rfl
  | some hab => exact hab.column_eq offset

/-- The bytes of a raw line are those of its bare view. -/
theorem WellFormed.byteLength_rawLine (wf : doc.WellFormed) (number : Nat) :
    byteLength (doc.rawLine number) = (doc.lengths[number]?).getD 0 := by
  rw [wf.lengths_eq, List.getElem?_map, rawLine]
  cases hline : doc.lines[number]? with
  | none => rfl
  | some line => exact (wf.blanking line (List.mem_of_getElem? hline)).byteLength_eq.symm

theorem Alike.map_bare_eq (h : doc.Alike doc') :
    doc.lines.map Line.bare = doc'.lines.map Line.bare :=
  map_eq_of_forall₂ h fun _ _ hab => hab.bare_eq

theorem Alike.lengths_eq (h : doc.Alike doc') (wf : doc.WellFormed) (wf' : doc'.WellFormed) :
    doc.lengths = doc'.lengths := by
  rw [wf.lengths_eq, wf'.lengths_eq]
  exact map_eq_of_forall₂ h fun _ _ hab => congrArg byteLength hab.bare_eq

theorem Alike.forall₂_readsAlike {text text' : List Char}
    (h : (ofText text).Alike (ofText text')) :
    List.Forall₂ Line.ReadsAlike (ofText text).lines (ofText text').lines :=
  forall₂_imp_mem h fun _ ha _ hb hab =>
    hab.readsAlike (bare_eq_of_mem_ofText ha) (bare_eq_of_mem_ofText hb)

theorem ofText_readsAlike {text text' : List Char} (h : (ofText text).Alike (ofText text')) :
    (ofText text).ReadsAlike (ofText text') := by
  have wf := ofText_wellFormed text
  have wf' := ofText_wellFormed text'
  have hlengths := h.lengths_eq wf wf'
  have hplace : (ofText text).placeOf = (ofText text').placeOf := by
    funext offset
    rw [placeOf, hlengths, placeOf]
  constructor
  · exact .zipIdx h.forall₂_readsAlike 0
  · rw [bareText, h.map_bare_eq, bareText]
  · funext number first last
    simp only [span, h.column_eq]
  · funext number
    simp only [lineLength, wf.byteLength_rawLine, h.column_eq, hlengths, wf'.byteLength_rawLine]
  · exact hplace
  · funext offset
    rw [onDirective, onDirective, hplace]
    have hline := optionRel_getElem? h ((ofText text').placeOf offset).1
    generalize (ofText text).lines[((ofText text').placeOf offset).1]? = line at hline ⊢
    generalize (ofText text').lines[((ofText text').placeOf offset).1]? = line' at hline ⊢
    cases hline with
    | none => rfl
    | some hab => simp only [Line.isDirective, hab.bare_eq]

namespace ReadsAlike

variable (h : doc.ReadsAlike doc')
include h

theorem fullLine_eq : doc.fullLine = doc'.fullLine := by
  funext number
  rw [fullLine, h.lineLength_eq, fullLine]

theorem spanAt_eq : doc.spanAt = doc'.spanAt := by
  funext first last
  rw [spanAt_eq_span, h.placeOf_eq, h.span_eq, spanAt_eq_span]

theorem positionAt_eq : doc.positionAt = doc'.positionAt := by
  funext offset
  rw [positionAt, h.spanAt_eq, positionAt]

theorem symbols_eq : doc.symbols = doc'.symbols := by
  have hdeclarations : doc.declarations = doc'.declarations := by
    funext r
    rw [declarations, h.bareText_eq, h.onDirective_eq, declarations]
  simp only [symbols, variableDeclarations, functionDeclarations, hdeclarations, h.bareText_eq,
    h.positionAt_eq]

end ReadsAlike

end Document

namespace Check

open Scan

variable {doc doc' : Document} {a b : Line}

/-! ### Checks of the bare text -/

theorem undefinedFunctions_eq [PatternEngine] (h : doc.ReadsAlike doc') (dialect : Dialect) :
    undefinedFunctions dialect doc = undefinedFunctions dialect doc' := by
  simp only [undefinedFunctions, h.bareText_eq, h.spanAt_eq]

theorem unusedVariables_eq (h : doc.ReadsAlike doc') :
    unusedVariables doc = unusedVariables doc' := by
  simp only [unusedVariables, h.bareText_eq, h.spanAt_eq]

/-! ### Checks that read bare lines only -/

theorem undefinedVariables_eq (h : doc.ReadsAlike doc') (dialect : Dialect) :
    undefinedVariables dialect doc = undefinedVariables dialect doc' := by
  refine h.numbered.flatMap_eq fun a b number hab => ?_
  simp only [hab.bare_eq, h.symbols_eq, h.span_eq]

theorem magicNumbers_eq (h : doc.ReadsAlike doc') : magicNumbers doc = magicNumbers doc' := by
  refine h.numbered.flatMap_eq fun a b number hab => ?_
  simp only [hab.bare_eq, h.span_eq]

theorem typeMismatches_eq (h : doc.ReadsAlike doc') : typeMismatches doc = typeMismatches doc' := by
  refine h.numbered.flatMap_eq fun a b number hab => ?_
  refine List.filterMap_congr fun m _ => ?_
  simp only [mismatchOfLine, hab.bare_eq, h.span_eq]

theorem functionsFrom_eq {lines lines' : List (Line × Nat)}
    (h : Aligned Line.ReadsAlike lines lines') (start : Option Nat) (depth : Int) :
    functionsFrom start depth lines = functionsFrom start depth lines' := by
  induction h generalizing start depth with
  | nil => rfl
  | cons number hab _ ih => simp only [functionsFrom, hab.bare_eq, ih]

theorem longFunctions_eq (h : doc.ReadsAlike doc') : longFunctions doc = longFunctions doc' := by
  rw [longFunctions, functionsFrom_eq h.numbered, h.fullLine_eq, longFunctions]

theorem nestingFrom_eq (hspan : doc.span = doc'.span) {lines lines' : List (Line × Nat)}
    (h : Aligned Line.ReadsAlike lines lines') (depth : Nat) :
    nestingFrom doc depth lines = nestingFrom doc' depth lines' := by
  induction h generalizing depth with
  | nil => rfl
  | cons number hab _ ih => simp only [nestingFrom, hab.bare_eq, hspan, ih]

theorem bracketsOfLines_eq (hspan : doc.span = doc'.span) {lines lines' : List (Line × Nat)}
    (h : Aligned Line.ReadsAlike lines lines') (pending : List OpenBracket) :
    bracketsOfLines doc pending lines = bracketsOfLines doc' pending lines' := by
  induction h generalizing pending with
  | nil => rfl
  | cons number hab _ ih => simp only [bracketsOfLines, bracketsOfLine, hab.bare_eq, hspan, ih]

theorem directives_eq (h : doc.ReadsAlike doc') (hab : a.bare = b.bare) (number : Nat) :
    directives doc a number = directives doc' b number := by
  simp only [directives, propertyKeyFrom, hab, h.span_eq]

/-! ### Checks that ask about the code view -/

theorem naming_eq (h : doc.ReadsAlike doc') (hab : a.ReadsAlike b) (number : Nat) :
    naming doc a number = naming doc' b number := by
  simp only [naming, functionName, reservedWords, hab.head?_eq, hab.bare_eq, h.span_eq]

theorem nextStatement_eq {lines lines' : List (Line × Nat)}
    (h : Aligned Line.ReadsAlike lines lines') : nextStatement lines = nextStatement lines' := by
  induction h with
  | nil => rfl
  | cons number hab _ ih =>
      have hbrace := hab.code_eq_iff ['}'] (by decide)
      have hempty := hab.code_eq_iff [] rfl
      simp only [nextStatement, hab.blank_eq, Bool.or_eq_true, beq_iff_eq, List.isEmpty_iff, hbrace,
        hempty, ih]

theorem unreachableLines_eq {lines lines' : List (Line × Nat)}
    (h : Aligned Line.ReadsAlike lines lines') :
    unreachableLines lines = unreachableLines lines' := by
  induction h with
  | nil => rfl
  | cons number hab hrest ih =>
      simp only [unreachableLines, hab.isReturn_eq, nextStatement_eq hrest, ih]

theorem unreachable_eq (h : doc.ReadsAlike doc') : unreachable doc = unreachable doc' := by
  rw [unreachable, unreachableLines_eq h.numbered, h.fullLine_eq, unreachable]

/-! ### The families -/

theorem semantic_eq [PatternEngine] (h : doc.ReadsAlike doc') (dialect : Dialect) :
    semantic dialect doc = semantic dialect doc' := by
  rw [semantic, undefinedVariables_eq h, undefinedFunctions_eq h, typeMismatches_eq h,
    unreachable_eq h, semantic]

theorem style_eq (h : doc.ReadsAlike doc') : style doc = style doc' := by
  rw [style, unusedVariables_eq h, magicNumbers_eq h, longFunctions_eq h, nesting,
    nestingFrom_eq h.span_eq h.numbered, style, nesting]

/-- The first family up to a filter on which the checks of semicolons agree. -/
theorem filter_syntactic_eq (h : doc.ReadsAlike doc') {R : Line → Line → Prop}
    (hR : Aligned R doc.numbered doc'.numbered) (hreads : ∀ a b, R a b → a.ReadsAlike b)
    {p : Diagnostic → Bool} (hp : ∀ a b number, R a b →
      (semicolon doc a number).filter p = (semicolon doc' b number).filter p) :
    (syntactic doc).filter p = (syntactic doc').filter p := by
  have hline : ∀ a b number matched, R a b →
      (syntaxOfLine doc (a, number) matched).filter p =
        (syntaxOfLine doc' (b, number) matched).filter p := by
    intro a b number matched hab
    have hreads := hreads a b hab
    simp only [syntaxOfLine, List.filter_append, hp a b number hab, naming_eq h hreads,
      directives_eq h hreads.bare_eq]
  have hunclosed : unclosedBrackets doc = unclosedBrackets doc' := by
    funext pending
    rw [unclosedBrackets, h.span_eq, unclosedBrackets]
  have hzip := hR.zipWith_eq (f := fun line matched => (syntaxOfLine doc line matched).filter p)
    (g := fun line matched => (syntaxOfLine doc' line matched).filter p) hline
  simp only [syntactic, List.filter_append, List.filter_flatten, List.map_zipWith,
    bracketsOfLines_eq h.span_eq h.numbered, hunclosed, hzip]

/-- The diagnostics without those about missing semicolons. -/
def exceptSemicolons (ds : List Diagnostic) : List Diagnostic :=
  ds.filter fun d => d.code != .missingSemicolon

theorem exceptSemicolons_semicolon (doc : Document) (line : Line) (number : Nat) :
    exceptSemicolons (semicolon doc line number) = [] := by
  unfold semicolon
  split <;> rfl

theorem semicolon_eq (h : doc.ReadsAlike doc') (hab : a.code = b.code) (number : Nat) :
    semicolon doc a number = semicolon doc' b number := by
  rw [semicolon, hab, h.lineLength_eq, semicolon]

/-- Two texts with documents that look alike: all families find the same, missing
semicolons apart; with the same code views, they find the same missing semicolons
too. -/
theorem findings_eq_of_alike [PatternEngine] (text text' : List Char)
    (h : (Document.ofText text).Alike (Document.ofText text')) (dialect : Dialect) :
    let doc := Document.ofText text
    let doc' := Document.ofText text'
    exceptSemicolons (syntactic doc) = exceptSemicolons (syntactic doc') ∧
      semantic dialect doc = semantic dialect doc' ∧ style doc = style doc' ∧
      (doc.lines.map Line.code = doc'.lines.map Line.code → syntactic doc = syntactic doc') := by
  intro doc doc'
  have hreads : doc.ReadsAlike doc' := Document.ofText_readsAlike h
  refine ⟨?_, semantic_eq hreads dialect, style_eq hreads, ?_⟩
  · refine filter_syntactic_eq hreads hreads.numbered (fun _ _ hab => hab) ?_
    intro a b number _
    exact (exceptSemicolons_semicolon doc a number).trans
      (exceptSemicolons_semicolon doc' b number).symm
  · intro hcode
    have hcodes : List.Forall₂ (fun a b => a.code = b.code) doc.lines doc'.lines := by
      rwa [← List.forall₂_eq_eq_eq, List.forall₂_map_left_iff, List.forall₂_map_right_iff] at hcode
    have hboth : List.Forall₂ (fun a b => a.ReadsAlike b ∧ a.code = b.code) doc.lines doc'.lines :=
      List.Forall₂.mp (fun _ _ => And.intro) h.forall₂_readsAlike hcodes
    have hall := filter_syntactic_eq hreads (.zipIdx hboth 0) (fun _ _ hab => hab.1)
      (p := fun _ => true) fun a b number hab => by rw [semicolon_eq hreads hab.2]
    rwa [List.filter_true, List.filter_true] at hall

/-- A literal that is left open hides a semicolon from all checks but one. -/
example :
    let doc := Document.ofText ['"', ';']
    let doc' := Document.ofText ['"', 'a']
    doc.lines.map Line.bare = doc'.lines.map Line.bare ∧
      syntactic doc = [] ∧ syntactic doc' ≠ [] := by
  decide +kernel

/-- Comments of the same width. -/
theorem findings_eq_of_comments :
    let text := ['x', ' ', '/', '/', 'é']
    let text' := ['x', ' ', '/', '/', 'ж']
    let doc := Document.ofText text
    let doc' := Document.ofText text'
    doc.Alike doc' ∧ doc.lines.map Line.code = doc'.lines.map Line.code ∧
      exceptSemicolons (syntactic doc) = exceptSemicolons (syntactic doc') ∧
      semantic .mql5 doc = semantic .mql5 doc' ∧ style doc = style doc' ∧
      syntactic doc = syntactic doc' := by
  intro text text' doc doc'
  let blanked := 'x' :: List.replicate 5 ' '
  have hlines : doc.lines = [⟨text, blanked, blanked⟩] := by decide +kernel
  have hlines' : doc'.lines = [⟨text', blanked, blanked⟩] := by decide +kernel
  have halike : doc.Alike doc' := by
    rw [Document.Alike, hlines, hlines']
    exact .cons ⟨rfl, Text.column_congr (by decide), by decide⟩ .nil
  have hcode : doc.lines.map Line.code = doc'.lines.map Line.code := by
    rw [hlines, hlines', List.map_singleton, List.map_singleton]
  obtain ⟨hsyntactic, hsemantic, hstyle, hall⟩ := findings_eq_of_alike text text' halike .mql5
  exact ⟨halike, hcode, hsyntactic, hsemantic, hstyle, hall hcode⟩

end Check

end TradeScript
