import TradeScript.Proofs.Property
import TradeScript.Proofs.Report
import TradeScript.Proofs.Table

/-!
# TradeScript.Proofs.Repetition

Findings that are reported twice, with the same code at the same range. One check alone
does that: a `#property` that borrows its key reports the key once more (`BorrowsUnknownKey`).
Every other check reports at different places, for one of four reasons: it goes forward
through the text (`Orderly`), it reports once per line, what it reports starts with
different characters, or it reports different names.

A list of diagnostics is `Separate` if only borrowed keys are repeated in it. Separate
lists without a common code can be put together. The document is one whose lines and
columns are numbers of 32 bits: beyond, different places may have the same range.
-/

namespace TradeScript

open Scan (Reader Recogniser Found Occurrence occurrences)
open Text (byteLength byteLength_append)

/-- The diagnostics report the same finding: they have the same code and range. -/
def Diagnostic.SameFinding (d e : Diagnostic) : Prop :=
  d.code = e.code ∧ d.range = e.range

instance (d e : Diagnostic) : Decidable (d.SameFinding e) :=
  inferInstanceAs (Decidable (_ ∧ _))

/-- No finding is reported twice. -/
def Unrepeated (ds : List Diagnostic) : Prop :=
  ds.Pairwise fun d e => ¬ d.SameFinding e

instance (ds : List Diagnostic) : Decidable (Unrepeated ds) :=
  inferInstanceAs (Decidable (ds.Pairwise _))

/-- The diagnostic reports a key, on a line where one is borrowed. -/
structure Diagnostic.ReportsBorrowed (doc : Document) (d : Diagnostic) : Prop where
  code : d.code = .invalidPropertyValue
  borrows : ∃ line number, (line, number) ∈ doc.numbered ∧
    d.range.start.line = .ofNatClamp number ∧ Check.BorrowsUnknownKey line.bare

/-- The diagnostics have codes from the list, and only borrowed keys are repeated. -/
structure Separate (doc : Document) (codes : List Code) (ds : List Diagnostic) : Prop where
  code_mem : ∀ d ∈ ds, d.code ∈ codes
  pairwise : ds.Pairwise fun d e => d.SameFinding e → d.ReportsBorrowed doc

namespace Separate

variable {doc : Document} {codes codes' : List Code} {ds es : List Diagnostic}

theorem of_range_ne (hcodes : ∀ d ∈ ds, d.code ∈ codes)
    (h : ds.Pairwise fun d e => d.range ≠ e.range) : Separate doc codes ds where
  code_mem := hcodes
  pairwise := h.imp fun hne hsame => absurd hsame.2 hne

theorem of_ascending (hcodes : ∀ d ∈ ds, d.code ∈ codes) (h : Ascending ds) :
    Separate doc codes ds := by
  refine of_range_ne hcodes (h.imp fun {d e} hlt heq => ?_)
  rw [heq] at hlt
  exact Position.not_lt_self _ hlt

theorem append (hds : Separate doc codes ds) (hes : Separate doc codes' es)
    (h : ∀ c ∈ codes, c ∉ codes') : Separate doc (codes ++ codes') (ds ++ es) where
  code_mem := by
    intro d hd
    rcases List.mem_append.mp hd with hd | hd
    · exact List.mem_append_left _ (hds.code_mem d hd)
    · exact List.mem_append_right _ (hes.code_mem d hd)
  pairwise := by
    refine List.pairwise_append.mpr ⟨hds.pairwise, hes.pairwise, fun d hd e he hsame => ?_⟩
    exact absurd (hsame.1 ▸ hes.code_mem e he) (h _ (hds.code_mem d hd))

end Separate

namespace Check

open Scan

variable {doc : Document} {line : Line} {number : Nat}

/-! ### Names of a line -/

theorem functionName_code :
    ∀ d ∈ functionName doc line number, d.code ∈ [Code.invalidFunctionName] := by
  intro d hd
  unfold functionName at hd
  split at hd
  · simp at hd
  · split at hd
    · simp at hd
    · obtain rfl := List.mem_singleton.mp hd
      exact List.mem_cons_self

theorem functionName_separate :
    Separate doc [.invalidFunctionName] (functionName doc line number) := by
  refine .of_range_ne functionName_code ?_
  unfold functionName
  split
  · exact .nil
  · split
    · exact .nil
    · exact List.pairwise_singleton _ _

theorem pairwise_eraseDupsBy {α : Type} {r : α → α → Bool} :
    ∀ l : List α, (l.eraseDupsBy r).Pairwise fun a b => r b a = false
  | [] => .nil
  | a :: l => by
      rw [List.eraseDupsBy_cons]
      refine .cons (fun b hb => ?_) (pairwise_eraseDupsBy _)
      simpa using (List.mem_filter.mp (mem_of_mem_eraseDupsBy hb)).2
termination_by l => l.length
decreasing_by exact Nat.lt_succ_of_le (List.length_filter_le _ _)

theorem visibleAt_of_mem_reservedNames {bare : List Char} {o : Occurrence Found}
    (h : o ∈ reservedNames bare) : VisibleAt bare o.start := by
  obtain ⟨r, hr, ho⟩ := List.mem_flatMap.mp (List.mem_filter.mp (mem_of_mem_eraseDupsBy h)).1
  obtain ⟨hfaithful, htoken⟩ := faithful_of_mem_namePatterns hr
  obtain ⟨before, after, hbare, hstart, -⟩ := exists_name_of_mem_occurrences hfaithful ho
  rw [hbare, hstart]
  exact visibleAt_of_token (isToken_name_of_mem_occurrences htoken ho)

theorem reservedWords_separate (fits : doc.Fits) (h : (line, number) ∈ doc.numbered) :
    Separate doc [.reservedKeyword] (reservedWords doc line number) := by
  refine .of_range_ne (fun _ hd => code_of_mem_map hd fun _ => rfl) ?_
  refine List.pairwise_map.mpr ((pairwise_eraseDupsBy _).imp_of_mem ?_)
  intro a b ha hb hne heq
  have hstart := fits.span_start_inj h (visibleAt_of_mem_reservedNames ha)
    (visibleAt_of_mem_reservedNames hb) (congrArg Range.start heq)
  exact absurd hstart.symm (by simpa using hne)

theorem naming_separate (fits : doc.Fits) (h : (line, number) ∈ doc.numbered) :
    Separate doc [.invalidFunctionName, .reservedKeyword] (naming doc line number) := by
  unfold naming
  split
  · exact ⟨fun d hd => absurd hd List.not_mem_nil, .nil⟩
  · exact functionName_separate.append (reservedWords_separate fits h) (by decide)

/-! ### Directives -/

/-- A key is reported for a `#property` directive. -/
theorem mem_propertyKeyFrom_of_code {o : Occurrence Found} {d : Diagnostic}
    (h : d ∈ ofDirective doc line number o) (hcode : d.code = .invalidPropertyValue) :
    (o.name == "property") = true ∧ d ∈ propertyKeyFrom doc line number o := by
  unfold ofDirective at h
  split at h
  · obtain rfl := List.mem_singleton.mp h
    exact nomatch (hcode : Code.invalidPreprocessor = .invalidPropertyValue)
  · split at h
    · exact ⟨‹_›, h⟩
    · simp at h

theorem directives_borrow (fits : doc.Fits) (h : (line, number) ∈ doc.numbered) :
    (directives doc line number).Pairwise fun d e => d.code = .invalidPropertyValue →
      e.code = .invalidPropertyValue → d.range.start = e.range.start →
        BorrowsUnknownKey line.bare := by
  rw [directives_eq_flatMap]
  refine List.pairwise_flatMap.mpr ⟨fun o _ => ?_, List.pairwise_iff_forall_sublist.mpr ?_⟩
  · rcases ofDirective_cases o with hnil | ⟨d, hcons, -⟩
    · exact hnil ▸ .nil
    · exact hcons ▸ List.pairwise_singleton _ _
  · intro a b hpair d hd e he hcode hcode' heq
    obtain ⟨ha, hd⟩ := mem_propertyKeyFrom_of_code hd hcode
    obtain ⟨hb, he⟩ := mem_propertyKeyFrom_of_code he hcode'
    have hpair := hpair.filter fun o => o.name == "property"
    simp only [List.filter_cons, ha, hb, if_true, List.filter_nil] at hpair
    exact borrows_of_start_eq fits h hpair hd he heq

theorem directives_separate (fits : doc.Fits) (h : (line, number) ∈ doc.numbered) :
    Separate doc [.invalidPreprocessor, .invalidPropertyValue] (directives doc line number) := by
  refine ⟨fun d hd => (directives_on d hd).1, ?_⟩
  refine ((directives_orderly h).pairwise.and (directives_borrow fits h)).imp_of_mem ?_
  rintro d e hd - ⟨hinOrder, hborrow⟩ hsame
  obtain ⟨hcode, hline⟩ := directives_on d hd
  simp only [List.mem_cons, List.not_mem_nil, or_false] at hcode
  rcases hcode with hcode | hcode
  · have hlane : Code.SameLane .invalidPreprocessor .invalidPreprocessor := by decide
    have hlt := hinOrder.start_lt fits (hsame.1 ▸ hcode ▸ hlane)
    exact absurd (hsame.2 ▸ hlt) (Position.not_lt_self _)
  · refine ⟨hcode, line, number, h, hline, ?_⟩
    exact hborrow hcode (hsame.1 ▸ hcode) (congrArg Range.start hsame.2)

/-! ### Literals of the wrong type -/

/-- The kinds of literals that are looked for. -/
inductive LiteralKind where
  | text
  | number
  | truth
  | color
  deriving DecidableEq

/-- The kind of the literals that start with the character. -/
def LiteralKind.ofChar? (c : Char) : Option LiteralKind :=
  if c.isDigit then some .number
  else if c = '"' then some .text
  else if c = 't' ∨ c = 'f' then some .truth
  else if c = 'c' then some .color
  else none

theorem isToken_of_ofChar? {c : Char} {kind : LiteralKind}
    (h : LiteralKind.ofChar? c = some kind) : IsToken [c] where
  ne_nil := List.cons_ne_nil _ _
  no_space hc := by
    rw [← List.mem_singleton.mp hc] at h
    exact absurd h (by cases kind <;> decide)
  no_newline hc := by
    rw [← List.mem_singleton.mp hc] at h
    exact absurd h (by cases kind <;> decide)

/-- The reader takes literals of the kind. -/
structure Takes (kind : LiteralKind) (r : Reader) : Prop where
  faithful : r.Faithful
  opens : ∀ cs piece rest, r cs = some (piece, rest) →
    ∃ c more, piece = c :: more ∧ LiteralKind.ofChar? c = some kind

variable {kind : LiteralKind}

theorem takes_exactly {word : List Char} (h : word.head?.bind LiteralKind.ofChar? = some kind) :
    Takes kind (exactly word) where
  faithful := exactly_faithful word
  opens := by
    intro cs piece rest heq
    obtain ⟨rfl, -⟩ := exactly_eq_some_iff.mp heq
    obtain ⟨c, hhead, hc⟩ := Option.bind_eq_some_iff.mp h
    obtain ⟨more, rfl⟩ := List.head?_eq_some_iff.mp hhead
    exact ⟨c, more, rfl, hc⟩

theorem takes_digits : Takes .number (someOf Char.isDigit) where
  faithful := someOf_faithful Char.isDigit
  opens := by
    intro cs piece rest heq
    obtain ⟨hne, hdigits⟩ := forall_of_someOf heq
    obtain ⟨c, more, rfl⟩ := List.exists_cons_of_ne_nil hne
    exact ⟨c, more, rfl, if_pos (hdigits c List.mem_cons_self)⟩

theorem takes_oneOf {rs : List Reader} (h : ∀ r ∈ rs, Takes kind r) : Takes kind (oneOf rs) where
  faithful := oneOf_faithful fun r hr => (h r hr).faithful
  opens := by
    intro cs piece rest heq
    induction rs with
    | nil => simp [oneOf] at heq
    | cons r rs ih =>
        simp only [oneOf, Option.or_eq_some_iff] at heq
        rcases heq with heq | ⟨-, heq⟩
        · exact (h r List.mem_cons_self).opens cs piece rest heq
        · exact ih (fun r hr => h r (List.mem_cons_of_mem _ hr)) heq

theorem takes_inTurn {r : Reader} {rs : List Reader} (h : Takes kind r)
    (hrs : ∀ r ∈ rs, r.Faithful) : Takes kind (inTurn (r :: rs)) where
  faithful := inTurn_faithful (List.forall_mem_cons.mpr ⟨h.faithful, hrs⟩)
  opens := by
    intro cs piece rest heq
    obtain ⟨first, mid, more, hfirst, -, rfl⟩ := inTurn_cons_eq_some_iff.mp heq
    obtain ⟨c, others, rfl, hc⟩ := h.opens _ _ _ hfirst
    exact ⟨c, others ++ more, List.cons_append, hc⟩

theorem takes_textLiteral : Takes .text textLiteral :=
  takes_inTurn (takes_exactly (by decide)) (by simp)

theorem takes_numberLiteral : Takes .number numberLiteral :=
  takes_inTurn takes_digits (by simp [Scan.optional])

theorem takes_truthLiteral : Takes .truth truthLiteral := by
  refine takes_inTurn (takes_oneOf ?_) (by simp)
  intro r hr
  simp only [List.mem_cons, List.not_mem_nil, or_false] at hr
  rcases hr with rfl | rfl
  · exact takes_exactly (by decide)
  · exact takes_exactly (by decide)

theorem takes_colorLiteral : Takes .color colorLiteral :=
  takes_inTurn (takes_exactly (by decide)) (by simp)

/-- What the pattern of a mismatch matches ends in a literal of the kind. -/
def Mismatch.Finds (m : Mismatch) (kind : LiteralKind) : Prop :=
  ∀ previous cs i, m.pattern previous cs = some i →
    ∃ c after, cs = i.lead ++ c :: after ∧ LiteralKind.ofChar? c = some kind

/-- The pieces that the pattern of an initialisation reads. -/
theorem initialising_eq_some {types : List String} {value : Reader} {previous : Option Char}
    {cs : List Char} {i : Initialisation} (h : initialising types value previous cs = some i) :
    opensWord previous = true ∧ ∃ cs₁ space cs₂ cs₃ equals cs₄ rest,
      wordOf types cs = some (i.type, cs₁) ∧ gap cs₁ = some (space, cs₂) ∧
      identifier cs₂ = some (i.name, cs₃) ∧
      inTurn [blanks, exactly ['='], blanks] cs₃ = some (equals, cs₄) ∧
      value cs₄ = some (i.value, rest) ∧ i.lead = i.type ++ space ++ i.name ++ equals := by
  rw [initialising] at h
  split at h
  · rename_i hopens
    simp only [Option.bind_eq_bind, Option.bind_eq_some_iff, Option.some.injEq] at h
    obtain ⟨⟨type, cs₁⟩, htype, ⟨space, cs₂⟩, hspace, ⟨name, cs₃⟩, hname, ⟨equals, cs₄⟩, hequals,
      ⟨literal, rest⟩, hliteral, rfl⟩ := h
    exact ⟨hopens, cs₁, space, cs₂, cs₃, equals, cs₄, rest, htype, hspace, hname, hequals, hliteral,
      rfl⟩
  · simp at h

/-- What is read stands in the text one piece behind the other. -/
theorem initialising_append {types : List String} {value : Reader} {previous : Option Char}
    {cs : List Char} {i : Initialisation} (h : initialising types value previous cs = some i) :
    ∃ mid rest, cs = i.lead ++ mid ∧ value mid = some (i.value, rest) := by
  obtain ⟨-, cs₁, space, cs₂, cs₃, equals, cs₄, rest, htype, hspace, hname, hequals, hliteral,
    hlead⟩ := initialising_eq_some h
  refine ⟨cs₄, rest, ?_, hliteral⟩
  calc cs
      = i.type ++ cs₁ := (wordOf_faithful _ _ _ _ htype).symm
    _ = i.type ++ (space ++ cs₂) := by rw [gap_faithful _ _ _ hspace]
    _ = i.type ++ (space ++ (i.name ++ cs₃)) := by rw [identifier_faithful _ _ _ hname]
    _ = i.type ++ (space ++ (i.name ++ (equals ++ cs₄))) := by
      rw [inTurn_faithful (by simp) _ _ _ hequals]
    _ = i.lead ++ cs₄ := by simp only [hlead, List.append_assoc]

theorem finds_of_takes {m : Mismatch} {types : List String} {value : Reader}
    (hm : m.pattern = initialising types value) (hv : Takes kind value) : m.Finds kind := by
  intro previous cs i h
  rw [hm] at h
  obtain ⟨mid, rest, rfl, hliteral⟩ := initialising_append h
  obtain ⟨c, more, hvalue, hc⟩ := hv.opens _ _ _ hliteral
  refine ⟨c, more ++ rest, ?_, hc⟩
  rw [← hv.faithful _ _ _ hliteral, hvalue, List.cons_append]

/-- Each mismatch finds literals of a kind of its own. -/
theorem mismatches_pairwise :
    mismatches.Pairwise fun m n => ∃ j k, j ≠ k ∧ m.Finds j ∧ n.Finds k := by
  have htext : textMismatch.Finds .text := finds_of_takes rfl takes_textLiteral
  have hnumber : numberMismatch.Finds .number := finds_of_takes rfl takes_numberLiteral
  have htruth : truthMismatch.Finds .truth := finds_of_takes rfl takes_truthLiteral
  have hcolor : colorMismatch.Finds .color := finds_of_takes rfl takes_colorLiteral
  simp only [mismatches, List.pairwise_cons, List.mem_cons, List.not_mem_nil, or_false,
    forall_eq_or_imp, forall_eq, false_imp_iff, implies_true, List.Pairwise.nil, and_true]
  refine ⟨⟨?_, ?_, ?_⟩, ⟨?_, ?_⟩, ?_⟩
  · exact ⟨.text, .number, by decide, htext, hnumber⟩
  · exact ⟨.text, .truth, by decide, htext, htruth⟩
  · exact ⟨.text, .color, by decide, htext, hcolor⟩
  · exact ⟨.number, .truth, by decide, hnumber, htruth⟩
  · exact ⟨.number, .color, by decide, hnumber, hcolor⟩
  · exact ⟨.truth, .color, by decide, htruth, hcolor⟩

/-- A literal is reported where it starts. -/
theorem exists_of_mismatchOfLine {m : Mismatch} (hm : m.Finds kind) {d : Diagnostic}
    (h : mismatchOfLine doc line number m = some d) :
    ∃ before c after stop, line.bare = before ++ c :: after ∧
      LiteralKind.ofChar? c = some kind ∧ d.range = doc.span number (byteLength before) stop := by
  simp only [mismatchOfLine, Option.bind_eq_bind, Option.bind_eq_some_iff, Option.some.injEq] at h
  obtain ⟨o, ho, f, -, rfl⟩ := h
  obtain ⟨before, rest, hbare, -, hoffset, hfound⟩ :=
    isMatch_of_mem_occurrencesFrom (List.mem_of_head? ho)
  obtain ⟨c, after, rfl, hc⟩ := hm _ _ _ hfound
  have hstart : byteLength (before ++ o.found.lead) = o.offset + byteLength o.found.lead := by
    rw [byteLength_append, hoffset, Nat.zero_add]
  refine ⟨before ++ o.found.lead, c, after,
    o.offset + byteLength o.found.lead + byteLength o.found.value, ?_, hc, ?_⟩
  · rw [hbare, List.append_assoc]
  · rw [hstart]
    rfl

theorem mismatchOfLine_range_ne (fits : doc.Fits) (h : (line, number) ∈ doc.numbered)
    {m n : Mismatch} {j k : LiteralKind} (hne : j ≠ k) (hm : m.Finds j) (hn : n.Finds k)
    {d e : Diagnostic} (hd : mismatchOfLine doc line number m = some d)
    (he : mismatchOfLine doc line number n = some e) : d.range ≠ e.range := by
  intro heq
  obtain ⟨before, c, after, stop, hbare, hc, hrange⟩ := exists_of_mismatchOfLine hm hd
  obtain ⟨before', c', after', stop', hbare', hc', hrange'⟩ := exists_of_mismatchOfLine hn he
  rw [hrange, hrange'] at heq
  have hlength : byteLength before = byteLength before' := by
    refine fits.span_start_inj h ?_ ?_ (congrArg Range.start heq)
    · exact ⟨before, c, after, hbare.trans (List.append_cons ..), isToken_of_ofChar? hc, rfl⟩
    · exact ⟨before', c', after', hbare'.trans (List.append_cons ..), isToken_of_ofChar? hc', rfl⟩
  -- The same character stands at the same place, and starts one kind of literal.
  have hrest : c :: after = c' :: after' := by
    rw [← Text.dropBytes_append before (c :: after), ← Text.dropBytes_append before' (c' :: after'),
      ← hbare, ← hbare', hlength]
  obtain rfl := (List.cons.inj hrest).1
  exact hne (Option.some.inj (hc.symm.trans hc'))

theorem typeMismatches_separate (fits : doc.Fits) :
    Separate doc [.typeMismatch] (typeMismatches doc) := by
  have hsize : ∀ x ∈ doc.numbered, x.2 < UInt32.size := fun _ hx =>
    fits.lt_size (Document.lt_lineCount_of_mem hx)
  refine .of_range_ne typeMismatches_code
    (pairwise_flatMap_of_lines doc.numbered_pairwise hsize ?_ ?_ ?_)
  · rintro ⟨line, number⟩ - d hd
    obtain ⟨m, -, hd⟩ := List.mem_filterMap.mp hd
    simp only [mismatchOfLine, Option.bind_eq_bind, Option.bind_eq_some_iff,
      Option.some.injEq] at hd
    obtain ⟨o, -, f, -, rfl⟩ := hd
    rfl
  · rintro ⟨line, number⟩ hline
    refine List.pairwise_filterMap.mpr (mismatches_pairwise.imp ?_)
    rintro m n ⟨j, k, hne, hm, hn⟩ d hd e he
    exact mismatchOfLine_range_ne fits hline hne hm hn hd he
  · intro x _ d _ y _ e _ hlt heq
    rw [heq] at hlt
    exact UInt32.lt_irrefl _ hlt

/-! ### Unused variables -/

theorem unusedVariables_separate (fits : doc.Fits) :
    Separate doc [.unusedVariable] (unusedVariables doc) := by
  refine .of_range_ne unusedVariables_code ?_
  have hempty : (Table.empty : Table Range).names.Nodup := List.nodup_nil
  have hnames := fun entries => List.pairwise_map.mp (Table.nodup_names_insertAll hempty entries)
  refine List.pairwise_map.mpr (((hnames _).filter _).imp_of_mem ?_)
  intro a b ha hb hne heq
  have hplaced := unusedVariables_placed fits.toWellFormed
  have hreadsA := (hplaced _ (List.mem_map_of_mem ha)).textAt?_eq fits rfl
  have hreadsB := (hplaced _ (List.mem_map_of_mem hb)).textAt?_eq fits rfl
  rw [show a.2 = b.2 from heq, hreadsB] at hreadsA
  exact hne (String.toList_inj.mp (Option.some.inj hreadsA).symm)

/-! ### Families -/

theorem syntaxOfLine_separate (fits : doc.Fits) (h : (line, number) ∈ doc.numbered)
    (pending : List OpenBracket) :
    Separate doc lineCodes
      (syntaxOfLine doc (line, number) (bracketsOfLine doc pending line number).1) := by
  have hsemicolon : Separate doc _ (semicolon doc line number) :=
    .of_ascending (fun d hd => (semicolon_on d hd).1) semicolon_ascending
  have hbrackets : Separate doc _ (bracketsOfLine doc pending line number).1 :=
    .of_ascending (fun d hd => (bracketsOfLine_on pending d hd).1)
      (bracketsOfLine_ascending fits h pending)
  have hnaming := (hsemicolon.append hbrackets (by decide)).append (naming_separate fits h)
    (by decide)
  exact hnaming.append (directives_separate fits h) (by decide)

theorem syntactic_separate (fits : doc.Fits) :
    Separate doc (lineCodes ++ [.unclosedBracket]) (syntactic doc) := by
  have hlines : Separate doc lineCodes ((doc.numbered.zipWith (syntaxOfLine doc)
      (bracketsOfLines doc [] doc.numbered).1).flatten) := by
    refine ⟨(lines_orderly doc).code_mem, pairwise_lines ?_ ?_⟩
    · exact fun line number pending h => (syntaxOfLine_separate fits h pending).pairwise
    · intro d e _ _ hlt hsame
      rw [hsame.2] at hlt
      exact absurd (hlt fits) (UInt32.lt_irrefl _)
  have hunclosed : Separate doc [.unclosedBracket]
      (unclosedBrackets doc (bracketsOfLines doc [] doc.numbered).2) :=
    .of_ascending (fun _ hd => code_of_mem_map hd fun _ => rfl) (unclosedBrackets_ascending fits)
  exact hlines.append hunclosed (by decide)

theorem semantic_separate [PatternEngine] (fits : doc.Fits) (dialect : Dialect) :
    Separate doc semanticCodes (semantic dialect doc) := by
  have hvariables : Separate doc _ (undefinedVariables dialect doc) :=
    .of_ascending (undefinedVariables_code dialect) (undefinedVariables_ascending fits dialect)
  have hfunctions : Separate doc _ (undefinedFunctions dialect doc) :=
    .of_ascending (undefinedFunctions_code dialect) (undefinedFunctions_ascending fits dialect)
  have hunreachable : Separate doc _ (unreachable doc) :=
    .of_ascending unreachable_code (unreachable_ascending fits)
  exact ((hvariables.append hfunctions (by decide)).append (typeMismatches_separate fits)
    (by decide)).append hunreachable (by decide)

theorem style_separate (fits : doc.Fits) : Separate doc styleCodes (style doc) := by
  have hnumbers : Separate doc _ (magicNumbers doc) :=
    .of_ascending magicNumbers_code (magicNumbers_ascending fits)
  have hlong : Separate doc _ (longFunctions doc) :=
    .of_ascending longFunctions_code (longFunctions_ascending fits)
  have hnesting : Separate doc _ (nesting doc) :=
    .of_ascending (nestingFrom_code 0 doc.numbered)
      (nestingFrom_ascending fits (List.Subset.refl _) doc.numbered_pairwise 0).1
  exact (((unusedVariables_separate fits).append hnumbers (by decide)).append hlong
    (by decide)).append hnesting (by decide)

theorem all_separate [PatternEngine] (fits : doc.Fits) (dialect : Dialect) :
    Separate doc (lineCodes ++ [.unclosedBracket] ++ semanticCodes ++ styleCodes)
      (all dialect doc) :=
  ((syntactic_separate fits).append (semantic_separate fits dialect) (by decide)).append
    (style_separate fits) (by decide)

theorem directives_sublist_all [PatternEngine] (dialect : Dialect)
    (h : (line, number) ∈ doc.numbered) :
    (directives doc line number).Sublist (all dialect doc) := by
  have hlength := Nat.le_of_eq (bracketsOfLines_length doc [] doc.numbered).symm
  rw [← List.map_fst_zip hlength] at h
  obtain ⟨⟨_, matched⟩, hx, rfl⟩ := List.mem_map.mp h
  have hline : (directives doc line number).Sublist (syntaxOfLine doc (line, number) matched) :=
    List.sublist_append_right _ _
  have hlines : (syntaxOfLine doc (line, number) matched).Sublist (syntactic doc) := by
    rw [syntactic, ← List.map_uncurry_zip_eq_zipWith]
    refine (List.sublist_flatten_of_mem ?_).trans (List.sublist_append_left _ _)
    exact List.mem_map.mpr ⟨((line, number), matched), hx, rfl⟩
  have hall : (syntactic doc).Sublist (all dialect doc) := by
    rw [all, List.append_assoc]
    exact List.sublist_append_left _ _
  exact (hline.trans hlines).trans hall

end Check

/-! ### Reports -/

/-- In a report, only keys that a `#property` borrows are repeated. The reports of a run
repeat nothing, however many diagnostics are wanted, exactly if keys are not to be
reported, or the text switches them off on every line where one is borrowed. -/
theorem check_unrepeated_iff [Check.PatternEngine] (text : String)
    (fits : (Document.ofText text.toList).Fits) (dialect : Dialect) (codes : List Code) :
    let doc := Document.ofText text.toList
    (∀ limit, (check text dialect ⟨limit, codes⟩).diagnostics.Pairwise fun d e =>
        d.SameFinding e → d.ReportsBorrowed doc) ∧
      ((∀ limit, Unrepeated (check text dialect ⟨limit, codes⟩).diagnostics) ↔
        .invalidPropertyValue ∈ codes ∨
          ∀ line number, (line, number) ∈ doc.numbered → Check.BorrowsUnknownKey line.bare →
            (Suppressions.ofText text.toList).isQuiet .invalidPropertyValue
              (.ofNatClamp number) = true) := by
  intro doc
  have hborrowed : ∀ limit, (check text dialect ⟨limit, codes⟩).diagnostics.Pairwise fun d e =>
      d.SameFinding e → d.ReportsBorrowed doc := fun limit =>
    (Check.all_separate fits dialect).pairwise.sublist
      (check_sublist_all text dialect ⟨limit, codes⟩)
  refine ⟨hborrowed, ⟨fun h => ?_, fun h limit => (hborrowed limit).imp_of_mem ?_⟩⟩
  · refine Classical.or_iff_not_imp_left.mpr fun hcodes line number hline hborrows => ?_
    obtain ⟨d, hcode, hon, htwice⟩ :=
      Check.exists_sublist_directives_of_borrows doc number hborrows
    refine Bool.eq_true_of_not_eq_false fun hquiet => ?_
    have hsublist : [d, d].Sublist (wanted text dialect codes) := by
      have hfilter := (htwice.trans (Check.directives_sublist_all dialect hline)).filter fun d =>
        decide (d.code ∉ codes) &&
          !(Suppressions.ofText text.toList).isQuiet d.code d.range.start.line
      rw [← wanted_eq_filter] at hfilter
      simpa [hcode, hon, hcodes, hquiet] using hfilter
    have hwanted := h (wanted text dialect codes).length
    rw [check_diagnostics, List.take_length] at hwanted
    have hpair := List.pairwise_pair.mp (hwanted.sublist hsublist)
    exact hpair ⟨rfl, rfl⟩
  · rintro d e hd - hsame' hsame
    obtain ⟨hcode, line, number, hline, hon, hborrows⟩ := hsame' hsame
    rw [check_diagnostics, wanted_eq_filter] at hd
    have hd := (List.mem_filter.mp (List.mem_of_mem_take hd)).2
    simp only [hcode, hon, Bool.and_eq_true, decide_eq_true_eq, Bool.not_eq_true'] at hd
    rcases h with h | h
    · exact hd.1 h
    · rw [h line _ hline hborrows] at hd
      exact absurd hd.2 (by decide)

/-- Nothing is repeated where keys are not to be reported. -/
theorem unrepeated_without_keys :
    (Document.ofText "#property #property foo".toList).Fits ∧ ∀ limit, Unrepeated
      (check "#property #property foo" .mql5 ⟨limit, [.invalidPropertyValue]⟩).diagnostics := by
  have fits : (Document.ofText "#property #property foo".toList).Fits :=
    Document.ofText_fits (by decide)
  exact ⟨fits, (check_unrepeated_iff _ fits _ _).2.mpr (.inl (by decide))⟩

/-- Both directives report the key of the second. -/
theorem not_unrepeated_borrowed_key :
    ¬ Unrepeated (check "#property #property foo" .mql5 ⟨2, []⟩).diagnostics := by
  decide +kernel

end TradeScript
