import TradeScript.Proofs.Order
import TradeScript.Proofs.Report
import TradeScript.Proofs.Wording

/-!
# TradeScript.Proofs.Dialect

What the dialect of a text changes. A document is cut and its symbols are collected
without a dialect, and of the checks only two ask for it: those for undefined variables
and undefined functions look words up in the vocabulary. So the reports of a text in both
dialects differ in nothing but diagnostics about functions that one dialect has and the
other has not.

Both checks keep the words that are not defined and report them. This shape is enough
(`filter_reports_eq`): where the two dialects do not agree on a word, its report is one of
those that are left out of the comparison.
-/

namespace TradeScript

/-! ### Words -/

namespace Vocabulary

/-- The functions that one dialect has and the other has not. -/
def dialectFunctions : List String :=
  mql4Functions ++ mql5Functions

theorem mem_dialectFunctions_of_mem {dialect : Dialect} {word : String}
    (h : word ∈ ownFunctions dialect) : word ∈ dialectFunctions := by
  cases dialect with
  | mql4 => exact List.mem_append_left _ h
  | mql5 => exact List.mem_append_right _ h

theorem isKnown_of_mem_ownFunctions {dialect : Dialect} {word : String}
    (h : word ∈ ownFunctions dialect) : isKnown dialect word = true := by
  simp [isKnown, isFunction, h]

/-- The dialects agree on all other words. -/
theorem isKnown_eq {word : String} (h : word ∉ dialectFunctions) (a b : Dialect) :
    isKnown a word = isKnown b word := by
  have hown : ∀ dialect, (ownFunctions dialect).contains word = false := by
    intro dialect
    have hmem : word ∉ ownFunctions dialect := fun hmem => h (mem_dialectFunctions_of_mem hmem)
    simpa using hmem
  simp only [isKnown, isFunction, hown]

end Vocabulary

namespace Diagnostic

/-- The diagnostic says that the word is undefined, as a variable or as a function. -/
def SaysUndefined (d : Diagnostic) (word : String) : Prop :=
  d = (Finding.undefinedVariable word).report d.range ∨
    d = (Finding.undefinedFunction word).report d.range

instance (d : Diagnostic) (word : String) : Decidable (d.SaysUndefined word) :=
  inferInstanceAs (Decidable (_ ∨ _))

/-- The diagnostic says of a function of one dialect only that it is undefined. -/
def IsDialectal (d : Diagnostic) : Prop :=
  ∃ word ∈ Vocabulary.dialectFunctions, d.SaysUndefined word

instance (d : Diagnostic) : Decidable d.IsDialectal :=
  inferInstanceAs (Decidable (∃ word ∈ Vocabulary.dialectFunctions, d.SaysUndefined word))

theorem SaysUndefined.code {d : Diagnostic} {word : String} (h : d.SaysUndefined word) :
    d.code = .undefinedVariable ∨ d.code = .undefinedFunction :=
  h.imp (congrArg Diagnostic.code) (congrArg Diagnostic.code)

/-- A report names one word. -/
theorem eq_of_token {f g : Finding} {r s : Range} {name word : String}
    (hf : f.token? = some name.toList) (hg : g.token? = some word.toList)
    (h : f.report r = g.report s) : name = word := by
  have htoken := Finding.token?_eq_of_report_eq h
  rw [hf, hg] at htoken
  exact String.toList_inj.mp (Option.some.inj htoken)

theorem saysUndefined_undefinedVariable (name word : String) (r : Range) :
    ((Finding.undefinedVariable name).report r).SaysUndefined word ↔ name = word := by
  constructor
  · intro h
    cases h with
    | inl h => exact eq_of_token rfl rfl h
    | inr h => exact eq_of_token rfl rfl h
  · intro h
    exact .inl (h ▸ rfl)

theorem saysUndefined_undefinedFunction (name word : String) (r : Range) :
    ((Finding.undefinedFunction name).report r).SaysUndefined word ↔ name = word := by
  constructor
  · intro h
    cases h with
    | inl h => exact eq_of_token rfl rfl h
    | inr h => exact eq_of_token rfl rfl h
  · intro h
    exact .inr (h ▸ rfl)

end Diagnostic

/-! ### The two checks -/

namespace Check

open Scan

/-- Things whose names are not defined are reported. If two ways to tell which names are
defined agree on all but functions of one dialect, so do their reports, apart from those
about such functions. -/
theorem filter_reports_eq {α : Type} (name : α → String) {report : α → Diagnostic}
    (hreport : ∀ x word, (report x).SaysUndefined word ↔ name x = word) {p q : α → Bool}
    (hpq : ∀ x, name x ∉ Vocabulary.dialectFunctions → p x = q x) (xs : List α) :
    ((xs.filter (!p ·)).map report).filter (fun d => ¬ d.IsDialectal) =
      ((xs.filter (!q ·)).map report).filter (fun d => ¬ d.IsDialectal) := by
  have hdialectal : ∀ x, (report x).IsDialectal ↔ name x ∈ Vocabulary.dialectFunctions := by
    intro x
    simp [Diagnostic.IsDialectal, hreport]
  rw [List.filter_map, List.filter_map, List.filter_filter, List.filter_filter]
  congr 1
  refine List.filter_congr fun x _ => ?_
  by_cases hx : name x ∈ Vocabulary.dialectFunctions
  · simp [hdialectal, hx]
  · simp [hpq x hx]

variable {doc : Document}

/-- What is reported by the check for undefined functions, without the detour by way of
the names that are looked up once. -/
theorem undefinedFunctions_eq_map [PatternEngine] (dialect : Dialect) (doc : Document) :
    undefinedFunctions dialect doc =
      ((occurrences call doc.bareText).filter fun o =>
        !(Vocabulary.isKnown dialect o.name || endsInAccess o.behind ||
          declaresFunction (functionPlaces doc.bareText) o.found.name)).map
        fun o => (Finding.undefinedFunction o.name).report (doc.spanAt o.start o.stop) := by
  -- A name of a call is among those that were looked up.
  have hlookup : ∀ (calls : List (Occurrence Found)) places, ∀ o ∈ calls,
      ((calls.map fun o => o.found.name).eraseDups.filter (declaresFunction places)).contains
        o.found.name = declaresFunction places o.found.name := by
    intro calls places o ho
    have hmem : o.found.name ∈ (calls.map fun o => o.found.name).eraseDups :=
      List.mem_eraseDups.mpr (List.mem_map.mpr ⟨o, ho, rfl⟩)
    rw [Bool.eq_iff_iff, List.contains_iff_mem, List.mem_filter]
    exact ⟨And.right, fun hdeclared => ⟨hmem, hdeclared⟩⟩
  simp only [undefinedFunctions]
  rw [filterMap_unless, List.filter_congr fun o ho => congrArg not (hlookup _ _ o ho),
    List.filter_filter]
  congr 1
  refine List.filter_congr fun o _ => ?_
  rw [← Bool.not_or, Bool.or_comm]

theorem undefinedVariables_filter_eq (a b : Dialect) :
    (undefinedVariables a doc).filter (fun d => ¬ d.IsDialectal) =
      (undefinedVariables b doc).filter (fun d => ¬ d.IsDialectal) := by
  simp only [undefinedVariables, filterMap_unless, List.filter_flatMap]
  congr 1
  funext x
  refine filter_reports_eq Occurrence.name (fun o word => ?_) (fun o ho => ?_) _
  · exact Diagnostic.saysUndefined_undefinedVariable o.name word _
  · simp only [isDefined, Vocabulary.isKnown_eq ho a b]

theorem undefinedFunctions_filter_eq [PatternEngine] (a b : Dialect) :
    (undefinedFunctions a doc).filter (fun d => ¬ d.IsDialectal) =
      (undefinedFunctions b doc).filter (fun d => ¬ d.IsDialectal) := by
  rw [undefinedFunctions_eq_map, undefinedFunctions_eq_map]
  refine filter_reports_eq Occurrence.name (fun o word => ?_) (fun o ho => ?_) _
  · exact Diagnostic.saysUndefined_undefinedFunction o.name word _
  · simp only [Vocabulary.isKnown_eq ho a b]

/-- Apart from diagnostics about functions of one dialect, the checks find the same. -/
theorem all_filter_eq [PatternEngine] (a b : Dialect) :
    (all a doc).filter (fun d => ¬ d.IsDialectal) =
      (all b doc).filter (fun d => ¬ d.IsDialectal) := by
  simp only [all, semantic, List.filter_append, undefinedVariables_filter_eq a b,
    undefinedFunctions_filter_eq a b]

/-- Only the two checks say of a word that it is undefined. -/
theorem mem_undefined_of_saysUndefined [PatternEngine] {dialect : Dialect} {d : Diagnostic}
    {word : String} (hd : d ∈ all dialect doc) (h : d.SaysUndefined word) :
    d ∈ undefinedVariables dialect doc ∨ d ∈ undefinedFunctions dialect doc := by
  have hd := mem_checkOf hd
  cases h.code with
  | inl hcode =>
      rw [hcode] at hd
      exact .inl hd
  | inr hcode =>
      rw [hcode] at hd
      exact .inr hd

/-- A word that is said to be undefined is not known in the dialect. -/
theorem not_isKnown_of_saysUndefined [PatternEngine] {dialect : Dialect} {d : Diagnostic}
    {word : String} (hd : d ∈ all dialect doc) (h : d.SaysUndefined word) :
    Vocabulary.isKnown dialect word = false := by
  cases mem_undefined_of_saysUndefined hd h with
  | inl hd =>
      simp only [undefinedVariables, filterMap_unless, List.mem_flatMap, List.mem_map,
        List.mem_filter] at hd
      obtain ⟨x, -, o, ⟨-, hdefined⟩, rfl⟩ := hd
      obtain rfl := (Diagnostic.saysUndefined_undefinedVariable o.name word _).mp h
      simp only [isDefined, Bool.not_eq_true', Bool.or_eq_false_iff] at hdefined
      exact hdefined.1.1
  | inr hd =>
      simp only [undefinedFunctions_eq_map, List.mem_map, List.mem_filter] at hd
      obtain ⟨o, ⟨-, hdefined⟩, rfl⟩ := hd
      obtain rfl := (Diagnostic.saysUndefined_undefinedFunction o.name word _).mp h
      simp only [Bool.not_eq_true', Bool.or_eq_false_iff] at hdefined
      exact hdefined.1.1

end Check

/-! ### Reports -/

/-- A report that is not cut has all that is wanted. -/
theorem check_diagnostics_of_not_truncated [Check.PatternEngine] {text : String}
    {dialect : Dialect} {limit : Nat}
    {codes : List Code} (h : (check text dialect ⟨limit, codes⟩).truncated = false) :
    (check text dialect ⟨limit, codes⟩).diagnostics = wanted text dialect codes := by
  have hle : ¬ limit < (wanted text dialect codes).length := by
    rw [← check_truncated_iff, h]
    simp
  rw [check_diagnostics, List.take_of_length_le (Nat.le_of_not_lt hle)]

/-- Codes and lines that are switched off are so in both dialects. -/
theorem wanted_filter_eq [Check.PatternEngine] (text : String) (codes : List Code) (a b : Dialect) :
    ((wanted text a codes).filter fun d => ¬ d.IsDialectal) =
      (wanted text b codes).filter fun d => ¬ d.IsDialectal := by
  have hswap : ∀ dialect, ((wanted text dialect codes).filter fun d => ¬ d.IsDialectal) =
      ((Check.all dialect (Document.ofText text.toList)).filter
        fun d => ¬ d.IsDialectal).filter fun d => decide (d.code ∉ codes) &&
          !(Suppressions.ofText text.toList).isQuiet d.code d.range.start.line := by
    intro dialect
    rw [wanted_eq_filter, List.filter_filter, List.filter_filter]
    exact List.filter_congr fun d _ => Bool.and_comm _ _
  rw [hswap a, hswap b, Check.all_filter_eq a b]

/-- Without a cut, the reports of a text in both dialects are the same, apart from
diagnostics which say of a function of one dialect only that it is undefined; and in no
dialect is that said of a function that this dialect has. -/
theorem check_dialects_agree [Check.PatternEngine] (text : String) (settings : RunSettings)
    (hwhole : ∀ dialect, (check text dialect settings).truncated = false) :
    ((check text .mql4 settings).diagnostics.filter fun d => ¬ d.IsDialectal) =
        ((check text .mql5 settings).diagnostics.filter fun d => ¬ d.IsDialectal) ∧
      ∀ dialect, ∀ d ∈ (check text dialect settings).diagnostics,
        ∀ word ∈ Vocabulary.ownFunctions dialect, ¬ d.SaysUndefined word := by
  obtain ⟨limit, codes⟩ := settings
  constructor
  · rw [check_diagnostics_of_not_truncated (hwhole .mql4),
      check_diagnostics_of_not_truncated (hwhole .mql5), wanted_filter_eq]
  · intro dialect d hd word hword hsays
    have hall := (check_sublist_all text dialect ⟨limit, codes⟩).subset hd
    have hunknown := Check.not_isKnown_of_saysUndefined hall hsays
    rw [Vocabulary.isKnown_of_mem_ownFunctions hword] at hunknown
    exact Bool.noConfusion hunknown

/-- A call of a function of one dialect, with one of the other and a number as arguments. -/
theorem check_dialects_agree_on_number :
    let text := "Day(iAMA,7"
    let settings : RunSettings := {}
    (∀ dialect, (check text dialect settings).truncated = false) ∧
      (check text .mql4 settings).diagnostics ≠ (check text .mql5 settings).diagnostics ∧
      ((check text .mql4 settings).diagnostics.filter fun d => ¬ d.IsDialectal) =
        ((check text .mql5 settings).diagnostics.filter fun d => ¬ d.IsDialectal) := by
  intro text settings
  -- One evaluation for all three, which looks the words up only once.
  obtain ⟨hmql4, hmql5, hne⟩ : (check text .mql4 settings).truncated = false ∧
      (check text .mql5 settings).truncated = false ∧
      (check text .mql4 settings).diagnostics ≠ (check text .mql5 settings).diagnostics := by
    decide +kernel
  have hwhole : ∀ dialect, (check text dialect settings).truncated = false := by
    intro dialect
    cases dialect with
    | mql4 => exact hmql4
    | mql5 => exact hmql5
  exact ⟨hwhole, hne, (check_dialects_agree text settings hwhole).1⟩

end TradeScript
