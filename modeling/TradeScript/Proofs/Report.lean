import TradeScript.Report

/-!
# TradeScript.Proofs.Report

How a report is cut. The diagnostics of a run do not depend on the number wanted: they
are what the checks find, without what the text switches off and without the codes that
are not to be reported. A report is the front of this list, and all its counts are over
that front. So of two reports that differ in the number wanted, the shorter is the front
of the longer (`check_prefix_check`), and errors can only be lost by wanting less.
-/

namespace TradeScript

/-! ### Counts -/

namespace Report

/-- Every diagnostic has one of the three severities. -/
theorem count_add_count_add_count (report : Report) :
    report.count .error + report.count .warning + report.count .information =
      report.diagnostics.length := by
  unfold count
  induction report.diagnostics with
  | nil => rfl
  | cons d ds ih =>
      simp only [List.countP_cons, List.length_cons]
      cases d.severity with
      | error => simp; omega
      | warning => simp; omega
      | information => simp; omega

variable {shorter longer : Report}

theorem count_le_count (h : shorter.diagnostics <+: longer.diagnostics) (severity : Severity) :
    shorter.count severity ≤ longer.count severity :=
  h.sublist.countP_le

theorem pass_of_pass (h : shorter.diagnostics <+: longer.diagnostics)
    (hpass : longer.pass = true) : shorter.pass = true := by
  have hle := count_le_count h .error
  rw [pass, beq_iff_eq] at hpass ⊢
  omega

end Report

/-! ### The cut -/

/-- What the three families find in a text, one after the other, without what the text
switches off. -/
def remaining [Check.PatternEngine] (text : String) (dialect : Dialect) : List Diagnostic :=
  let doc := Document.ofText text.toList
  (Check.syntactic doc ++ Check.semantic dialect doc ++ Check.style doc).filter fun d =>
    !(Suppressions.ofText text.toList).isQuiet d.code d.range.start.line

/-- What remains, without the codes that are not to be reported. -/
def wanted [Check.PatternEngine] (text : String) (dialect : Dialect) (codes : List Code) :
    List Diagnostic :=
  (remaining text dialect).filter fun d => d.code ∉ codes

section

variable (text : String) (dialect : Dialect) (codes : List Code)

theorem wanted_eq_filter [Check.PatternEngine] :
    wanted text dialect codes = (Check.all dialect (Document.ofText text.toList)).filter fun d =>
      decide (d.code ∉ codes) &&
        !(Suppressions.ofText text.toList).isQuiet d.code d.range.start.line :=
  List.filter_filter

variable {text dialect codes} in
theorem mem_wanted_iff [Check.PatternEngine] {d : Diagnostic} :
    d ∈ wanted text dialect codes ↔ d ∈ Check.all dialect (Document.ofText text.toList) ∧
      d.code ∉ codes ∧
      (Suppressions.ofText text.toList).isQuiet d.code d.range.start.line = false := by
  rw [wanted_eq_filter, List.mem_filter, Bool.and_eq_true, decide_eq_true_iff, Bool.not_eq_true']

theorem filter_unsuppressed [Check.PatternEngine] :
    ((unsuppressed dialect text.toList).filter fun d => !codes.contains d.code) =
      wanted text dialect codes := by
  refine List.filter_congr fun d _ => ?_
  rw [Bool.eq_iff_iff, decide_eq_true_iff, Bool.not_eq_true', ← Bool.not_eq_true,
    List.contains_iff_mem]

theorem check_diagnostics [Check.PatternEngine] (limit : Nat) :
    (check text dialect ⟨limit, codes⟩).diagnostics = (wanted text dialect codes).take limit := by
  rw [← filter_unsuppressed, check]

theorem check_totalFound [Check.PatternEngine] (limit : Nat) :
    (check text dialect ⟨limit, codes⟩).totalFound = (wanted text dialect codes).length := by
  rw [← filter_unsuppressed, check]

theorem check_truncated_iff [Check.PatternEngine] (limit : Nat) :
    (check text dialect ⟨limit, codes⟩).truncated = true ↔
      limit < (wanted text dialect codes).length := by
  rw [Report.truncated, check_diagnostics, check_totalFound, decide_eq_true_iff, List.length_take]
  omega

/-- Wanting less gives the front of what wanting more gives. -/
theorem check_prefix_check [Check.PatternEngine] {fewer more : Nat} (h : fewer ≤ more) :
    (check text dialect ⟨fewer, codes⟩).diagnostics <+:
      (check text dialect ⟨more, codes⟩).diagnostics := by
  rw [check_diagnostics, check_diagnostics]
  exact List.take_prefix_take_left h

/-- A report is the front of what is wanted, and its totals and counts say so. Wanting
more keeps it as the front of the longer report, with the same total; errors can only be
added, so the shorter report passes if the longer one does. -/
theorem check_cuts_wanted [Check.PatternEngine] (limit : Nat) :
    let report := check text dialect ⟨limit, codes⟩
    let found := wanted text dialect codes
    report.diagnostics = found.take limit ∧
      report.totalFound = found.length ∧
      (report.truncated = true ↔ limit < found.length) ∧
      report.count .error + report.count .warning + report.count .information =
        report.diagnostics.length ∧
      ∀ more, limit ≤ more →
        let longer := check text dialect ⟨more, codes⟩
        report.diagnostics <+: longer.diagnostics ∧ report.totalFound = longer.totalFound ∧
          report.count .error ≤ longer.count .error ∧
          (longer.pass = true → report.pass = true) := by
  intro report found
  refine ⟨check_diagnostics .., check_totalFound .., check_truncated_iff ..,
    report.count_add_count_add_count, fun more hle => ?_⟩
  have hfront := check_prefix_check text dialect codes hle
  have htotal : report.totalFound = (check text dialect ⟨more, codes⟩).totalFound :=
    (check_totalFound ..).trans (check_totalFound ..).symm
  exact ⟨hfront, htotal, Report.count_le_count hfront .error,
    Report.pass_of_pass hfront⟩

end

/-- The text switches off what is found on its second line, and the run an error on the
first: two findings are left, and the shorter report has one of them. -/
theorem check_cuts_switched :
    let text := "42;77\n88//mqlint-disable"
    let shorter := check text .mql5 ⟨1, [.missingSemicolon]⟩
    let longer := check text .mql5 ⟨2, [.missingSemicolon]⟩
    1 ≤ 2 ∧ longer.pass = true ∧ shorter.truncated = true ∧
      shorter.diagnostics <+: longer.diagnostics ∧ shorter.totalFound = longer.totalFound ∧
      shorter.count .error ≤ longer.count .error ∧ shorter.pass = true := by
  intro text shorter longer
  have hpass : longer.pass = true := by decide +kernel
  have htruncated : shorter.truncated = true := by decide +kernel
  obtain ⟨-, -, -, -, hmore⟩ := check_cuts_wanted text .mql5 [.missingSemicolon] 1
  obtain ⟨hfront, htotal, herrors, hshorter⟩ := hmore 2 (by decide)
  exact ⟨by decide, hpass, htruncated, hfront, htotal, herrors, hshorter hpass⟩

end TradeScript
