import Mathlib.Data.List.Forall2
import TradeScript.Command.CheckFiles

/-!
# TradeScript.Proofs.Command.Verdict

Whether the command that checks files fails, and why. Files are read in order up to the
first that cannot be (`checkAll_snd_eq_some_iff`), or all of them are (`checkAll_eq_none_iff`).
The failure is made from that alone, so it does not depend on how the output is wanted.

What is printed does. As text, the output is a list of lines that each say one thing
(`TextLine`), and a quiet run leaves out all but the errors.
-/

namespace TradeScript.CheckFiles

/-! ### Reading and checking files -/

/-- The file at a path is a text that is not longer than the limit. -/
def ReadsAs (s : Settings.Surroundings) (limit : Option Nat) (path text : String) : Prop :=
  ∃ bytes, s.tree.lookup s.cwd path = .ok (.file bytes) ∧ (∀ n, limit = some n → bytes.size ≤ n) ∧
    String.fromUTF8? bytes = some text

/-- The file at a path can be read, and the report is what the check of its text gives. -/
def Reported [Check.PatternEngine] (s : Settings.Surroundings) (plan : Plan) (path : String)
    (report : Report) : Prop :=
  ∃ text, ReadsAs s plan.settings.inputLimit path text ∧
    report = { check text (plan.dialect.getD (plan.settings.resolveDialect (some path))) plan.run
      with file := some path }

/-- The path is the first of the files that cannot be read, for the fault. -/
def FirstUnread [Check.PatternEngine] (s : Settings.Surroundings) (plan : Plan)
    (files : List String) (path : String) (fault : InputFault) : Prop :=
  ∃ before after, files = before ++ path :: after ∧
    (∀ other ∈ before, ∃ report, Reported s plan other report) ∧
    readInput s plan.settings.inputLimit path = .error fault

variable {s : Settings.Surroundings} {plan : Plan} {path : String}

/-- Reading a file, without the steps in between. -/
theorem readInput_eq (s : Settings.Surroundings) (limit : Option Nat) (path : String) :
    readInput s limit path =
      match s.tree.lookup s.cwd path with
      | .error fault => .error (.unreadable fault)
      | .ok entry =>
          match limit.filter fun limit => limit < entry.size with
          | some limit => .error (.tooLarge entry.size limit)
          | none => entry.text.mapError .unreadable := by
  rw [readInput]
  cases s.tree.lookup s.cwd path with
  | error fault => rfl
  | ok entry => rfl

theorem readInput_eq_ok_iff {limit : Option Nat} {text : String} :
    readInput s limit path = .ok text ↔ ReadsAs s limit path text := by
  have hlimit : ∀ size, (limit.filter fun limit => limit < size) = none ↔
      ∀ n, limit = some n → size ≤ n := by
    intro size
    simp [Option.filter_eq_none_iff]
  rw [readInput_eq, ReadsAs]
  cases hlookup : s.tree.lookup s.cwd path with
  | error fault => simp
  | ok entry =>
      dsimp only
      specialize hlimit entry.size
      cases hfilter : limit.filter fun limit => limit < entry.size with
      | some n =>
          rw [hfilter] at hlimit
          refine ⟨fun h => absurd h (by simp), ?_⟩
          rintro ⟨bytes, hbytes, hsize, -⟩
          obtain rfl : entry = .file bytes := Except.ok.inj hbytes
          exact absurd (hlimit.mpr hsize) (by simp)
      | none =>
          have hshort := hlimit.mp hfilter
          cases entry with
          | directory => simp [Entry.text, Except.mapError]
          | file bytes =>
              have hsize : ∀ n, limit = some n → bytes.size ≤ n := hshort
              cases htext : String.fromUTF8? bytes with
              | none => simp [Entry.text, htext, Except.mapError]
              | some read => simpa [Entry.text, htext, Except.mapError] using fun _ => hsize

theorem checkFile_eq_ok_iff [Check.PatternEngine] {report : Report} :
    checkFile s plan path = .ok report ↔ Reported s plan path report := by
  simp only [Reported, ← readInput_eq_ok_iff]
  cases hread : readInput s plan.settings.inputLimit path with
  | error fault => simp [checkFile, hread, bind, Except.bind]
  | ok text => simp [checkFile, hread, bind, Except.bind, pure, Except.pure, eq_comm]

theorem checkFile_eq_error_iff [Check.PatternEngine] {fault : InputFault} :
    checkFile s plan path = .error fault ↔
      readInput s plan.settings.inputLimit path = .error fault := by
  cases hread : readInput s plan.settings.inputLimit path with
  | error fault => simp [checkFile, hread, bind, Except.bind]
  | ok text => simp [checkFile, hread, bind, Except.bind, pure, Except.pure]

theorem not_reported_of_error [Check.PatternEngine] {fault : InputFault} {report : Report}
    (hfault : readInput s plan.settings.inputLimit path = .error fault) :
    ¬ Reported s plan path report := by
  rw [← checkFile_eq_ok_iff, checkFile_eq_error_iff.mpr hfault]
  simp

/-- Checking stops nowhere exactly if every file can be read. -/
theorem checkAll_eq_none_iff [Check.PatternEngine] {files : List String} {reports : List Report} :
    checkAll s plan files = (reports, none) ↔ List.Forall₂ (Reported s plan) files reports := by
  induction files generalizing reports with
  | nil => simp [checkAll, eq_comm]
  | cons path files ih =>
      cases hcheck : checkFile s plan path with
      | error fault =>
          simp only [checkAll, hcheck, Prod.mk.injEq, reduceCtorEq, and_false, false_iff]
          rintro (_ | ⟨hreport, -⟩)
          exact not_reported_of_error (checkFile_eq_error_iff.mp hcheck) hreport
      | ok report =>
          have hreport := checkFile_eq_ok_iff.mp hcheck
          simp only [checkAll, hcheck, Prod.mk.injEq]
          constructor
          · rintro ⟨rfl, hnone⟩
            exact .cons hreport (ih.mp (Prod.ext rfl hnone))
          · rintro (_ | ⟨hreport', hrest⟩)
            rw [← checkFile_eq_ok_iff, hcheck, Except.ok.injEq] at hreport'
            rw [ih.mpr hrest, hreport']
            exact ⟨rfl, rfl⟩

/-- If every file has a report with a property, there is a list of them. -/
theorem exists_reports_iff [Check.PatternEngine] {P : Report → Prop} {files : List String} :
    (∃ reports, List.Forall₂ (Reported s plan) files reports ∧ ∀ report ∈ reports, P report) ↔
      ∀ path ∈ files, ∃ report, Reported s plan path report ∧ P report := by
  induction files with
  | nil => simp
  | cons path files ih =>
      rw [List.forall_mem_cons, ← ih]
      constructor
      · rintro ⟨_, _ | ⟨hreport, hrest⟩, hall⟩
        obtain ⟨hP, hall⟩ := List.forall_mem_cons.mp hall
        exact ⟨⟨_, hreport, hP⟩, _, hrest, hall⟩
      · rintro ⟨⟨report, hreport, hP⟩, reports, hrest, hall⟩
        exact ⟨report :: reports, .cons hreport hrest, List.forall_mem_cons.mpr ⟨hP, hall⟩⟩

/-- Checking stops at a file exactly if it is the first that cannot be read. -/
theorem checkAll_snd_eq_some_iff [Check.PatternEngine] {files : List String} {fault : InputFault} :
    (checkAll s plan files).2 = some (path, fault) ↔ FirstUnread s plan files path fault := by
  unfold FirstUnread
  induction files with
  | nil => simp [checkAll]
  | cons first files ih =>
      cases hcheck : checkFile s plan first with
      | error fault' =>
          have hfault := checkFile_eq_error_iff.mp hcheck
          simp only [checkAll, hcheck, Option.some.injEq, Prod.mk.injEq]
          constructor
          · rintro ⟨rfl, rfl⟩
            exact ⟨[], files, rfl, by simp, hfault⟩
          · rintro ⟨before, after, heq, hbefore, hpath⟩
            cases before with
            | nil =>
                obtain ⟨rfl, -⟩ := List.cons.inj heq
                exact ⟨rfl, Except.error.inj (hfault.symm.trans hpath)⟩
            | cons other before =>
                obtain ⟨rfl, -⟩ := List.cons.inj heq
                obtain ⟨report, hreport⟩ := hbefore _ List.mem_cons_self
                exact absurd hreport (not_reported_of_error hfault)
      | ok report =>
          have hreport := checkFile_eq_ok_iff.mp hcheck
          simp only [checkAll, hcheck, ih]
          constructor
          · rintro ⟨before, after, rfl, hbefore, hpath⟩
            exact ⟨first :: before, after, rfl,
              List.forall_mem_cons.mpr ⟨⟨report, hreport⟩, hbefore⟩, hpath⟩
          · rintro ⟨before, after, heq, hbefore, hpath⟩
            cases before with
            | nil =>
                obtain ⟨rfl, -⟩ := List.cons.inj heq
                exact absurd hreport (not_reported_of_error hpath)
            | cons other before =>
                obtain ⟨-, rfl⟩ := List.cons.inj heq
                exact ⟨before, after, rfl, (List.forall_mem_cons.mp hbefore).2, hpath⟩

/-! ### Failures -/

/-- The number of errors is counted report by report. -/
theorem total_eq_foldr (reports : List Report) (severity : Severity) :
    total reports severity = reports.foldr (fun report sum => report.count severity + sum) 0 := by
  rw [total, List.countP_flatMap, List.sum_eq_foldr, List.foldr_map]
  rfl

theorem total_eq_zero_iff {reports : List Report} {severity : Severity} :
    total reports severity = 0 ↔ ∀ report ∈ reports, ∀ d ∈ report.diagnostics,
      d.severity ≠ severity := by
  simp only [total, List.countP_eq_zero, List.mem_flatMap, beq_iff_eq]
  exact ⟨fun h report hreport d hd => h d ⟨report, hreport, hd⟩,
    fun h d ⟨report, hreport, hd⟩ => h report hreport d hd⟩

/-- The failure that a file gives which cannot be read. -/
def readFailure (path : String) (fault : InputFault) : Failure :=
  (fault.toFailure path).causedBy s!"failed to check {path}"

/-- The failure that errors give. -/
def errorFailure (errors : Nat) : Failure :=
  ⟨s!"{errors} error(s) found", []⟩

theorem failure?_of_reports (reports : List Report) :
    failure? reports none =
      if 0 < total reports .error then some (errorFailure (total reports .error)) else none := rfl

theorem failure?_eq_none_iff {checked : List Report × Option (String × InputFault)} :
    failure? checked.1 checked.2 = none ↔
      ∃ reports, checked = (reports, none) ∧ total reports .error = 0 := by
  obtain ⟨reports, fault⟩ := checked
  cases fault with
  | some fault => simp [failure?]
  | none =>
      rw [failure?_of_reports]
      simp

theorem failure?_eq_some_iff {checked : List Report × Option (String × InputFault)}
    {failure : Failure} :
    failure? checked.1 checked.2 = some failure ↔
      (∃ path fault, checked.2 = some (path, fault) ∧ failure = readFailure path fault) ∨
      ∃ reports, checked = (reports, none) ∧ 0 < total reports .error ∧
        failure = errorFailure (total reports .error) := by
  obtain ⟨reports, fault⟩ := checked
  cases fault with
  | some fault =>
      obtain ⟨path, fault⟩ := fault
      simp [failure?, readFailure, eq_comm]
  | none =>
      rw [failure?_of_reports]
      simp [eq_comm]

/-! ### Lines of text -/

/-- A line of the output as text, by what it says. -/
inductive TextLine where
  | diagnostic (file : String) (d : Diagnostic)
  | note (shown found : Nat) (file : String)
  | summary (reports : List Report)

namespace TextLine

/-- The line as it is printed. -/
def render (colours : Bool) : TextLine → String
  | diagnostic file d => diagnosticLine colours file d
  | note shown found file => noteLine shown found file
  | summary reports => summaryLine reports

/-- Is the line about an error? -/
def isError : TextLine → Bool
  | diagnostic _ d => d.severity == .error
  | note _ _ _ => false
  | summary _ => false

end TextLine

/-- What is said about a report. -/
def spokenOf (report : Report) : List TextLine :=
  report.diagnostics.map (.diagnostic (report.file.getD "")) ++
    if report.truncated then
      [.note report.diagnostics.length report.totalFound (report.file.getD "")]
    else []

/-- What is said about all reports by a run that is not quiet. -/
def spoken (reports : List Report) (complete : Bool) : List TextLine :=
  reports.flatMap spokenOf ++ if complete then [.summary reports] else []

theorem reportLines_loud (colours : Bool) (report : Report) :
    reportLines colours false report = (spokenOf report).map (TextLine.render colours) := by
  rw [reportLines, spokenOf, List.map_append, List.map_map, printed]
  cases report.truncated with
  | true => rfl
  | false => rfl

theorem reportLines_quiet (colours : Bool) (report : Report) :
    reportLines colours true report =
      ((spokenOf report).filter TextLine.isError).map (TextLine.render colours) := by
  have hnote : ∀ note : List TextLine, (∀ line ∈ note, line.isError = false) →
      note.filter TextLine.isError = [] := by
    intro note h
    simpa [List.filter_eq_nil_iff] using h
  rw [reportLines, spokenOf, List.filter_append, List.filter_map, printed, hnote]
  · simp only [Bool.not_true, Bool.and_false, Bool.false_eq_true, if_false, if_true,
      List.append_nil, List.map_map]
    rfl
  · split <;> simp [TextLine.isError]

/-- A run that is not quiet prints all that is to be said. -/
theorem textLines_loud (colours : Bool) (reports : List Report) (complete : Bool) :
    textLines colours false reports complete =
      (spoken reports complete).map (TextLine.render colours) := by
  rw [textLines, spoken, List.map_append, List.map_flatMap]
  congr 1
  · congr 1
    funext report
    exact reportLines_loud colours report
  · cases complete <;> rfl

/-- A quiet run prints the errors, in the same order. -/
theorem textLines_quiet (colours : Bool) (reports : List Report) (complete : Bool) :
    textLines colours true reports complete =
      ((spoken reports complete).filter TextLine.isError).map (TextLine.render colours) := by
  rw [textLines, spoken, List.filter_append, List.map_append, List.filter_flatMap, List.map_flatMap]
  congr 1
  · congr 1
    funext report
    exact reportLines_quiet colours report
  · cases complete <;> rfl

/-! ### The command -/

variable {settings : Settings} {options : Arguments.Options} {run : RunSettings}

/-- A run of the command, however its output is wanted. -/
theorem run_of_enabled [Check.PatternEngine] (colours : Bool)
    (henabled : settings.validationEnabled = true)
    (hrun : runSettings options settings = .ok run) (json quiet : Bool) :
    let checked := checkAll s ⟨settings, run, options.dialect⟩ options.files
    CheckFiles.run s colours { options with json, quiet } settings =
      { lines := if json then jsonLines checked.1 checked.2.isNone
          else textLines colours quiet checked.1 checked.2.isNone
        failure := failure? checked.1 checked.2 } := by
  have hsettings : runSettings { options with json, quiet } settings = .ok run := hrun
  simp only [CheckFiles.run, henabled, hsettings, Bool.not_true, Bool.false_eq_true, if_false]

/-- With validation enabled and all disabled codes known, whether the command fails and
why does not depend on how the output is wanted. It succeeds exactly if every file can be
read within the limit and no report has an error. It fails for the first file that cannot
be read, or, if there is none, for the number of errors in all reports. As text, a quiet
run prints those of the lines of a run that is not quiet which are about errors, in the
same order. -/
theorem run_verdict [Check.PatternEngine] (s : Settings.Surroundings) (settings : Settings)
    (options : Arguments.Options) (colours : Bool) (run : RunSettings)
    (henabled : settings.validationEnabled = true)
    (hrun : runSettings options settings = .ok run) :
    let plan : Plan := ⟨settings, run, options.dialect⟩
    let outcome := CheckFiles.run s colours options settings
    (∀ json quiet,
      (CheckFiles.run s colours { options with json, quiet } settings).failure = outcome.failure) ∧
    (outcome.failure = none ↔ ∀ path ∈ options.files, ∃ report, Reported s plan path report ∧
      ∀ d ∈ report.diagnostics, d.severity ≠ .error) ∧
    (∀ failure, outcome.failure = some failure ↔
      (∃ path fault, FirstUnread s plan options.files path fault ∧
        failure = readFailure path fault) ∨
      ∃ reports, List.Forall₂ (Reported s plan) options.files reports ∧
        0 < reports.foldr (fun report sum => report.count .error + sum) 0 ∧
        failure = errorFailure (reports.foldr (fun report sum => report.count .error + sum) 0)) ∧
    let checked := checkAll s plan options.files
    let lines := spoken checked.1 checked.2.isNone
    (CheckFiles.run s colours { options with json := false, quiet := false } settings).lines =
        lines.map (TextLine.render colours) ∧
      (CheckFiles.run s colours { options with json := false, quiet := true } settings).lines =
        (lines.filter TextLine.isError).map (TextLine.render colours) := by
  intro plan outcome
  have hfailure : ∀ json quiet,
      (CheckFiles.run s colours { options with json, quiet } settings).failure =
        failure? (checkAll s plan options.files).1 (checkAll s plan options.files).2 :=
    fun json quiet => congrArg Outcome.failure (run_of_enabled colours henabled hrun json quiet)
  have houtcome := hfailure options.json options.quiet
  refine ⟨fun json quiet => (hfailure json quiet).trans houtcome.symm, ?_, fun failure => ?_,
    ?_, ?_⟩
  · refine (Eq.congr_left houtcome).trans (failure?_eq_none_iff.trans ?_)
    simp only [checkAll_eq_none_iff, total_eq_zero_iff, exists_reports_iff]
  · refine (Eq.congr_left houtcome).trans (failure?_eq_some_iff.trans ?_)
    simp only [checkAll_eq_none_iff, checkAll_snd_eq_some_iff, total_eq_foldr]
  · exact (congrArg Outcome.lines (run_of_enabled colours henabled hrun false false)).trans
      (textLines_loud ..)
  · exact (congrArg Outcome.lines (run_of_enabled colours henabled hrun false true)).trans
      (textLines_quiet ..)

/-- The first file has an error, the second is missing, and that is why the command fails. -/
theorem run_verdict_before_missing_file :
    let s : Settings.Surroundings := ⟨⟨[(["a"], .file ")".toUTF8)]⟩, [], []⟩
    let settings : Settings := {}
    let options : Arguments.Options := { files := ["a", "b"] }
    settings.validationEnabled = true ∧ runSettings options settings = .ok {} ∧
      ∀ json quiet, (CheckFiles.run s true { options with json, quiet } settings).failure =
        some (readFailure "b" (.unreadable .notFound)) := by
  intro s settings options
  have hread : ReadsAs s settings.inputLimit "a" ")" := by
    refine ⟨")".toUTF8, by rfl, ?_, by decide +kernel⟩
    rintro n hn
    obtain rfl : 5 * 1024 * 1024 = n := Option.some.inj hn
    decide
  have hfirst : FirstUnread s ⟨settings, {}, none⟩ ["a", "b"] "b" (.unreadable .notFound) := by
    refine ⟨["a"], [], rfl, ?_, rfl⟩
    intro other hother
    obtain rfl : other = "a" := List.mem_singleton.mp hother
    exact ⟨_, ")", hread, rfl⟩
  have h := run_verdict s settings options true {} rfl rfl
  refine ⟨rfl, rfl, fun json quiet => (h.1 json quiet).trans ?_⟩
  exact (h.2.2.1 _).mpr (.inl ⟨"b", _, hfirst, rfl⟩)

end TradeScript.CheckFiles
