import TradeScript.Command.CheckFiles
import TradeScript.Proofs.Encoding
import TradeScript.Proofs.Server.Conversation

/-!
# TradeScript.Proofs.Command.Agreement

A text can be checked in two ways: by the command, as a file, and by a server, as a text
that a client sends. Each way puts together the settings of the run, the dialect and the
limit on the length in its own place. Here they are shown to come to the same: either both
refuse the settings, or both find the text too long, or both make the same report.

The server may have been talked to before, since a conversation changes neither its
settings nor those of its runs (`Server.converse_eq_with_store`).
-/

namespace TradeScript

/-! ### The server -/

namespace Server

variable {settings : Settings}

theorem start_of_error {unknown : Code.Unknown} (h : settings.runSettings = .error unknown) :
    start settings = .error unknown := by
  simp only [start, h]
  rfl

theorem start_of_ok {run : RunSettings} (h : settings.runSettings = .ok run) :
    start settings = .ok ⟨settings, run, .empty⟩ := by
  simp only [start, h]
  rfl

end Server

/-! ### The command -/

/-- What was written as a text is read as that text. -/
theorem Entry.text_toUTF8 (text : String) : (Entry.file text.toUTF8).text = .ok text := by
  simp only [Entry.text, fromUTF8?_toUTF8]

namespace CheckFiles

/-- What a client asks for that wants a file checked as the options say. -/
def asRequest (options : Arguments.Options) (path text : String) (revision : Option Nat) :
    CheckRequest :=
  { uri := path, text, dialect := options.dialect, revision, maxProblems := options.maxProblems }

/-- What the command comes to, if a report is all it has. -/
def showing (colours : Bool) (options : Arguments.Options) (report : Report) : Outcome :=
  { lines := if options.json then jsonLines [report] true
      else textLines colours options.quiet [report] true
    failure := failure? [report] none }

/-- What the command comes to, if its only file is too long. -/
def rejecting (path : String) (size limit : Nat) : Outcome :=
  .failing (((InputFault.tooLarge size limit).toFailure path).causedBy s!"failed to check {path}")

variable {s : Settings.Surroundings} {settings : Settings} {options : Arguments.Options}
  {path text : String}

theorem runSettings_of_error {unknown : Code.Unknown}
    (h : settings.runSettings = .error unknown) :
    runSettings options settings =
      .error ⟨"invalid disabled_codes in configuration", [unknown.message]⟩ := by
  simp only [runSettings, h]
  rfl

theorem runSettings_of_ok {run : RunSettings} (h : settings.runSettings = .ok run)
    (hdisable : options.disable = []) :
    runSettings options settings =
      .ok { run with maxProblems := options.maxProblems.getD run.maxProblems } := by
  simp only [runSettings, h, hdisable]
  rfl

/-- A file is too long exactly if its text is, and else it is read as its text. -/
theorem readInput_of_file (hfile : s.tree.lookup s.cwd path = .ok (.file text.toUTF8))
    (limit : Option Nat) :
    readInput s limit path =
      match limit.filter fun limit => limit < text.utf8ByteSize with
      | some limit => .error (.tooLarge text.utf8ByteSize limit)
      | none => .ok text := by
  have hread : readInput s limit path =
      match limit.filter fun limit => limit < text.utf8ByteSize with
      | some limit => .error (.tooLarge text.utf8ByteSize limit)
      | none => (Entry.file text.toUTF8).text.mapError .unreadable := by
    simp only [readInput, hfile]
    rfl
  rw [hread, Entry.text_toUTF8]
  rfl

/-- The command for one file does what the check of that file says. -/
theorem run_of_checkFile [Check.PatternEngine] {run : RunSettings} (colours : Bool)
    (henabled : settings.validationEnabled = true)
    (hrun : runSettings options settings = .ok run) (hfiles : options.files = [path]) :
    CheckFiles.run s colours options settings =
      match checkFile s ⟨settings, run, options.dialect⟩ path with
      | .ok report => showing colours options report
      | .error fault => .failing ((fault.toFailure path).causedBy s!"failed to check {path}") := by
  simp only [CheckFiles.run, henabled, hrun, hfiles, checkAll]
  cases checkFile s ⟨settings, run, options.dialect⟩ path with
  | ok report => rfl
  | error fault =>
      cases options.json <;> simp [jsonLines, textLines, failure?, Outcome.failing]

/-- The check of a file comes to what a server answers to a client that sends its text:
the same report, or the same refusal. -/
theorem checkFile_agrees_with_answer [Check.PatternEngine] (options : Arguments.Options)
    (server : Server) (henabled : server.settings.validationEnabled = true)
    (hfile : s.tree.lookup s.cwd path = .ok (.file text.toUTF8)) (revision : Option Nat) :
    let checked := checkFile s
      ⟨server.settings,
        { server.run with maxProblems := options.maxProblems.getD server.run.maxProblems },
        options.dialect⟩ path
    match (server.answer (.check (asRequest options path text revision))).1 with
    | .ok reply => ∃ number publication report,
        reply = .checked path number publication report ∧ checked = .ok report ∧
          report.file = some path ∧
          report.dialect = options.dialect.getD (server.settings.resolveDialect (some path))
    | .error refusal => ∃ size limit,
        refusal = .tooLarge size limit ∧ checked = .error (.tooLarge size limit) := by
  have hread := readInput_of_file hfile server.settings.inputLimit
  have hsize : server.exceeded? (asRequest options path text revision).text.utf8ByteSize =
      server.settings.inputLimit.filter fun limit => limit < text.utf8ByteSize := rfl
  simp only [checkFile, hread]
  cases hlimit : server.settings.inputLimit.filter fun limit => limit < text.utf8ByteSize with
  | some limit =>
      rw [hlimit] at hsize
      rw [Server.answer_check_of_exceeded hsize]
      exact ⟨_, limit, rfl, rfl⟩
  | none =>
      rw [hlimit] at hsize
      rw [Server.answer_check hsize, Server.checkDocument_of_enabled henabled]
      exact ⟨_, _, _, rfl, rfl, rfl, rfl⟩

end CheckFiles

/-! ### Both ways -/

/-- Checking a file by the command, without codes switched off by options, agrees with
sending its text to a server with the same settings, whatever the server was asked before
and whatever number the client gives the text. If a disabled code is not known, neither
starts. Else the command finds the file too long if the server finds the text too long,
and makes and shows the report that the server answers with. -/
theorem check_command_agrees_with_server [Check.PatternEngine] (s : Settings.Surroundings)
    (settings : Settings) (options : Arguments.Options) (colours : Bool) (path text : String)
    (henabled : settings.validationEnabled = true) (hfiles : options.files = [path])
    (hdisable : options.disable = [])
    (hfile : s.tree.lookup s.cwd path = .ok (.file text.toUTF8)) :
    match Server.start settings with
    | .error unknown =>
        CheckFiles.run s colours options settings =
          .failing ⟨"invalid disabled_codes in configuration", [unknown.message]⟩
    | .ok server =>
        ∃ run, CheckFiles.runSettings options settings = .ok run ∧
          let checked := CheckFiles.checkFile s ⟨settings, run, options.dialect⟩ path
          ∀ (calls : List (String × Data)) (revision : Option Nat),
            match ((server.converse calls).2.answer
              (.check (CheckFiles.asRequest options path text revision))).1 with
            | .error refusal => ∃ size limit,
                refusal = .tooLarge size limit ∧ checked = .error (.tooLarge size limit) ∧
                  CheckFiles.run s colours options settings =
                    CheckFiles.rejecting path size limit
            | .ok reply => ∃ number publication report,
                reply = .checked path number publication report ∧ checked = .ok report ∧
                  report.file = some path ∧
                  report.dialect = options.dialect.getD (settings.resolveDialect (some path)) ∧
                  CheckFiles.run s colours options settings =
                    CheckFiles.showing colours options report := by
  cases hrun : settings.runSettings with
  | error unknown =>
      rw [Server.start_of_error hrun]
      simp only [CheckFiles.run, henabled, CheckFiles.runSettings_of_error hrun]
      rfl
  | ok run =>
      have hstart := Server.start_of_ok hrun
      have hcommand := CheckFiles.runSettings_of_ok hrun hdisable
      rw [hstart]
      refine ⟨_, hcommand, ?_⟩
      intro checked calls revision
      have hshown := CheckFiles.run_of_checkFile (s := s) colours henabled hcommand hfiles
      have hsettings := Server.converse_settings hstart calls
      have hkept : (Server.converse ⟨settings, run, .empty⟩ calls).2.run = run :=
        congrArg Server.run (Server.converse_eq_with_store _ calls)
      generalize (Server.converse ⟨settings, run, .empty⟩ calls).2 = server at hsettings hkept ⊢
      subst hsettings hkept
      have hagree :=
        CheckFiles.checkFile_agrees_with_answer options server henabled hfile revision
      cases hanswer :
          (server.answer (.check (CheckFiles.asRequest options path text revision))).1 with
      | error refusal =>
          rw [hanswer] at hagree
          obtain ⟨size, limit, hrefusal, hchecked⟩ := hagree
          rw [hchecked] at hshown
          exact ⟨size, limit, hrefusal, hchecked, hshown⟩
      | ok reply =>
          rw [hanswer] at hagree
          obtain ⟨number, publication, report, hreply, hchecked, hreport, hdialect⟩ := hagree
          rw [hchecked] at hshown
          exact ⟨number, publication, report, hreply, hchecked, hreport, hdialect, hshown⟩

/-- A file in a directory, of the length that is just allowed, with a name that tells the
dialect. -/
theorem check_command_agrees_on_allowed_length :
    let s : Settings.Surroundings :=
      ⟨⟨[(["b.mq4", "a"], .file "é9".toUTF8), (["a"], .directory)]⟩, ["a"], []⟩
    let settings : Settings := { maxInputBytes := some 3, maxProblems := some 1 }
    let options : Arguments.Options := { files := ["b.mq4"], maxProblems := some 2 }
    s.tree.lookup s.cwd "b.mq4" = .ok (.file "é9".toUTF8) ∧
      ∃ server, Server.start settings = .ok server ∧
        ∀ (calls : List (String × Data)) (revision : Option Nat), ∃ number publication report,
          ((server.converse calls).2.answer
              (.check (CheckFiles.asRequest options "b.mq4" "é9" revision))).1 =
            .ok (.checked "b.mq4" number publication report) ∧
          report.dialect = .mql4 ∧
          CheckFiles.run s true options settings = CheckFiles.showing true options report := by
  intro s settings options
  have hfile : s.tree.lookup s.cwd "b.mq4" = .ok (.file "é9".toUTF8) := by rfl
  have hstart : Server.start settings = .ok ⟨settings, ⟨1, []⟩, .empty⟩ := rfl
  have hread : CheckFiles.readInput s settings.inputLimit "b.mq4" = .ok "é9" := by
    rw [CheckFiles.readInput_of_file hfile]
    rfl
  have hagree := check_command_agrees_with_server s settings options true "b.mq4" "é9" rfl rfl rfl
    hfile
  rw [hstart] at hagree
  obtain ⟨run, -, hagree⟩ := hagree
  refine ⟨hfile, _, hstart, fun calls revision => ?_⟩
  have hcalls := hagree calls revision
  cases hanswer : ((Server.converse ⟨settings, ⟨1, []⟩, .empty⟩ calls).2.answer
      (.check (CheckFiles.asRequest options "b.mq4" "é9" revision))).1 with
  | error refusal =>
      rw [hanswer] at hcalls
      obtain ⟨size, limit, -, hchecked, -⟩ := hcalls
      simp only [CheckFiles.checkFile, hread] at hchecked
      cases hchecked
  | ok reply =>
      rw [hanswer] at hcalls
      obtain ⟨number, publication, report, rfl, -, -, hdialect, hshown⟩ := hcalls
      exact ⟨number, publication, report, rfl, hdialect.trans (by decide +kernel), hshown⟩

end TradeScript
