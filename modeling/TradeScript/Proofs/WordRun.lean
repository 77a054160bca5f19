import TradeScript.Proofs.Symbols

/-!
# TradeScript.Proofs.WordRun

Lines cut into runs of word characters (`wordRuns`). Two checks look for words of a certain
kind: names, and numbers of several digits. Both read as far as their own class of
characters goes and then ask whether the word ends there. Each class consists of word
characters, so the search never stops inside a run, and what it finds are the runs that pass
a test as a whole (`identifierWord_eq_runWord`, `digitWord_eq_runWord`).

The two checks thus are one search with different tests (`runWord`), and that search finds
the runs one after the other (`occurrences_runWord`).
-/

namespace TradeScript

open Text (byteLength byteLength_cons isAsciiWord isDecimalDigit isWord)

namespace Scan

/-! ### Runs -/

/-- The longest runs of word characters, each with its byte offset. One starts at every word
character that has none before it. `previous` is what stands before the text, and `offset`
is where the text starts. -/
def wordRunsFrom : (previous : Option Char) → (offset : Nat) → List Char → List (Nat × List Char)
  | _, _, [] => []
  | previous, offset, c :: cs =>
      let later := wordRunsFrom (some c) (offset + c.utf8Size) cs
      if opensWord previous && isWord c then (offset, (c :: cs).takeWhile isWord) :: later
      else later

/-- The longest runs of word characters of a text. -/
def wordRuns (text : List Char) : List (Nat × List Char) :=
  wordRunsFrom none 0 text

/-- In a text, a run of word characters stands between what is before it and what is after
it, and goes on to neither side. -/
structure RunAt (text before run after : List Char) : Prop where
  eq : text = before ++ (run ++ after)
  ne_nil : run ≠ []
  isWord : ∀ c ∈ run, isWord c = true
  opens : opensWord before.getLast? = true
  closes : closesWord after = true

theorem closesWord_iff {cs : List Char} :
    closesWord cs = true ↔ ∀ c ∈ cs.head?, isWord c = false := by
  cases cs <;> simp [closesWord]

/-- A run is what is read of the class. -/
theorem someOf_isWord_iff {cs run after : List Char} :
    someOf isWord cs = some (run, after) ↔
      cs = run ++ after ∧ run ≠ [] ∧ (∀ c ∈ run, isWord c = true) ∧ closesWord after = true := by
  rw [someOf_eq_some_iff, manyOf_eq_some_iff, closesWord_iff]
  exact and_left_comm

theorem someOf_isWord_cons {c : Char} (h : isWord c = true) (cs : List Char) :
    someOf isWord (c :: cs) = some ((c :: cs).takeWhile isWord, (c :: cs).dropWhile isWord) := by
  rw [someOf, if_pos h, manyOf]

theorem mem_wordRunsFrom_cons_iff {previous : Option Char} {offset start : Nat} {c : Char}
    {cs run : List Char} :
    (start, run) ∈ wordRunsFrom previous offset (c :: cs) ↔
      (opensWord previous = true ∧ isWord c = true ∧ start = offset ∧
          run = (c :: cs).takeWhile isWord) ∨
        (start, run) ∈ wordRunsFrom (some c) (offset + c.utf8Size) cs := by
  rw [wordRunsFrom]
  cases opensWord previous <;> cases isWord c <;> simp

/-- The runs that are found are those that go on to neither side. -/
theorem mem_wordRunsFrom_iff (behind : List Char) {cs run : List Char} {offset start : Nat} :
    (start, run) ∈ wordRunsFrom behind.getLast? offset cs ↔
      ∃ before after, RunAt (behind ++ cs) (behind ++ before) run after ∧
        start = offset + byteLength before := by
  induction cs generalizing behind offset with
  | nil =>
      refine ⟨fun h => absurd h List.not_mem_nil, fun h => ?_⟩
      obtain ⟨before, after, hrun, -⟩ := h
      have hne := hrun.ne_nil
      have heq := hrun.eq
      simp_all
  | cons c cs ih =>
      have hlater := @ih (behind ++ [c]) (offset + c.utf8Size)
      simp only [List.getLast?_concat, List.append_assoc, List.singleton_append] at hlater
      rw [mem_wordRunsFrom_cons_iff, hlater]
      refine ⟨fun h => ?_, fun h => ?_⟩
      · rcases h with ⟨hopens, hc, rfl, rfl⟩ | ⟨before, after, hrun, rfl⟩
        · obtain ⟨heq, hne, hword, hcloses⟩ := someOf_isWord_iff.mp (someOf_isWord_cons hc cs)
          refine ⟨[], (c :: cs).dropWhile isWord, ⟨?_, hne, hword, ?_, hcloses⟩, rfl⟩
          · rw [List.append_nil, ← heq]
          · rw [List.append_nil]
            exact hopens
        · exact ⟨c :: before, after, hrun, by rw [byteLength_cons, Nat.add_assoc]⟩
      · obtain ⟨before, after, hrun, rfl⟩ := h
        have heq : c :: cs = before ++ (run ++ after) :=
          List.append_cancel_left (hrun.eq.trans (List.append_assoc ..))
        cases before with
        | nil =>
            rw [List.nil_append] at heq
            have hread := someOf_isWord_iff.mpr ⟨heq, hrun.ne_nil, hrun.isWord, hrun.closes⟩
            have hc : isWord c = true := by
              obtain ⟨d, run, rfl⟩ := List.exists_cons_of_ne_nil hrun.ne_nil
              obtain rfl := (List.cons.inj heq).1
              exact hrun.isWord c List.mem_cons_self
            rw [someOf_isWord_cons hc, Option.some.injEq, Prod.mk.injEq] at hread
            refine .inl ⟨?_, hc, rfl, hread.1.symm⟩
            simpa using hrun.opens
        | cons b before =>
            obtain ⟨rfl, -⟩ := List.cons.inj heq
            exact .inr ⟨before, after, hrun, by rw [byteLength_cons, Nat.add_assoc]⟩

theorem mem_wordRuns_iff {text run : List Char} {start : Nat} :
    (start, run) ∈ wordRuns text ↔
      ∃ before after, RunAt text before run after ∧ start = byteLength before := by
  refine (mem_wordRunsFrom_iff []).trans ?_
  simp only [List.nil_append, Nat.zero_add]

theorem wordRunsFrom_pairwise (previous : Option Char) (offset : Nat) (cs : List Char) :
    (wordRunsFrom previous offset cs).Pairwise fun a b => a.1 < b.1 := by
  induction cs generalizing previous offset with
  | nil => exact .nil
  | cons c cs ih =>
      rw [wordRunsFrom]
      split
      · refine .cons (fun later hlater => ?_) (ih _ _)
        obtain ⟨before, after, -, hstart⟩ := (mem_wordRunsFrom_iff [c]).mp hlater
        have hc := c.utf8Size_pos
        show offset < later.1
        omega
      · exact ih _ _

/-! ### Searching for runs -/

/-- Recognise a run of word characters that passes a test. -/
def runWord (test : List Char → Bool) : Recogniser Found := fun previous cs =>
  if opensWord previous then naming nothing (passing test (someOf isWord)) nothing cs else none

theorem runWord_eq_some_iff {test : List Char → Bool} {previous : Option Char} {cs : List Char}
    {found : Found} :
    runWord test previous cs = some found ↔ opensWord previous = true ∧
      ∃ run after, cs = run ++ after ∧ run ≠ [] ∧ (∀ c ∈ run, isWord c = true) ∧
        closesWord after = true ∧ test run = true ∧ found = ⟨[], run, []⟩ := by
  rw [runWord]
  refine ⟨fun h => ?_, fun h => ?_⟩
  · split at h
    · rename_i hopens
      obtain ⟨lead, run, trail⟩ := found
      obtain ⟨cs₁, cs₂, cs₃, hlead, hrun, htrail⟩ := naming_eq_some h
      obtain ⟨rfl, rfl⟩ := nothing_eq_some_iff.mp hlead
      obtain ⟨rfl, rfl⟩ := nothing_eq_some_iff.mp htrail
      obtain ⟨hread, htest⟩ := passing_eq_some_iff.mp hrun
      obtain ⟨heq, hne, hword, hcloses⟩ := someOf_isWord_iff.mp hread
      exact ⟨hopens, run, _, heq, hne, hword, hcloses, htest, rfl⟩
    · simp at h
  · obtain ⟨hopens, run, after, heq, hne, hword, hcloses, htest, rfl⟩ := h
    have hread := someOf_isWord_iff.mpr ⟨heq, hne, hword, hcloses⟩
    rw [if_pos hopens]
    exact naming_of_readers rfl (passing_eq_some_iff.mpr ⟨hread, htest⟩) rfl

theorem runWord_cons (test : List Char → Bool) (previous : Option Char) (c : Char)
    (cs : List Char) :
    runWord test previous (c :: cs) =
      if opensWord previous && isWord c && test ((c :: cs).takeWhile isWord) then
        some ⟨[], (c :: cs).takeWhile isWord, []⟩
      else none := by
  cases hopens : opensWord previous with
  | false => simp [runWord, hopens]
  | true =>
      cases hc : isWord c with
      | false => simp [runWord, naming, nothing, passing, someOf, hc]
      | true =>
          simp only [runWord, naming, nothing, passing, hopens, someOf_isWord_cons hc,
            Option.filter_some]
          cases test ((c :: cs).takeWhile isWord) <;> rfl

/-- The search for runs finds those that pass the test. Behind a run that was found, the
search goes on at its end, and behind one that fails, at its second character, before
which no run can start. -/
theorem occurrencesFrom_runWord (test : List Char → Bool) {skip : Nat} {behind : List Char}
    (offset : Nat) {cs : List Char} (hskip : skip ≤ (cs.takeWhile isWord).length)
    (hinside : skip ≠ 0 → opensWord behind.head? = false) :
    (occurrencesFrom (runWord test) skip behind offset cs).map
        (fun o => (o.start, o.found.name)) =
      (wordRunsFrom behind.head? offset cs).filter fun run => test run.2 := by
  induction cs generalizing skip behind offset with
  | nil => rfl
  | cons c cs ih =>
      have hlater : ∀ {skip}, skip ≤ (cs.takeWhile isWord).length →
          (skip ≠ 0 → isWord c = true) →
          (occurrencesFrom (runWord test) skip (c :: behind) (offset + c.utf8Size) cs).map
              (fun o => (o.start, o.found.name)) =
            (wordRunsFrom (some c) (offset + c.utf8Size) cs).filter fun run => test run.2 := by
        intro skip hskip hc
        refine ih (offset + c.utf8Size) hskip fun hne => ?_
        rw [List.head?_cons, opensWord, hc hne, Bool.not_true]
      cases skip with
      | succ skip =>
          have hc : isWord c = true := by
            cases hc : isWord c with
            | true => rfl
            | false => simp [hc] at hskip
          rw [List.takeWhile_cons, if_pos hc, List.length_cons] at hskip
          rw [occurrencesFrom, wordRunsFrom, hinside (Nat.succ_ne_zero skip)]
          exact hlater (Nat.le_of_succ_le_succ hskip) fun _ => hc
      | zero =>
          rw [occurrencesFrom, wordRunsFrom, runWord_cons]
          cases hopens : opensWord behind.head? with
          | false => simpa using hlater (Nat.zero_le _) (fun h => absurd rfl h)
          | true =>
              cases hc : isWord c with
              | false => simpa using hlater (Nat.zero_le _) (fun h => absurd rfl h)
              | true =>
                  cases htest : test ((c :: cs).takeWhile isWord) with
                  | false => simpa [htest] using hlater (Nat.zero_le _) (fun h => absurd rfl h)
                  | true =>
                      have hlength : (Matched.text
                          (⟨[], (c :: cs).takeWhile isWord, []⟩ : Found)).length - 1 =
                            (cs.takeWhile isWord).length := by
                        simp [Matched.text, hc]
                      have hrest := hlater (Nat.le_refl _) fun _ => hc
                      simpa [htest, hlength, Occurrence.start] using hrest

theorem occurrences_runWord (test : List Char → Bool) (text : List Char) :
    (occurrences (runWord test) text).map (fun o => (o.start, o.found.name)) =
      (wordRuns text).filter fun run => test run.2 :=
  occurrencesFrom_runWord test 0 (Nat.zero_le _) (fun h => absurd rfl h)

/-! ### Names -/

/-- Only letters, digits and underscores of ASCII, and no digit in front. -/
def isNameRun (run : List Char) : Bool :=
  run.all isAsciiWord && !(run.head?.any Char.isDigit)

theorem isDigit_of_isNameStart {c : Char} (h : isNameStart c = true) : c.isDigit = false := by
  have hletter : (decide ('A'.val ≤ c.val ∧ c.val ≤ 'Z'.val) ||
      (decide ('a'.val ≤ c.val) && decide (c.val ≤ 'z'.val)) || c == '_') = true := h
  rw [Bool.eq_false_iff]
  intro hdigit
  have hdigit : (decide ('0'.val ≤ c.val) && decide (c.val ≤ '9'.val)) = true := hdigit
  simp only [Bool.or_eq_true, Bool.and_eq_true, decide_eq_true_eq, beq_iff_eq,
    UInt32.le_iff_toNat_le, Char.toNat_val, Char.reduceToNat] at hletter hdigit
  rcases hletter with hletter | rfl
  · omega
  · simp at hdigit

theorem isNameStart_eq (c : Char) : isNameStart c = (isAsciiWord c && !c.isDigit) := by
  cases hstart : isNameStart c with
  | true =>
      have hpart : isAsciiWord c = true := isNamePart_of_isNameStart hstart
      rw [hpart, isDigit_of_isNameStart hstart]
      rfl
  | false =>
      have hletter : (c.isAlpha || c == '_') = false := hstart
      rw [Bool.or_eq_false_iff] at hletter
      cases hdigit : c.isDigit with
      | true => simp
      | false => simp [isAsciiWord, Char.isAlphanum, hletter, hdigit]

theorem isIdentifier_eq_isNameRun {run : List Char} (h : run ≠ []) :
    isIdentifier run = isNameRun run := by
  obtain ⟨c, cs, rfl⟩ := List.exists_cons_of_ne_nil h
  have hall : cs.all isNamePart = cs.all isAsciiWord := rfl
  rw [isIdentifier, isNameRun, isNameStart_eq, hall, List.all_cons, List.head?_cons,
    Option.any_some, Bool.and_right_comm]

theorem identifierWord_eq_runWord : identifierWord = runWord isNameRun := by
  funext previous cs
  refine Option.ext fun found => ?_
  rw [identifierWord_eq_some_iff, runWord_eq_some_iff]
  refine and_congr_right fun _ => ⟨fun h => ?_, fun h => ?_⟩
  · obtain ⟨name, after, heq, hname, hcloses, rfl⟩ := h
    have hne : name ≠ [] := (isToken_of_isIdentifier hname).ne_nil
    refine ⟨name, after, heq, hne, fun c hc => ?_, hcloses, ?_, rfl⟩
    · exact isWord_of_isNamePart (forall_isNamePart_of_isIdentifier hname c hc)
    · rw [← isIdentifier_eq_isNameRun hne]
      exact hname
  · obtain ⟨run, after, heq, hne, -, hcloses, htest, rfl⟩ := h
    refine ⟨run, after, heq, ?_, hcloses, rfl⟩
    rw [isIdentifier_eq_isNameRun hne]
    exact htest

/-! ### Numbers -/

/-- Two or more characters, all of them decimal digits. -/
def isLongNumber (run : List Char) : Bool :=
  2 ≤ run.length && run.all isDecimalDigit

theorem exists_mem_of_foldl_dropWhile {α β : Type} {covers : β → α → Bool} {outer : List β}
    {inner : List α} (h : outer.foldl (fun rest w => rest.dropWhile (covers w)) inner = [])
    {a : α} (ha : a ∈ inner) : ∃ w ∈ outer, covers w a = true := by
  induction outer generalizing inner with
  | nil =>
      rw [List.foldl_nil] at h
      rw [h] at ha
      exact absurd ha List.not_mem_nil
  | cons w outer ih =>
      have hsplit : inner.takeWhile (covers w) ++ inner.dropWhile (covers w) = inner :=
        List.takeWhile_append_dropWhile
      rw [← hsplit, List.mem_append] at ha
      rcases ha with ha | ha
      · exact ⟨w, List.mem_cons_self, List.all_eq_true.mp List.all_takeWhile a ha⟩
      · obtain ⟨w', hw', hcovers⟩ := ih h ha
        exact ⟨w', List.mem_cons_of_mem w hw', hcovers⟩

/-- Every range of digits lies in a range of word characters. Both tables increase, so one
walk through them is enough. -/
theorem digitRanges_covered :
    Text.wordRanges.foldl (fun rest w => rest.dropWhile fun d => w.1 ≤ d.1 && d.2 ≤ w.2)
      Text.digitRanges = [] := by
  decide +kernel

theorem isWord_of_isDecimalDigit {c : Char} (h : isDecimalDigit c = true) : isWord c = true := by
  unfold isDecimalDigit at h
  split at h
  · rename_i hascii
    rw [Text.isWord_of_ascii hascii, isAsciiWord, Char.isAlphanum, h]
    simp
  · rename_i hbeyond
    obtain ⟨d, hd, hin⟩ := List.any_eq_true.mp h
    obtain ⟨w, hw, hcovers⟩ := exists_mem_of_foldl_dropWhile digitRanges_covered hd
    rw [isWord, if_neg hbeyond]
    refine List.any_eq_true.mpr ⟨w, hw, ?_⟩
    simp only [Bool.and_eq_true, decide_eq_true_eq] at hin hcovers ⊢
    omega

theorem isLongNumber_iff {run : List Char} :
    isLongNumber run = true ↔ 2 ≤ run.length ∧ ∀ c ∈ run, isDecimalDigit c = true := by
  rw [isLongNumber, Bool.and_eq_true, decide_eq_true_eq, List.all_eq_true]

/-- Digits are read as far as they go, and if the word ends there, they are a run. -/
theorem digitWord_eq_runWord : Check.digitWord = runWord isLongNumber := by
  funext previous cs
  refine Option.ext fun found => ?_
  rw [runWord_eq_some_iff, Check.digitWord]
  refine ⟨fun h => ?_, fun h => ?_⟩
  · split at h
    · rename_i hopens
      obtain ⟨lead, run, trail⟩ := found
      obtain ⟨cs₁, after, cs₃, hlead, hrun, htrail⟩ := naming_eq_some h
      obtain ⟨rfl, rfl⟩ := nothing_eq_some_iff.mp hlead
      obtain ⟨hcloses, rfl, -⟩ := wordEnd_eq_some_iff.mp htrail
      obtain ⟨hread, hlength⟩ := passing_eq_some_iff.mp hrun
      obtain ⟨hne, hread⟩ := someOf_eq_some_iff.mp hread
      obtain ⟨heq, hdigits, -⟩ := manyOf_eq_some_iff.mp hread
      refine ⟨hopens, run, after, heq, hne, fun c hc => ?_, hcloses, ?_, rfl⟩
      · exact isWord_of_isDecimalDigit (hdigits c hc)
      · exact isLongNumber_iff.mpr ⟨of_decide_eq_true hlength, hdigits⟩
    · simp at h
  · obtain ⟨hopens, run, after, heq, hne, -, hcloses, htest, rfl⟩ := h
    obtain ⟨hlength, hdigits⟩ := isLongNumber_iff.mp htest
    -- The character behind the run is no word character, so it is no digit either.
    have hstop : ∀ c ∈ after.head?, isDecimalDigit c = false := by
      intro c hc
      rw [Bool.eq_false_iff]
      intro hdigit
      have hword := isWord_of_isDecimalDigit hdigit
      rw [closesWord_iff.mp hcloses c hc] at hword
      exact absurd hword Bool.false_ne_true
    have hread := someOf_eq_some_iff.mpr ⟨hne, manyOf_eq_some_iff.mpr ⟨heq, hdigits, hstop⟩⟩
    rw [if_pos hopens]
    exact naming_of_readers rfl (passing_eq_some_iff.mpr ⟨hread, decide_eq_true hlength⟩)
      (wordEnd_eq_some_iff.mpr ⟨hcloses, rfl, rfl⟩)

end Scan

/-! ### The two checks -/

namespace Check

open Scan

/-- Report the runs of the lines that pass a test, in the order of the text. -/
def reportRuns (doc : Document) (test : List Char → Bool) (finding : String → Finding) :
    List Diagnostic :=
  doc.numbered.flatMap fun line =>
    ((wordRuns line.1.bare).filter fun run => test run.2).map fun run =>
      (finding (String.ofList run.2)).report (doc.span line.2 run.1 (run.1 + byteLength run.2))

/-- A check that reports what it keeps of the matches of the search for runs reports runs. -/
theorem flatMap_occurrences_runWord (doc : Document) (test keep : List Char → Bool)
    (finding : String → Finding) :
    (doc.numbered.flatMap fun line =>
      ((occurrences (runWord test) line.1.bare).filter fun o => keep o.found.name).map fun o =>
        (finding o.name).report (doc.span line.2 o.start o.stop)) =
      reportRuns doc (fun run => test run && keep run) finding := by
  refine List.flatMap_congr fun line _ => ?_
  have hruns : ((occurrences (runWord test) line.1.bare).filter fun o => keep o.found.name).map
      (fun o => (o.start, o.found.name)) =
        (wordRuns line.1.bare).filter fun run => test run.2 && keep run.2 := by
    rw [← List.filter_filter, List.filter_comm, ← occurrences_runWord, List.filter_map]
    rfl
  rw [← hruns, List.map_map]
  rfl

theorem undefinedVariables_eq_reportRuns (dialect : Dialect) (doc : Document) :
    undefinedVariables dialect doc =
      reportRuns doc
        (fun run => isNameRun run && !isDefined dialect doc.symbols (String.ofList run))
        .undefinedVariable := by
  rw [← flatMap_occurrences_runWord, ← identifierWord_eq_runWord]
  refine List.flatMap_congr fun line _ => ?_
  exact filterMap_unless _ _ _

theorem magicNumbers_eq_reportRuns (doc : Document) :
    magicNumbers doc = reportRuns doc isLongNumber .magicNumber := by
  have hruns := flatMap_occurrences_runWord doc isLongNumber (fun _ => true) .magicNumber
  simp only [Bool.and_true, List.filter_true] at hruns
  rw [← hruns, ← digitWord_eq_runWord]
  rfl

end Check

open Scan Check

/-- Each line has its longest runs of word characters. The names that are looked at are the
runs of ASCII letters, digits and underscores without a digit in front, and of these the ones
that nothing defines are reported. The numbers that are reported are the runs of two or more
decimal digits. -/
theorem runs_reported (text : String) (dialect : Dialect) :
    let doc := Document.ofText text.toList
    (∀ line ∈ doc.lines,
      (∀ start run, (start, run) ∈ wordRuns line.bare ↔
        ∃ before after, RunAt line.bare before run after ∧ start = byteLength before) ∧
      (wordRuns line.bare).Pairwise (fun a b => a.1 < b.1) ∧
      (occurrences identifierWord line.bare).map (fun o => (o.start, o.found.name)) =
        (wordRuns line.bare).filter fun run => isNameRun run.2) ∧
    undefinedVariables dialect doc =
      reportRuns doc
        (fun run => isNameRun run && !(Vocabulary.isKnown dialect (String.ofList run) ||
          Vocabulary.isHeaderWord (String.ofList run) ||
          doc.symbols.declares (String.ofList run)))
        .undefinedVariable ∧
    magicNumbers doc = reportRuns doc isLongNumber .magicNumber := by
  intro doc
  refine ⟨fun line _ => ⟨fun start run => mem_wordRuns_iff, ?_, ?_⟩, ?_, ?_⟩
  · exact wordRunsFrom_pairwise none 0 line.bare
  · rw [identifierWord_eq_runWord, occurrences_runWord]
  · exact undefinedVariables_eq_reportRuns dialect doc
  · exact magicNumbers_eq_reportRuns doc

/-- Of four runs one is a name and one a number. A letter beyond ASCII keeps the digit behind
it from being looked at, and a letter behind digits keeps them from being a number. -/
theorem runs_reported_mixed :
    let doc := Document.ofText "ab é12 34c 56".toList
    let line : Line := ⟨"ab é12 34c 56".toList, "ab é12 34c 56".toList, "ab é12 34c 56".toList⟩
    line ∈ doc.lines ∧
      wordRuns line.bare =
        [(0, "ab".toList), (3, "é12".toList), (8, "34c".toList), (12, "56".toList)] ∧
      (occurrences identifierWord line.bare).map (fun o => (o.start, o.found.name)) =
        [(0, "ab".toList)] ∧
      magicNumbers doc = [(Finding.magicNumber "56").report (doc.span 0 12 14)] := by
  intro doc line
  have hline : line ∈ doc.lines := by decide +kernel
  obtain ⟨hlines, -, hnumbers⟩ := runs_reported "ab é12 34c 56" .mql5
  refine ⟨hline, by decide +kernel, (hlines line hline).2.2.trans ?_, hnumbers.trans ?_⟩
  all_goals decide +kernel

end TradeScript
