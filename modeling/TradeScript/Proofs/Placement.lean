import TradeScript.Proofs.Scan
import TradeScript.Proofs.Wording
import TradeScript.Report

/-!
# TradeScript.Proofs.Placement

Every diagnostic is where it should be. Two things are meant: its range lies
inside the document, and if its message names a token, the range reads exactly
that token on the line as written. The second needs a document whose lines and
columns are numbers of 32 bits.

Both are one property of a finding and a range (`Finding.Placed`). Each check is
shown to report placed findings only, and a report holds nothing but what the
checks found. The checks fall into three groups by how they come to a range: from
whole lines, from names that a recogniser found, and from single brackets.
-/

namespace TradeScript

open Scan (Found Occurrence Recogniser occurrences)
open Text (byteLength byteLength_append byteLength_cons)

namespace BracketMark

/-- The character of a bracket. -/
def char : BracketMark → Char
  | opening kind => kind.opener
  | closing kind => kind.closer

theorem char_of_ofChar? {c : Char} {m : BracketMark} (h : ofChar? c = some m) : m.char = c := by
  unfold ofChar? at h
  split at h <;> cases h <;> rfl

theorem utf8Size_char (m : BracketMark) : m.char.utf8Size = 1 := by
  cases m with
  | opening kind => cases kind <;> rfl
  | closing kind => cases kind <;> rfl

theorem isToken_char (m : BracketMark) : IsToken [m.char] := by
  refine ⟨List.cons_ne_nil _ _, ?_, ?_⟩
  · cases m with
    | opening kind => cases kind <;> decide
    | closing kind => cases kind <;> decide
  · cases m with
    | opening kind => cases kind <;> decide
    | closing kind => cases kind <;> decide

end BracketMark

/-- The open bracket stands in the document where it says. -/
def OpenBracket.At (doc : Document) (b : OpenBracket) : Prop :=
  ∃ line, (line, b.line) ∈ doc.numbered ∧ (b.column, b.kind.opener) ∈ Text.withOffsets 0 line.bare

/-- The finding may be reported at the range: the range lies inside the document
and reads the token of the finding. -/
structure Finding.Placed (doc : Document) (f : Finding) (r : Range) : Prop where
  contains : doc.Contains r
  reads : doc.Fits → ∀ token, f.token? = some token → doc.textAt? r = some token

/-- The diagnostic reports a finding at a range where it may be reported. -/
def Diagnostic.Placed (doc : Document) (d : Diagnostic) : Prop :=
  ∃ f r, d = Finding.report f r ∧ f.Placed doc r

namespace Diagnostic

variable {doc : Document}

/-! ### Placing a finding -/

/-- A finding about no token may be reported anywhere inside the document. -/
theorem placed_of_contains {f : Finding} {r : Range} (hf : f.token? = none)
    (hr : doc.Contains r) : (f.report r).Placed doc :=
  ⟨f, r, rfl, hr, fun _ token h => by rw [hf] at h; exact absurd h (by simp)⟩

theorem Placed.textAt?_eq (fits : doc.Fits) {f : Finding} {r : Range}
    (h : (f.report r).Placed doc) {token : List Char} (hf : f.token? = some token) :
    doc.textAt? r = some token := by
  obtain ⟨g, s, hg, hplaced⟩ := h
  obtain rfl : r = s := congrArg Diagnostic.range hg
  exact hplaced.reads fits token (Finding.token?_eq_of_report_eq hg ▸ hf)

/-- A finding about a token of a bare line is reported at the token's offsets. -/
theorem placed_span {line : Line} {number : Nat} (hline : (line, number) ∈ doc.numbered)
    {before token after : List Char}
    (hbare : line.bare = before ++ token ++ after) (ht : IsToken token) {f : Finding}
    (hf : f.token? = some token) {first last : Nat} (hfirst : first = byteLength before)
    (hlast : last = byteLength before + byteLength token) :
    (f.report (doc.span number first last)).Placed doc := by
  subst hfirst hlast
  refine ⟨f, _, rfl, ?_, ?_⟩
  · exact Document.contains_span (Document.lt_lineCount_of_mem hline) (Nat.le_add_right _ _)
  · intro fits token' htoken'
    obtain rfl : token = token' := Option.some.inj (hf.symm.trans htoken')
    exact fits.textAt?_span (Document.mem_numbered.mp hline) hbare ht

/-- A finding about a name that was recognised on a bare line. -/
theorem placed_name {line : Line} {number : Nat} (hline : (line, number) ∈ doc.numbered)
    {r : Recogniser Found}
    (hr : Recogniser.Faithful r) (hn : Recogniser.NamesToken r) {o : Occurrence Found}
    (ho : o ∈ occurrences r line.bare) {f : Finding} (hf : f.token? = some o.found.name) :
    (f.report (doc.span number o.start o.stop)).Placed doc := by
  obtain ⟨before, after, hbare, hstart, hstop⟩ := Scan.exists_name_of_mem_occurrences hr ho
  exact placed_span hline hbare (Scan.isToken_name_of_mem_occurrences hn ho) hf hstart hstop

/-- A finding about a name that was recognised in the bare text. -/
theorem placed_nameAt (wf : doc.WellFormed) {r : Recogniser Found} (hr : Recogniser.Faithful r)
    (hn : Recogniser.NamesToken r) {o : Occurrence Found} (ho : o ∈ occurrences r doc.bareText)
    {f : Finding} (hf : f.token? = some o.found.name) :
    (f.report (doc.spanAt o.start o.stop)).Placed doc := by
  obtain ⟨before, after, hbare, hstart, hstop⟩ := Scan.exists_name_of_mem_occurrences hr ho
  refine ⟨f, _, rfl, wf.contains_spanAt _ _, ?_⟩
  intro fits token htoken
  obtain rfl : o.found.name = token := Option.some.inj (hf.symm.trans htoken)
  rw [hstart, hstop]
  exact fits.textAt?_spanAt hbare (Scan.isToken_name_of_mem_occurrences hn ho)

end Diagnostic

namespace Check

open Scan

variable {doc : Document} {line : Line} {number : Nat}

/-! ### Checks of whole lines -/

theorem semicolon_placed (h : (line, number) ∈ doc.numbered) :
    ∀ d ∈ semicolon doc line number, d.Placed doc := by
  intro d hd
  unfold semicolon at hd
  split at hd
  · simp at hd
  · rw [List.mem_singleton] at hd
    subst hd
    exact Diagnostic.placed_of_contains rfl
      (Document.contains_endPoint (Document.lt_lineCount_of_mem h))

theorem exists_mem_of_nextStatement {lines : List (Line × Nat)}
    (h : nextStatement lines = some number) : ∃ line, (line, number) ∈ lines := by
  fun_induction nextStatement lines with
  | case1 => simp at h
  | case2 => simp at h
  | case3 line first rest _ _ _ ih =>
      obtain ⟨line, hline⟩ := ih h
      exact ⟨line, List.mem_cons_of_mem _ hline⟩
  | case4 line first rest =>
      obtain rfl : first = number := Option.some.inj h
      exact ⟨line, List.mem_cons_self⟩

/-- A line that is never reached comes behind the first. -/
theorem exists_mem_tail_of_unreachableLines {head : Line × Nat} {rest : List (Line × Nat)}
    (h : number ∈ unreachableLines (head :: rest)) : ∃ line, (line, number) ∈ rest := by
  induction rest generalizing head with
  | nil => simp [unreachableLines, nextStatement] at h
  | cons next rest ih =>
      rw [unreachableLines, List.mem_append] at h
      rcases h with h | h
      · split at h
        · exact exists_mem_of_nextStatement (Option.mem_toList.mp h)
        · simp at h
      · obtain ⟨line, hline⟩ := ih h
        exact ⟨line, List.mem_cons_of_mem _ hline⟩

theorem exists_mem_of_unreachableLines {lines : List (Line × Nat)}
    (h : number ∈ unreachableLines lines) : ∃ line, (line, number) ∈ lines := by
  cases lines with
  | nil => simp [unreachableLines] at h
  | cons head rest =>
      obtain ⟨line, hline⟩ := exists_mem_tail_of_unreachableLines h
      exact ⟨line, List.mem_cons_of_mem _ hline⟩

theorem unreachable_placed : ∀ d ∈ unreachable doc, d.Placed doc := by
  intro d hd
  obtain ⟨number, hnumber, rfl⟩ := List.mem_map.mp hd
  obtain ⟨line, hline⟩ := exists_mem_of_unreachableLines hnumber
  exact Diagnostic.placed_of_contains rfl
    (Document.contains_fullLine (Document.lt_lineCount_of_mem hline))

/-- A function that has ended started on one of the lines, or before them. -/
theorem exists_mem_of_functionsFrom {start : Option Nat} {depth : Int} {lines : List (Line × Nat)}
    {f : Nat × Nat} (h : f ∈ functionsFrom start depth lines) :
    start = some f.1 ∨ ∃ line, (line, f.1) ∈ lines := by
  induction lines generalizing start depth with
  | nil => simp [functionsFrom] at h
  | cons head rest ih =>
      obtain ⟨line, number⟩ := head
      have later : (∃ line', (line', f.1) ∈ rest) →
          start = some f.1 ∨ ∃ line', (line', f.1) ∈ (line, number) :: rest := by
        rintro ⟨line', hline'⟩
        exact Or.inr ⟨line', List.mem_cons_of_mem _ hline'⟩
      -- The function that goes on behind this line started here or was open before.
      have here : (if startsFunction line.bare then some number else start) = some f.1 →
          start = some f.1 ∨ ∃ line', (line', f.1) ∈ (line, number) :: rest := by
        intro hstart
        split at hstart
        · exact Or.inr ⟨line, Option.some.inj hstart ▸ List.mem_cons_self⟩
        · exact Or.inl hstart
      simp only [functionsFrom] at h
      generalize (if startsFunction line.bare then 0 else depth) + braceBalance line.bare =
        depth' at h
      split at h
      · rcases ih h with h | h
        · exact absurd h (by simp)
        · exact later h
      · rename_i first hfirst
        split at h
        · rcases List.mem_cons.mp h with rfl | h
          · exact here hfirst
          · rcases ih h with h | h
            · exact absurd h (by simp)
            · exact later h
        · rcases ih h with h | h
          · exact here (hfirst.trans h)
          · exact later h

theorem longFunctions_placed : ∀ d ∈ longFunctions doc, d.Placed doc := by
  intro d hd
  obtain ⟨f, hf, rfl⟩ := List.mem_map.mp hd
  rcases exists_mem_of_functionsFrom (List.mem_filter.mp hf).1 with h | ⟨line, hline⟩
  · exact absurd h (by simp)
  · exact Diagnostic.placed_of_contains rfl
      (Document.contains_fullLine (Document.lt_lineCount_of_mem hline))

/-! ### Checks of pieces of a line that name no token -/

theorem functionName_placed (h : (line, number) ∈ doc.numbered) :
    ∀ d ∈ functionName doc line number, d.Placed doc := by
  intro d hd
  unfold functionName at hd
  split at hd
  · simp at hd
  · split at hd
    · simp at hd
    · rw [List.mem_singleton] at hd
      subst hd
      exact Diagnostic.placed_of_contains rfl
        (Document.contains_span (Document.lt_lineCount_of_mem h) (Nat.le_add_right _ _))

/-- A literal of the wrong type names a variable, but is reported at the literal. -/
theorem finding_of_mem_mismatches {m : Mismatch} (hm : m ∈ mismatches) {i : Initialisation}
    {f : Finding} (hf : m.finding i = some f) : f.token? = none ∧ f.code = .typeMismatch := by
  simp only [mismatches, List.mem_cons, List.not_mem_nil, or_false] at hm
  rcases hm with rfl | rfl | rfl | rfl
  · exact Option.some.inj hf ▸ ⟨rfl, rfl⟩
  · exact Option.some.inj hf ▸ ⟨rfl, rfl⟩
  · exact Option.some.inj hf ▸ ⟨rfl, rfl⟩
  · simp only [colorMismatch] at hf
    split at hf
    · simp at hf
    · exact Option.some.inj hf ▸ ⟨rfl, rfl⟩

theorem exists_of_mem_typeMismatches {d : Diagnostic} (h : d ∈ typeMismatches doc) :
    ∃ f : Finding, f.token? = none ∧ f.code = .typeMismatch ∧ ∃ line number first last,
      (line, number) ∈ doc.numbered ∧ first ≤ last ∧ d = f.report (doc.span number first last) := by
  obtain ⟨⟨line, number⟩, hline, hd⟩ := List.mem_flatMap.mp h
  obtain ⟨m, hm, hd⟩ := List.mem_filterMap.mp hd
  simp only [mismatchOfLine, Option.bind_eq_bind, Option.bind_eq_some_iff, Option.some.injEq] at hd
  obtain ⟨o, -, f, hf, rfl⟩ := hd
  obtain ⟨htoken, hcode⟩ := finding_of_mem_mismatches hm hf
  exact ⟨f, htoken, hcode, line, number, _, _, hline, Nat.le_add_right _ _, rfl⟩

theorem typeMismatches_placed : ∀ d ∈ typeMismatches doc, d.Placed doc := by
  intro d hd
  obtain ⟨f, htoken, -, line, number, _, _, hline, hle, rfl⟩ := exists_of_mem_typeMismatches hd
  exact Diagnostic.placed_of_contains htoken
    (Document.contains_span (Document.lt_lineCount_of_mem hline) hle)

/-! ### Checks of names -/

theorem identifierWord_faithful : Recogniser.Faithful identifierWord :=
  wordNaming_faithful nothing_faithful wordEnd_faithful

theorem call_faithful : Recogniser.Faithful call :=
  wordNaming_faithful nothing_faithful openParen_faithful

theorem undefinedVariables_placed (dialect : Dialect) :
    ∀ d ∈ undefinedVariables dialect doc, d.Placed doc := by
  intro d hd
  obtain ⟨⟨line, number⟩, hline, hd⟩ := List.mem_flatMap.mp hd
  obtain ⟨o, ho, hd⟩ := List.mem_filterMap.mp hd
  split at hd
  · simp at hd
  · rw [← Option.some.inj hd]
    exact Diagnostic.placed_name hline identifierWord_faithful (wordNaming_namesToken _ _) ho
      (by simp [Finding.token?])

theorem undefinedFunctions_placed [PatternEngine] (wf : doc.WellFormed) (dialect : Dialect) :
    ∀ d ∈ undefinedFunctions dialect doc, d.Placed doc := by
  intro d hd
  obtain ⟨o, ho, hd⟩ := List.mem_filterMap.mp hd
  split at hd
  · simp at hd
  · rw [← Option.some.inj hd]
    exact Diagnostic.placed_nameAt wf call_faithful (wordNaming_namesToken _ _)
      (List.mem_filter.mp ho).1 (by simp [Finding.token?])

theorem faithful_of_mem_usablePatterns {r : Recogniser Found} (h : r ∈ usablePatterns) :
    Recogniser.Faithful r ∧ Recogniser.NamesToken r := by
  simp only [usablePatterns, List.mem_cons, List.not_mem_nil, or_false] at h
  rcases h with rfl | rfl | rfl <;>
    exact ⟨wordNaming_faithful (by simp) nothing_faithful, wordNaming_namesToken _ _⟩

theorem unusedVariables_placed (wf : doc.WellFormed) : ∀ d ∈ unusedVariables doc, d.Placed doc := by
  intro d hd
  obtain ⟨e, he, rfl⟩ := List.mem_map.mp hd
  rcases Table.mem_entries_insertAll (List.mem_filter.mp he).1 with h | h
  · exact absurd h List.not_mem_nil
  · obtain ⟨o, ho, rfl⟩ := List.mem_map.mp h
    obtain ⟨r, hr, ho⟩ := List.mem_flatMap.mp (List.mem_filter.mp ho).1
    obtain ⟨hfaithful, htoken⟩ := faithful_of_mem_usablePatterns hr
    exact Diagnostic.placed_nameAt wf hfaithful htoken ho (by simp [Finding.token?])

theorem enumType_faithful : enumType.Faithful := by
  simp [enumType]

theorem faithful_of_mem_namePatterns {r : Recogniser Found} (h : r ∈ namePatterns) :
    Recogniser.Faithful r ∧ Recogniser.NamesToken r := by
  simp only [namePatterns, List.mem_cons, List.not_mem_nil, or_false] at h
  rcases h with rfl | rfl | rfl | rfl <;>
    exact ⟨wordNaming_faithful (by simp [enumType_faithful]) wordEnd_faithful,
      wordNaming_namesToken _ _⟩

theorem mem_of_mem_eraseDupsBy {α : Type} {r : α → α → Bool} {a : α} :
    ∀ {l : List α}, a ∈ l.eraseDupsBy r → a ∈ l
  | [], h => h
  | b :: l, h => by
      rw [List.eraseDupsBy_cons] at h
      rcases List.mem_cons.mp h with rfl | h
      · exact List.mem_cons_self
      · exact List.mem_cons_of_mem _ (List.mem_filter.mp (mem_of_mem_eraseDupsBy h)).1
termination_by l => l.length
decreasing_by exact Nat.lt_succ_of_le (List.length_filter_le _ _)

theorem reservedWords_placed (h : (line, number) ∈ doc.numbered) :
    ∀ d ∈ reservedWords doc line number, d.Placed doc := by
  intro d hd
  obtain ⟨o, ho, rfl⟩ := List.mem_map.mp hd
  obtain ⟨r, hr, ho⟩ := List.mem_flatMap.mp (List.mem_filter.mp (mem_of_mem_eraseDupsBy ho)).1
  obtain ⟨hfaithful, htoken⟩ := faithful_of_mem_namePatterns hr
  exact Diagnostic.placed_name h hfaithful htoken ho (by simp [Finding.token?])

theorem naming_placed (h : (line, number) ∈ doc.numbered) :
    ∀ d ∈ naming doc line number, d.Placed doc := by
  intro d hd
  unfold naming at hd
  split at hd
  · simp at hd
  · rcases List.mem_append.mp hd with hd | hd
    · exact functionName_placed h d hd
    · exact reservedWords_placed h d hd

/-! ### Magic numbers and directives -/

theorem digitWord_eq_some {previous : Option Char} {cs : List Char} {found : Found}
    (h : digitWord previous cs = some found) :
    Scan.naming nothing (passing (fun word => 2 ≤ word.length) (someOf Text.isDecimalDigit))
      wordEnd cs = some found := by
  unfold digitWord at h
  split at h
  · exact h
  · simp at h

theorem digits_takesToken (test : List Char → Bool) :
    (passing test (someOf Text.isDecimalDigit)).TakesToken :=
  passing_takesToken (someOf_takesToken (by decide) (by decide))

theorem digitWord_faithful : Recogniser.Faithful digitWord := by
  intro previous cs found h
  exact naming_prefix nothing_faithful (by simp) wordEnd_faithful (digitWord_eq_some h)

theorem digitWord_namesToken : Recogniser.NamesToken digitWord := by
  intro previous cs found h
  exact naming_isToken (digits_takesToken _) (digitWord_eq_some h)

theorem magicNumbers_placed : ∀ d ∈ magicNumbers doc, d.Placed doc := by
  intro d hd
  obtain ⟨⟨line, number⟩, hline, hd⟩ := List.mem_flatMap.mp hd
  obtain ⟨o, ho, rfl⟩ := List.mem_map.mp hd
  exact Diagnostic.placed_name hline digitWord_faithful digitWord_namesToken ho
    (by simp [Finding.token?])

theorem directiveName_faithful : Recogniser.Faithful directiveName := by
  intro previous cs found h
  exact naming_prefix (exactly_faithful _) identifier_faithful nothing_faithful h

theorem propertyKey_faithful : Recogniser.Faithful propertyKey := by
  intro previous cs found h
  exact naming_prefix (by simp) identifier_faithful nothing_faithful h

theorem directiveName_namesToken : Recogniser.NamesToken directiveName := by
  intro previous cs found h
  exact naming_isToken identifier_takesToken h

theorem propertyKey_namesToken : Recogniser.NamesToken propertyKey := by
  intro previous cs found h
  exact naming_isToken identifier_takesToken h

theorem lead_of_directiveName {previous : Option Char} {cs : List Char} {found : Found}
    (h : directiveName previous cs = some found) : found.lead = ['#'] := by
  obtain ⟨_, _, _, hlead, -, -⟩ := naming_eq_some h
  simp only [exactly, Option.map_eq_some_iff, Prod.mk.injEq] at hlead
  obtain ⟨_, -, hlead, -⟩ := hlead
  exact hlead.symm

theorem lead_of_mem_directives {cs : List Char} {o : Occurrence Found}
    (h : o ∈ occurrences directiveName cs) : o.found.lead = ['#'] := by
  obtain ⟨_, _, -, -, -, hfound⟩ := isMatch_of_mem_occurrencesFrom h
  exact lead_of_directiveName hfound

theorem invalidPreprocessor_placed (h : (line, number) ∈ doc.numbered)
    {o : Occurrence Found} (ho : o ∈ occurrences directiveName line.bare) :
    ((Finding.invalidPreprocessor o.name).report (doc.span number o.offset o.stop)).Placed doc := by
  obtain ⟨before, after, hbare, hoffset⟩ :=
    exists_append_of_mem_occurrences directiveName_faithful ho
  have hname := isToken_name_of_mem_occurrences directiveName_namesToken ho
  have hlead := lead_of_mem_directives ho
  have htoken : IsToken ('#' :: o.found.name) := by
    refine ⟨List.cons_ne_nil _ _, ?_, ?_⟩
    · simpa using hname.no_space
    · simpa using hname.no_newline
  have hsplit : line.bare = before ++ ('#' :: o.found.name) ++ (o.found.trail ++ after) := by
    rw [hbare]
    simp only [Matched.text, hlead, List.append_assoc, List.cons_append, List.nil_append]
  have hstop : o.stop = byteLength before + byteLength ('#' :: o.found.name) := by
    rw [Occurrence.stop, Occurrence.start, hoffset, hlead, Nat.add_assoc, ← byteLength_append]
    rfl
  exact Diagnostic.placed_span h hsplit htoken (by simp [Finding.token?]) hoffset hstop

/-- The key is looked for from the directive on, so its offsets count from there. -/
theorem propertyKeyFrom_placed (h : (line, number) ∈ doc.numbered)
    {o : Occurrence Found} (ho : o ∈ occurrences directiveName line.bare) :
    ∀ d ∈ propertyKeyFrom doc line number o, d.Placed doc := by
  intro d hd
  unfold propertyKeyFrom at hd
  split at hd
  · simp at hd
  · rename_i key hkey
    split at hd
    · simp at hd
    · rw [List.mem_singleton] at hd
      subst hd
      obtain ⟨before, after, hbare, hoffset⟩ :=
        exists_append_of_mem_occurrences directiveName_faithful ho
      rw [hbare, hoffset, List.append_assoc, Text.dropBytes_append] at hkey
      have hmem := List.mem_of_head? hkey
      obtain ⟨keyBefore, keyAfter, hrest, hstart, hstop⟩ :=
        exists_name_of_mem_occurrences propertyKey_faithful hmem
      have hsplit : line.bare = (before ++ keyBefore) ++ key.found.name ++ keyAfter := by
        rw [hbare, List.append_assoc, hrest]
        simp only [List.append_assoc]
      have htoken := isToken_name_of_mem_occurrences propertyKey_namesToken hmem
      refine Diagnostic.placed_span h hsplit htoken (by simp [Finding.token?]) ?_ ?_
      · rw [hoffset, hstart, byteLength_append]
      · rw [hoffset, hstop, byteLength_append, Nat.add_assoc]

theorem directives_placed (h : (line, number) ∈ doc.numbered) :
    ∀ d ∈ directives doc line number, d.Placed doc := by
  intro d hd
  obtain ⟨o, ho, hd⟩ := List.mem_flatMap.mp hd
  split at hd
  · rw [List.mem_singleton] at hd
    exact hd ▸ invalidPreprocessor_placed h ho
  · split at hd
    · exact propertyKeyFrom_placed h ho d hd
    · simp at hd

/-! ### Checks of brackets -/

/-- A bracket has one byte, so the range of one byte at its column reads it. -/
theorem bracket_placed (h : (line, number) ∈ doc.numbered) {column : Nat}
    {m : BracketMark} (hm : (column, m.char) ∈ Text.withOffsets 0 line.bare) {f : Finding}
    (hf : f.token? = some [m.char]) :
    (f.report (doc.span number column (column + 1))).Placed doc := by
  obtain ⟨before, after, hbare, hcolumn⟩ := Text.exists_append_of_mem_withOffsets hm
  rw [Nat.zero_add] at hcolumn
  have hsplit : line.bare = before ++ [m.char] ++ after := by
    rw [hbare, List.append_assoc, List.singleton_append]
  have hlast : column + 1 = byteLength before + byteLength [m.char] := by
    rw [hcolumn, byteLength_cons, m.utf8Size_char, Text.byteLength_nil]
  exact Diagnostic.placed_span h hsplit m.isToken_char hf hcolumn hlast

/-- What matching finds is about a bracket of the line, at its column. -/
theorem exists_bracket_of_matchBrackets {pending : List OpenBracket} {chars : List (Nat × Char)}
    {column : Nat} {f : Finding} (h : (column, f) ∈ (matchBrackets number pending chars).1) :
    ∃ m : BracketMark, (column, m.char) ∈ chars ∧ f.token? = some [m.char] := by
  have later : ∀ {head : Nat × Char} {rest : List (Nat × Char)},
      (∃ m : BracketMark, (column, m.char) ∈ rest ∧ f.token? = some [m.char]) →
      ∃ m : BracketMark, (column, m.char) ∈ head :: rest ∧ f.token? = some [m.char] := by
    rintro head rest ⟨m, hm, hf⟩
    exact ⟨m, List.mem_cons_of_mem _ hm, hf⟩
  fun_induction matchBrackets number pending chars with
  | case1 => simp at h
  | case2 _ _ _ _ _ ih => exact later (ih h)
  | case3 _ _ _ _ _ _ ih => exact later (ih h)
  -- A closing bracket is reported if nothing is open, or if another kind is.
  | case4 col c rest kind hc r ih =>
      rcases List.mem_cons.mp h with h | h
      · obtain ⟨rfl, rfl⟩ := Prod.mk.inj h
        obtain rfl := BracketMark.char_of_ofChar? hc
        exact ⟨_, List.mem_cons_self, rfl⟩
      · exact later (ih h)
  | case5 _ _ _ _ _ _ ih => exact later (ih h)
  | case6 col c rest kind hc top below _ r ih =>
      rcases List.mem_cons.mp h with h | h
      · obtain ⟨rfl, rfl⟩ := Prod.mk.inj h
        obtain rfl := BracketMark.char_of_ofChar? hc
        exact ⟨_, List.mem_cons_self, rfl⟩
      · exact later (ih h)

/-- A bracket that is open after the line was open before, or stands on the line. -/
theorem mem_or_of_mem_matchBrackets {pending : List OpenBracket} {chars : List (Nat × Char)}
    {b : OpenBracket} (h : b ∈ (matchBrackets number pending chars).2) :
    b ∈ pending ∨ b.line = number ∧ (b.column, b.kind.opener) ∈ chars := by
  have later : ∀ {head : Nat × Char} {rest : List (Nat × Char)},
      b.line = number ∧ (b.column, b.kind.opener) ∈ rest →
      b.line = number ∧ (b.column, b.kind.opener) ∈ head :: rest := by
    rintro head rest ⟨hline, hmem⟩
    exact ⟨hline, List.mem_cons_of_mem _ hmem⟩
  fun_induction matchBrackets number pending chars with
  | case1 => exact Or.inl h
  | case2 _ _ _ _ _ ih => exact (ih h).imp_right later
  | case3 pending column c rest kind hc ih =>
      -- The bracket just opened, or one of those open before, or a later one.
      rcases ih h with h | h
      · rcases List.mem_cons.mp h with rfl | h
        · have hopener : kind.opener = c := BracketMark.char_of_ofChar? hc
          exact Or.inr ⟨rfl, hopener ▸ List.mem_cons_self⟩
        · exact Or.inl h
      · exact Or.inr (later h)
  | case4 _ _ _ _ _ _ ih => exact (ih h).imp_right later
  | case5 _ _ _ _ top below ih =>
      rcases ih h with h | h
      · exact Or.inl (List.mem_cons_of_mem _ h)
      · exact Or.inr (later h)
  | case6 _ _ _ _ _ _ _ _ _ ih => exact (ih h).imp_right later

theorem bracketsOfLine_placed (h : (line, number) ∈ doc.numbered)
    (pending : List OpenBracket) :
    ∀ d ∈ (bracketsOfLine doc pending line number).1, d.Placed doc := by
  intro d hd
  obtain ⟨⟨column, f⟩, hf, rfl⟩ := List.mem_map.mp hd
  obtain ⟨m, hm, htoken⟩ := exists_bracket_of_matchBrackets hf
  exact bracket_placed h hm htoken

/-- One line keeps the invariant that the open brackets stand where they say. -/
theorem bracketsOfLine_at (h : (line, number) ∈ doc.numbered) {pending : List OpenBracket}
    (hp : ∀ b ∈ pending, b.At doc) :
    ∀ b ∈ (bracketsOfLine doc pending line number).2, b.At doc := by
  intro b hb
  rcases mem_or_of_mem_matchBrackets hb with hb | ⟨rfl, hmem⟩
  · exact hp b hb
  · exact ⟨line, h, hmem⟩

theorem bracketsOfLines_placed {lines : List (Line × Nat)}
    (hlines : lines ⊆ doc.numbered) (pending : List OpenBracket) :
    ∀ ds ∈ (bracketsOfLines doc pending lines).1, ∀ d ∈ ds, d.Placed doc := by
  induction lines generalizing pending with
  | nil => simp [bracketsOfLines]
  | cons head rest ih =>
      obtain ⟨line, number⟩ := head
      obtain ⟨hhead, hrest⟩ := List.cons_subset.mp hlines
      intro ds hds
      rcases List.mem_cons.mp hds with rfl | hds
      · exact bracketsOfLine_placed hhead pending
      · exact ih hrest _ ds hds

theorem bracketsOfLines_at {lines : List (Line × Nat)} (hlines : lines ⊆ doc.numbered)
    {pending : List OpenBracket} (hp : ∀ b ∈ pending, b.At doc) :
    ∀ b ∈ (bracketsOfLines doc pending lines).2, b.At doc := by
  induction lines generalizing pending with
  | nil => exact hp
  | cons head rest ih =>
      obtain ⟨line, number⟩ := head
      obtain ⟨hhead, hrest⟩ := List.cons_subset.mp hlines
      exact ih hrest (bracketsOfLine_at hhead hp)

theorem unclosedBrackets_placed {pending : List OpenBracket}
    (hp : ∀ b ∈ pending, b.At doc) : ∀ d ∈ unclosedBrackets doc pending, d.Placed doc := by
  intro d hd
  obtain ⟨b, hb, rfl⟩ := List.mem_map.mp hd
  obtain ⟨line, hline, hmem⟩ := hp b (List.mem_reverse.mp hb)
  have hchar : (b.column, (BracketMark.opening b.kind).char) ∈ Text.withOffsets 0 line.bare := hmem
  exact bracket_placed hline hchar rfl

theorem nestingFrom_placed {lines : List (Line × Nat)} (hlines : lines ⊆ doc.numbered)
    (depth : Nat) : ∀ d ∈ nestingFrom doc depth lines, d.Placed doc := by
  induction lines generalizing depth with
  | nil => simp [nestingFrom]
  | cons head rest ih =>
      obtain ⟨line, number⟩ := head
      obtain ⟨hhead, hrest⟩ := List.cons_subset.mp hlines
      intro d hd
      rcases List.mem_append.mp hd with hd | hd
      · obtain ⟨⟨column, level⟩, -, rfl⟩ := List.mem_map.mp hd
        exact Diagnostic.placed_of_contains rfl
          (Document.contains_span (Document.lt_lineCount_of_mem hhead) (Nat.le_succ _))
      · exact ih hrest _ d hd

/-! ### The families and the report -/

theorem syntaxOfLine_placed {line : Line × Nat} (h : line ∈ doc.numbered)
    {matched : List Diagnostic} (hm : ∀ d ∈ matched, d.Placed doc) :
    ∀ d ∈ syntaxOfLine doc line matched, d.Placed doc := by
  intro d hd
  simp only [syntaxOfLine, List.mem_append] at hd
  rcases hd with ((hd | hd) | hd) | hd
  · exact semicolon_placed h d hd
  · exact hm d hd
  · exact naming_placed h d hd
  · exact directives_placed h d hd

theorem syntactic_placed : ∀ d ∈ syntactic doc, d.Placed doc := by
  intro d hd
  rcases List.mem_append.mp hd with hd | hd
  · obtain ⟨ds, hds, hd⟩ := List.mem_flatten.mp hd
    -- Each line goes with what was matched on it.
    rw [← List.map_uncurry_zip_eq_zipWith] at hds
    obtain ⟨⟨line, matched⟩, hzip, rfl⟩ := List.mem_map.mp hds
    obtain ⟨hline, hmatched⟩ := List.of_mem_zip hzip
    exact syntaxOfLine_placed hline
      (bracketsOfLines_placed (List.Subset.refl _) [] matched hmatched) d hd
  · exact unclosedBrackets_placed
      (bracketsOfLines_at (List.Subset.refl _) (fun _ h => absurd h List.not_mem_nil)) d hd

theorem semantic_placed [PatternEngine] (wf : doc.WellFormed) (dialect : Dialect) :
    ∀ d ∈ semantic dialect doc, d.Placed doc := by
  intro d hd
  simp only [semantic, List.mem_append] at hd
  rcases hd with ((hd | hd) | hd) | hd
  · exact undefinedVariables_placed dialect d hd
  · exact undefinedFunctions_placed wf dialect d hd
  · exact typeMismatches_placed d hd
  · exact unreachable_placed d hd

theorem style_placed (wf : doc.WellFormed) : ∀ d ∈ style doc, d.Placed doc := by
  intro d hd
  simp only [style, List.mem_append] at hd
  rcases hd with ((hd | hd) | hd) | hd
  · exact unusedVariables_placed wf d hd
  · exact magicNumbers_placed d hd
  · exact longFunctions_placed d hd
  · exact nestingFrom_placed (List.Subset.refl _) 0 d hd

theorem all_placed [PatternEngine] (wf : doc.WellFormed) (dialect : Dialect) :
    ∀ d ∈ all dialect doc, d.Placed doc := by
  intro d hd
  simp only [all, List.mem_append] at hd
  rcases hd with (hd | hd) | hd
  · exact syntactic_placed d hd
  · exact semantic_placed wf dialect d hd
  · exact style_placed wf d hd

end Check

/-- A report leaves out some of what the checks found, and keeps the order. -/
theorem check_sublist_all [Check.PatternEngine] (text : String) (dialect : Dialect)
    (settings : RunSettings) :
    (check text dialect settings).diagnostics.Sublist
      (Check.all dialect (Document.ofText text.toList)) :=
  ((List.take_sublist _ _).trans List.filter_sublist).trans List.filter_sublist

theorem placed_of_mem_check [Check.PatternEngine] {text : String} {dialect : Dialect}
    {settings : RunSettings}
    {d : Diagnostic} (h : d ∈ (check text dialect settings).diagnostics) :
    d.Placed (Document.ofText text.toList) :=
  Check.all_placed (Document.ofText_wellFormed _) dialect d
    ((check_sublist_all text dialect settings).subset h)

/-- Every diagnostic of a report lies inside the document: on one line of it, and
between the start and the end of that line. -/
theorem contains_range_of_mem_check [Check.PatternEngine] (text : String) (dialect : Dialect)
    (settings : RunSettings)
    (d : Diagnostic) (h : d ∈ (check text dialect settings).diagnostics) :
    (Document.ofText text.toList).Contains d.range := by
  obtain ⟨f, r, rfl, hplaced⟩ := placed_of_mem_check h
  exact hplaced.contains

/-- Behind a comment of wide characters, and before a carriage return. -/
theorem contains_range_behind_comment :
    ⟨⟨⟨0, 8⟩, ⟨0, 10⟩⟩, "Undefined variable 'zz'", .warning, .undefinedVariable⟩ ∈
        (check "/*😀é*/ zz\r\n" .mql5 {}).diagnostics ∧
      (Document.ofText "/*😀é*/ zz\r\n".toList).Contains ⟨⟨0, 8⟩, ⟨0, 10⟩⟩ :=
  have h : ⟨⟨⟨0, 8⟩, ⟨0, 10⟩⟩, "Undefined variable 'zz'", .warning, .undefinedVariable⟩ ∈
      (check "/*😀é*/ zz\r\n" .mql5 {}).diagnostics := by decide +kernel
  ⟨h, contains_range_of_mem_check _ _ _ _ h⟩

/-- Every diagnostic of a report reports a finding, and if the finding names a
token, the range of the diagnostic selects exactly this token on the line as
written. -/
theorem textAt?_range_of_mem_check [Check.PatternEngine] (text : String)
    (hsize : byteLength text.toList < UInt32.size)
    (dialect : Dialect) (settings : RunSettings) (d : Diagnostic)
    (h : d ∈ (check text dialect settings).diagnostics) :
    (∃ f : Finding, d = f.report d.range) ∧
      ∀ (f : Finding) (token : List Char), d = f.report d.range → f.token? = some token →
        (Document.ofText text.toList).textAt? d.range = some token := by
  obtain ⟨f, r, rfl, hplaced⟩ := placed_of_mem_check h
  refine ⟨⟨f, rfl⟩, ?_⟩
  intro g token hg htoken
  rw [← Finding.token?_eq_of_report_eq hg] at htoken
  exact hplaced.reads (Document.ofText_fits hsize) token htoken

/-- A stray bracket behind wide characters of a literal. -/
theorem textAt?_range_behind_literal :
    byteLength ";\r\n\"😀é\")".toList < UInt32.size ∧
      ⟨⟨⟨1, 5⟩, ⟨1, 6⟩⟩, "Unmatched closing bracket ')'", .error, .unmatchedBracket⟩ ∈
        (check ";\r\n\"😀é\")" .mql4 {}).diagnostics ∧
      (Document.ofText ";\r\n\"😀é\")".toList).textAt? ⟨⟨1, 5⟩, ⟨1, 6⟩⟩ = some [')'] :=
  have hsize : byteLength ";\r\n\"😀é\")".toList < UInt32.size := by decide +kernel
  have h : ⟨⟨⟨1, 5⟩, ⟨1, 6⟩⟩, "Unmatched closing bracket ')'", .error, .unmatchedBracket⟩ ∈
      (check ";\r\n\"😀é\")" .mql4 {}).diagnostics := by decide +kernel
  ⟨hsize, h,
    (textAt?_range_of_mem_check _ hsize _ _ _ h).2 (.unmatchedBracket ')') [')'] rfl rfl⟩

end TradeScript
