import TradeScript.Proofs.FixedPoint
import TradeScript.Proofs.LineEnding
import TradeScript.Proofs.Variable

/-!
# TradeScript.Proofs.CallSite

Which calls are reported as undefined. A call is reported if its function is not known and
is not found declared anywhere, and it is no call of a member. This is decided at each call
by itself: what stands before it says whether it is a call of a member (`BehindAccess`), and
the rest depends on nothing but its name.

The check decides it in a roundabout way. It looks for a name behind types, behind types of
members, and at every place where a word may start, and it does so once for every name. The
last places include the others, and what is found once is found every time, so a search of
the last places at every call comes to the same, as long as the engine takes a pattern for
the name. A name for which it takes none is reported wherever it is called, even where the
call is a statement (`refused_statement_reported`).
-/

namespace TradeScript

open Text (byteLength isBlank)

namespace Check

open Scan

/-! ### Member access -/

/-- The marks between a value or a class and the name of its member. -/
def accessMarks : List (List Char) :=
  [['.'], ['-', '>'], [':', ':']]

/-- The text ends in a mark of member access, blanks aside. -/
def BehindAccess (before : List Char) : Prop :=
  ∃ front mark space, before = front ++ (mark ++ space) ∧ mark ∈ accessMarks ∧
    ∀ c ∈ space, isBlank c = true

theorem endsInAccess_append {space : List Char} (hspace : ∀ c ∈ space, isBlank c = true)
    (cs : List Char) : endsInAccess (space ++ cs) = endsInAccess cs := by
  rw [endsInAccess, endsInAccess, Text.trimStart, List.dropWhile_append_of_pos hspace,
    Text.trimStart]

theorem exists_mark_of_endsInAccess {behind : List Char} (h : endsInAccess behind = true) :
    ∃ mark ∈ accessMarks, ∃ rest, Text.trimStart behind = mark.reverse ++ rest := by
  rw [endsInAccess] at h
  split at h
  · rename_i rest htrim
    exact ⟨['.'], by decide, rest, htrim⟩
  · rename_i rest htrim
    exact ⟨['-', '>'], by decide, rest, htrim⟩
  · rename_i rest htrim
    exact ⟨[':', ':'], by decide, rest, htrim⟩
  · cases h

theorem endsInAccess_of_mark {mark : List Char} (h : mark ∈ accessMarks) (rest : List Char) :
    endsInAccess (mark.reverse ++ rest) = true := by
  simp only [accessMarks, List.mem_cons, List.not_mem_nil, or_false] at h
  rcases h with rfl | rfl | rfl
  · rfl
  · rfl
  · rfl

theorem endsInAccess_reverse_iff {before : List Char} :
    endsInAccess before.reverse = true ↔ BehindAccess before := by
  constructor
  · intro h
    obtain ⟨mark, hmark, rest, htrim⟩ := exists_mark_of_endsInAccess h
    let space := before.reverse.takeWhile isBlank
    refine ⟨rest.reverse, mark, space.reverse, ?_, hmark, fun c hc => ?_⟩
    · calc before = before.reverse.reverse := before.reverse_reverse.symm
        _ = (space ++ Text.trimStart before.reverse).reverse :=
          congrArg List.reverse List.takeWhile_append_dropWhile.symm
        _ = rest.reverse ++ (mark ++ space.reverse) := by simp [htrim]
    · exact List.all_eq_true.mp List.all_takeWhile c (List.mem_reverse.mp hc)
  · intro h
    obtain ⟨front, mark, space, rfl, hmark, hspace⟩ := h
    have hblank : ∀ c ∈ space.reverse, isBlank c = true :=
      fun c hc => hspace c (List.mem_reverse.mp hc)
    rw [List.reverse_append, List.reverse_append, List.append_assoc, endsInAccess_append hblank]
    exact endsInAccess_of_mark hmark front.reverse

/-! ### Calls -/

/-- In a text, the name is called behind what is before it. -/
def IsCall (text before name : List Char) : Prop :=
  ∃ space rest, WordAt text before name (space ++ '(' :: rest) ∧ ∀ c ∈ space, isBlank c = true

/-- The report of a call of the name. -/
def callReport (doc : Document) (before name : List Char) : Diagnostic :=
  (Finding.undefinedFunction (String.ofList name)).report
    (doc.spanAt (byteLength before) (byteLength before + byteLength name))

/-- The calls that are reported, each given by what stands before it and its name. The
search is made at each of them. -/
def undeclaredCalls [PatternEngine] (dialect : Dialect) (doc : Document) :
    List (List Char × List Char) :=
  ((occurrences call doc.bareText).filter fun o =>
    !(Vocabulary.isKnown dialect o.name || endsInAccess o.behind ||
      declaresFunction (functionPlaces doc.bareText) o.found.name)).map fun o =>
    (o.behind.reverse, o.found.name)

variable {doc : Document} {dialect : Dialect} {before name : List Char}

theorem undefinedFunctions_eq_undeclaredCalls [PatternEngine] (dialect : Dialect)
    (doc : Document) :
    undefinedFunctions dialect doc =
      (undeclaredCalls dialect doc).map fun site => callReport doc site.1 site.2 := by
  rw [undefinedFunctions_eq_map, undeclaredCalls, List.map_map]
  refine List.map_congr_left fun o ho => ?_
  obtain ⟨before, name, space, rest, -, -, rfl⟩ :=
    mem_occurrences_call_iff.mp (List.mem_filter.mp ho).1
  simp only [Function.comp_def, List.reverse_reverse]
  rfl

theorem undeclaredCalls_pairwise [PatternEngine] (dialect : Dialect) (doc : Document) :
    (undeclaredCalls dialect doc).Pairwise fun a b => byteLength a.1 < byteLength b.1 := by
  have hoffset : ∀ o ∈ occurrences call doc.bareText, byteLength o.behind.reverse = o.offset := by
    intro o ho
    obtain ⟨before, name, space, rest, -, -, rfl⟩ := mem_occurrences_call_iff.mp ho
    rw [List.reverse_reverse]
  refine List.pairwise_map.mpr
    (((occurrences_pairwise call doc.bareText).filter _).imp_of_mem ?_)
  intro a b ha hb hlt
  rw [hoffset a (List.mem_filter.mp ha).1, hoffset b (List.mem_filter.mp hb).1]
  exact hlt

theorem mem_undeclaredCalls_iff [PatternEngine] :
    (before, name) ∈ undeclaredCalls dialect doc ↔
      IsCall doc.bareText before name ∧ Vocabulary.isKnown dialect (String.ofList name) = false ∧
        ¬ BehindAccess before ∧ ¬ FoundDeclared doc.bareText name := by
  simp only [undeclaredCalls, List.mem_map, List.mem_filter, Bool.not_eq_true',
    Bool.or_eq_false_iff, ← endsInAccess_reverse_iff, ← declaresFunction_iff,
    Bool.not_eq_true, and_assoc]
  constructor
  · intro h
    obtain ⟨o, ho, hknown, haccess, hdeclared, hsite⟩ := h
    obtain ⟨front, word, space, rest, hword, hspace, rfl⟩ := mem_occurrences_call_iff.mp ho
    rw [List.reverse_reverse] at hsite
    obtain ⟨rfl, rfl⟩ := Prod.mk.inj hsite
    exact ⟨⟨space, rest, hword, hspace⟩, hknown, haccess, hdeclared⟩
  · intro h
    obtain ⟨⟨space, rest, hword, hspace⟩, hknown, haccess, hdeclared⟩ := h
    refine ⟨_, mem_occurrences_call_iff.mpr ⟨before, name, space, rest, hword, hspace, rfl⟩,
      hknown, haccess, hdeclared, ?_⟩
    rw [List.reverse_reverse]

end Check

/-- What is reported are calls of the text, each once and in the order of the text: those
whose function is not known, that do not stand behind a mark of member access, and whose
name is nowhere found declared. What is found declared looks declared, and the other way
round if the engine takes the pattern without a type; so for such names the patterns with
types and the search that is made only once change nothing. A name of which the engine takes
no pattern is not found declared, whatever it looks like. -/
theorem call_reported_iff [Check.PatternEngine] (text : String) (dialect : Dialect) :
    let doc := Document.ofText text.toList
    (∃ calls : List (List Char × List Char),
      Check.undefinedFunctions dialect doc =
        (calls.map fun site => Check.callReport doc site.1 site.2) ∧
      calls.Pairwise (fun a b => byteLength a.1 < byteLength b.1) ∧
      ∀ before name, (before, name) ∈ calls ↔
        Check.IsCall doc.bareText before name ∧
          Vocabulary.isKnown dialect (String.ofList name) = false ∧ ¬ Check.BehindAccess before ∧
          ¬ Check.FoundDeclared doc.bareText name) ∧
    ∀ name,
      (Check.FoundDeclared doc.bareText name → Check.LooksDeclared doc.bareText name) ∧
      (Check.PatternEngine.takes .plain name = true → Check.LooksDeclared doc.bareText name →
        Check.FoundDeclared doc.bareText name) ∧
      ((∀ shape, Check.PatternEngine.takes shape name = false) →
        ¬ Check.FoundDeclared doc.bareText name) := by
  intro doc
  refine ⟨⟨Check.undeclaredCalls dialect doc,
    Check.undefinedFunctions_eq_undeclaredCalls dialect doc,
    Check.undeclaredCalls_pairwise dialect doc, fun before name => Check.mem_undeclaredCalls_iff⟩,
    fun name => ⟨fun h => ?_, fun htakes => ?_, Check.not_foundDeclared_of_refused⟩⟩
  · obtain ⟨shape, -, hshape⟩ := h
    exact hshape.looksDeclared
  · exact (Check.foundDeclared_iff_of_takes htakes).mpr

/-! ### A name that is refused -/

theorem maskFrom_none_of_not_mem {cs : List Char} (hdouble : '"' ∉ cs) (hsingle : '\'' ∉ cs) :
    maskFrom none cs = cs := by
  induction cs with
  | nil => rfl
  | cons c cs ih =>
      rw [List.mem_cons, not_or] at hdouble hsingle
      have hquote : ¬ (c = '"' ∨ c = '\'') := fun h => h.elim (hdouble.1 ·.symm) (hsingle.1 ·.symm)
      rw [maskFrom, if_neg hquote, ih hdouble.2 hsingle.2]

/-- A single line without comments and literals is the bare text of its document. -/
theorem Document.bareText_ofText_of_not_mem {text : List Char}
    (h : ∀ c ∈ ['\n', '\r', '/', '"', '\''], c ∉ text) : (ofText text).bareText = text := by
  simp only [List.forall_mem_cons, List.not_mem_nil, false_imp_iff, implies_true,
    and_true] at h
  obtain ⟨hnewline, hreturn, hslash, hdouble, hsingle⟩ := h
  have hsplit : Text.splitAt '\n' text = [text] :=
    Text.splitAt_joinWith (List.cons_ne_nil text []) (by simpa using hnewline)
  have hmarker : ∀ d, ¬ ['/', d] <:+: text := fun d hd => hslash (hd.subset List.mem_cons_self)
  have hview : codeView false text = (text, false) :=
    codeView_eq_self_iff.mpr ⟨hmarker '/', hmarker '*'⟩
  simp only [ofText, bareText, rawLines, hsplit, List.map_cons, List.map_nil,
    dropReturn_of_not_mem hreturn, codeViews, hview, List.zipWith_cons_cons, List.zipWith_nil_left,
    Line.ofCode, bareView, maskFrom_none_of_not_mem hdouble hsingle, Text.joinWith]

/-- No known word is long. -/
theorem Vocabulary.isKnown_of_lt_utf8ByteSize {dialect : Dialect} {word : String}
    (h : 100 < word.utf8ByteSize) : isKnown dialect word = false := by
  have hshort : ∀ known ∈ keywords ++ (sharedFunctions ++ dialectFunctions),
      known.utf8ByteSize ≤ 100 := by
    decide +kernel
  have hunknown : word ∉ keywords ++ (sharedFunctions ++ dialectFunctions) := fun hmem =>
    absurd (hshort word hmem) (Nat.not_le_of_lt h)
  simp only [List.mem_append, not_or] at hunknown
  obtain ⟨hkeyword, hshared, hown⟩ := hunknown
  have hfunction : word ∉ ownFunctions dialect := fun hmem =>
    hown (mem_dialectFunctions_of_mem hmem)
  simp [isKnown, isKeyword, isFunction, hkeyword, hshared, hfunction]

theorem Text.utf8ByteSize_ofList (cs : List Char) :
    (String.ofList cs).utf8ByteSize = byteLength cs := by
  induction cs with
  | nil => rfl
  | cons c cs ih =>
      rw [String.ofList_cons, String.utf8ByteSize_append, String.utf8ByteSize_singleton, ih,
        byteLength_cons]

namespace Check

/-- The name of so many letters. -/
def longName (n : Nat) : List Char :=
  List.replicate n 'a'

theorem bareText_longName (n : Nat) :
    (Document.ofText (longName n ++ ['(', ')', ';'])).bareText = longName n ++ ['(', ')', ';'] := by
  refine Document.bareText_ofText_of_not_mem ?_
  intro c hc hmem
  have hmarks : ∀ c ∈ ['\n', '\r', '/', '"', '\''], c ∉ ['a', '(', ')', ';'] := by simp
  rcases List.mem_append.mp hmem with hmem | hmem
  · obtain rfl := List.eq_of_mem_replicate hmem
    exact hmarks _ hc List.mem_cons_self
  · exact hmarks c hc (List.mem_cons_of_mem _ hmem)

/-- A call that is a statement looks declared. -/
theorem looksDeclared_longName (n : Nat) :
    LooksDeclared (longName n ++ ['(', ')', ';']) (longName n) :=
  ⟨[], ['(', ')', ';'], rfl, rfl, [], [], [], ';', [], rfl, by simp, by simp, by simp, .inr rfl⟩

theorem byteLength_longName (n : Nat) : byteLength (longName n) = n := by
  induction n with
  | zero => rfl
  | succ n ih =>
      rw [longName, List.replicate_succ, Text.byteLength_cons, ← longName, ih]
      exact Nat.add_comm 1 n

/-- The standard engine takes no pattern for a name of more than 327680 letters. -/
theorem refused_longName {n : Nat} (h : 327680 < n) (shape : DeclarationShape) :
    PatternEngine.takes shape (longName n) = false := by
  show decide (32 * byteLength (longName n) ≤ 10485760) = false
  rw [byteLength_longName]
  exact decide_eq_false (by omega)

theorem isCall_longName {n : Nat} (h : 0 < n) :
    IsCall (longName n ++ ['(', ')', ';']) [] (longName n) := by
  obtain ⟨m, rfl⟩ := Nat.exists_eq_add_of_lt h
  refine ⟨[], [')', ';'], ⟨rfl, rfl, ?_, rfl⟩, by simp⟩
  rw [longName, Nat.zero_add, List.replicate_succ, Scan.isIdentifier, List.all_replicate]
  split <;> decide

theorem mem_undeclaredCalls_longName {n : Nat} (h : 327680 < n) (dialect : Dialect) :
    ([], longName n) ∈
      undeclaredCalls dialect (Document.ofText (longName n ++ ['(', ')', ';'])) := by
  rw [mem_undeclaredCalls_iff, bareText_longName]
  refine ⟨isCall_longName (by omega), Vocabulary.isKnown_of_lt_utf8ByteSize ?_, ?_,
    not_foundDeclared_of_refused (refused_longName h)⟩
  · rw [Text.utf8ByteSize_ofList, byteLength_longName]
    omega
  · rw [← endsInAccess_reverse_iff]
    decide

end Check

/-- A function with a name of 500000 letters is called in a statement, which looks like its
declaration. The call is reported, because the engine refuses to search for the name. -/
theorem refused_statement_reported :
    let name := Check.longName 500000
    let doc := Document.ofText (String.ofList (name ++ ['(', ')', ';'])).toList
    Check.LooksDeclared doc.bareText name ∧
      Check.callReport doc [] name ∈ Check.undefinedFunctions .mql5 doc := by
  intro name doc
  have hdoc : doc = Document.ofText (name ++ ['(', ')', ';']) := by
    rw [← String.toList_ofList (l := name ++ ['(', ')', ';'])]
  rw [hdoc]
  constructor
  · rw [Check.bareText_longName]
    exact Check.looksDeclared_longName _
  · rw [Check.undefinedFunctions_eq_undeclaredCalls]
    exact List.mem_map.mpr ⟨_, Check.mem_undeclaredCalls_longName (by decide) .mql5, rfl⟩

end TradeScript
