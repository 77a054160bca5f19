import TradeScript.Proofs.Dialect
import TradeScript.Proofs.Word

/-!
# TradeScript.Proofs.Function

Which functions are reported as undefined. The check does not ask the symbols of the
document whether a function is declared. It looks for its name in the text once more, and
takes it for declared if parameters follow somewhere, and then a body or a semicolon
(`LooksDeclared`). The types before a name play no part: a place behind a type is a place
where a word may start (`LooksDeclaredAs.looksDeclared`). But the name has to be one for
which the engine takes a pattern. For other names it finds nothing, and they are reported
wherever they are called (`FoundDeclared`).

The symbols ask for less, a type or a class before the name and a parenthesis behind it.
So a function can be declared and still be reported: between the parameters and the body
of a declaration there may be a word, and a default value may have parentheses.
-/

namespace TradeScript.Check

open Scan
open Text (byteLength byteLength_append isBlank)

/-! ### The shape of a declaration -/

/-- The text goes on as behind the name of a declared function: with parameters, up to
the first closing parenthesis, and then a body or a semicolon. -/
def HasTail (cs : List Char) : Prop :=
  ∃ space params space' mark rest,
    cs = space ++ '(' :: (params ++ ')' :: (space' ++ mark :: rest)) ∧
      (∀ c ∈ space, isBlank c = true) ∧ ')' ∉ params ∧ (∀ c ∈ space', isBlank c = true) ∧
      (mark = '{' ∨ mark = ';')

/-- Somewhere in the text the name starts a word and is followed as a declared function
is. -/
def LooksDeclared (text name : List Char) : Prop :=
  ∃ before after, text = before ++ (name ++ after) ∧ opensWord before.getLast? = true ∧
    HasTail after

theorem isSome_functionTail_iff {cs : List Char} :
    (functionTail cs).isSome = true ↔ HasTail cs := by
  simp only [functionTail, isSome_inTurn_cons_iff]
  constructor
  · rintro ⟨_, _, hopen, params, _, hread, _, _, hclose, space', _, hread', _, rest, hend, -⟩
    obtain ⟨space, rfl, hspace, -⟩ := openParen_eq_some_iff.mp hopen
    obtain ⟨rfl, hparams, -⟩ := manyOf_eq_some_iff.mp hread
    obtain ⟨-, rfl⟩ := exactly_eq_some_iff.mp hclose
    obtain ⟨rfl, hspace', -⟩ := manyOf_eq_some_iff.mp hread'
    obtain ⟨mark, hmark, -, rfl⟩ := single_eq_some_iff.mp hend
    refine ⟨space, params, space', mark, rest, rfl, hspace, fun h => ?_, hspace', ?_⟩
    · simpa using hparams _ h
    · simpa using hmark
  · rintro ⟨space, params, space', mark, rest, rfl, hspace, hparams, hspace', hmark⟩
    have hblank : isBlank mark = false := by
      rcases hmark with rfl | rfl <;> decide
    refine ⟨_, _, openParen_eq_some_iff.mpr ⟨space, rfl, hspace, rfl⟩,
      params, _, manyOf_append ?_ (by decide) _, _, _, exactly_eq_some_iff.mpr ⟨rfl, rfl⟩,
      space', _, manyOf_append (List.all_eq_true.mpr hspace') hblank rest,
      _, _, single_eq_some_iff.mpr ⟨mark, ?_, rfl, rfl⟩, rfl⟩
    · rw [List.all_eq_true]
      intro c hc
      simpa using fun h : c = ')' => hparams (h ▸ hc)
    · simpa using hmark

/-! ### Places where names are looked for -/

theorem mem_placesBehind_cons_iff {lead : Reader} {mayStand : Option Char → List Char → Bool}
    {previous : Option Char} {c : Char} {cs place : List Char} :
    place ∈ placesBehind lead mayStand previous (c :: cs) ↔
      (mayStand previous (c :: cs) = true ∧ ∃ piece, lead (c :: cs) = some (piece, place)) ∨
        place ∈ placesBehind lead mayStand (some c) cs := by
  simp only [placesBehind]
  split
  · rename_i hstand hlead
    rw [List.mem_cons, hstand, hlead]
    simp [eq_comm]
  · rename_i hneither
    refine ⟨.inr, Or.rec (fun h => ?_) id⟩
    obtain ⟨hstand, piece, hlead⟩ := h
    exact absurd hlead (hneither _ _ hstand)

theorem mem_placesBehind_iff {lead : Reader} {mayStand : Option Char → List Char → Bool}
    {previous : Option Char} {text place : List Char} :
    place ∈ placesBehind lead mayStand previous text ↔
      ∃ before rest piece, text = before ++ rest ∧ rest ≠ [] ∧
        mayStand (before.getLast?.or previous) rest = true ∧ lead rest = some (piece, place) := by
  induction text generalizing previous with
  | nil =>
      refine ⟨fun h => absurd h List.not_mem_nil, ?_⟩
      rintro ⟨before, rest, piece, htext, hne, -⟩
      exact absurd (List.append_eq_nil_iff.mp htext.symm).2 hne
  | cons c cs ih =>
      have hlast : ∀ before : List Char,
          (c :: before).getLast?.or previous = before.getLast?.or (some c) := by
        intro before
        rw [List.getLast?_cons, Option.some_or]
        cases before.getLast? <;> rfl
      rw [mem_placesBehind_cons_iff, ih]
      constructor
      · rintro (⟨hstand, piece, hlead⟩ | ⟨before, rest, piece, rfl, hne, hstand, hlead⟩)
        · exact ⟨[], c :: cs, piece, rfl, List.cons_ne_nil _ _, hstand, hlead⟩
        · exact ⟨c :: before, rest, piece, rfl, hne, (hlast before).symm ▸ hstand, hlead⟩
      · rintro ⟨before, rest, piece, htext, hne, hstand, hlead⟩
        cases before with
        | nil =>
            obtain rfl : c :: cs = rest := htext
            exact .inl ⟨hstand, piece, hlead⟩
        | cons d before =>
            obtain ⟨rfl, rfl⟩ := List.cons.inj htext
            exact .inr ⟨before, rest, piece, rfl, hne, hlast before ▸ hstand, hlead⟩

/-- Behind a lead that opens a word, a word may start. -/
theorem exists_of_mem_placesBehind {lead : Reader} (hlead : lead.Faithful) (hopens : lead.OpensWord)
    {mayStand : Option Char → List Char → Bool} {text place : List Char}
    (h : place ∈ placesBehind lead mayStand none text) :
    ∃ before, text = before ++ place ∧ opensWord before.getLast? = true := by
  obtain ⟨before, rest, piece, rfl, -, -, hpiece⟩ := mem_placesBehind_iff.mp h
  refine ⟨before ++ piece, ?_, ?_⟩
  · rw [List.append_assoc, hlead _ _ _ hpiece]
  · rw [List.getLast?_append]
    exact hopens _ _ _ hpiece _

theorem mem_plainPlaces_iff {text place : List Char} :
    place ∈ plainPlaces text ↔
      place ≠ [] ∧ ∃ before, text = before ++ place ∧ opensWord before.getLast? = true := by
  rw [plainPlaces, mem_placesBehind_iff]
  constructor
  · rintro ⟨before, rest, piece, rfl, hne, hopens, hpiece⟩
    obtain ⟨-, rfl⟩ := nothing_eq_some_iff.mp hpiece
    exact ⟨hne, before, rfl, by rwa [Option.or_none] at hopens⟩
  · rintro ⟨hne, before, rfl, hopens⟩
    exact ⟨before, place, [], rfl, hne, by rwa [Option.or_none], rfl⟩

@[simp] theorem functionType_faithful : functionType.Faithful := by
  simp [functionType]

theorem functionType_opensWord : functionType.OpensWord :=
  inTurn_cons_opensWord _ (inTurn_opensWord gap_opensWord (by simp))

/-- Names are looked for where a word may start. -/
theorem exists_of_mem_places {shape : DeclarationShape} {text place : List Char}
    (h : place ∈ shape.places text) :
    ∃ before, text = before ++ place ∧ opensWord before.getLast? = true := by
  cases shape with
  | typed => exact exists_of_mem_placesBehind functionType_faithful functionType_opensWord h
  | member =>
      refine exists_of_mem_placesBehind ?_ ?_ h
      · have hword :
            (oneOf (Vocabulary.memberWords.map fun word => exactly word.toList)).Faithful :=
          oneOf_faithful (by simp)
        simp [Scan.optional, hword]
      · exact inTurn_cons_opensWord _ (inTurn_cons_opensWord _
          (inTurn_opensWord functionType_opensWord (by simp)))
  | plain => exact (mem_plainPlaces_iff.mp h).2

theorem HasTail.ne_nil {cs : List Char} (h : HasTail cs) : cs ≠ [] := by
  obtain ⟨space, params, space', mark, rest, rfl, -⟩ := h
  simp

/-- The name stands at one of the places of the shape, and is followed as a declared
function is. -/
def LooksDeclaredAs (shape : DeclarationShape) (text name : List Char) : Prop :=
  ∃ after, name ++ after ∈ shape.places text ∧ HasTail after

/-- The engine finds the name declared: in a shape for which it takes the pattern. -/
def FoundDeclared [PatternEngine] (text name : List Char) : Prop :=
  ∃ shape, PatternEngine.takes shape name = true ∧ LooksDeclaredAs shape text name

/-- What looks declared in any shape looks declared without its type. -/
theorem LooksDeclaredAs.looksDeclared {shape : DeclarationShape} {text name : List Char}
    (h : LooksDeclaredAs shape text name) : LooksDeclared text name := by
  obtain ⟨after, hplace, htail⟩ := h
  obtain ⟨before, rfl, hbefore⟩ := exists_of_mem_places hplace
  exact ⟨before, after, rfl, hbefore, htail⟩

theorem LooksDeclared.plain {text name : List Char} (h : LooksDeclared text name) :
    LooksDeclaredAs .plain text name := by
  obtain ⟨before, after, rfl, hbefore, htail⟩ := h
  have hne : name ++ after ≠ [] := fun h => htail.ne_nil (List.append_eq_nil_iff.mp h).2
  exact ⟨after, mem_plainPlaces_iff.mpr ⟨hne, before, rfl, hbefore⟩, htail⟩

/-- The patterns with types add nothing to the one without. -/
theorem foundDeclared_iff_of_takes [PatternEngine] {text name : List Char}
    (h : PatternEngine.takes .plain name = true) :
    FoundDeclared text name ↔ LooksDeclared text name := by
  constructor
  · intro hfound
    obtain ⟨shape, -, hshape⟩ := hfound
    exact hshape.looksDeclared
  · intro hlooks
    exact ⟨.plain, h, hlooks.plain⟩

/-- An engine that refuses the patterns for a name does not find it declared. -/
theorem not_foundDeclared_of_refused [PatternEngine] {text name : List Char}
    (h : ∀ shape, PatternEngine.takes shape name = false) : ¬ FoundDeclared text name := by
  intro hfound
  obtain ⟨shape, htakes, -⟩ := hfound
  rw [h shape] at htakes
  exact Bool.false_ne_true htakes

theorem DeclarationShape.mem_every (shape : DeclarationShape) : shape ∈ every := by
  cases shape <;> decide

theorem declaresFunction_iff [PatternEngine] {text name : List Char} :
    declaresFunction (functionPlaces text) name = true ↔ FoundDeclared text name := by
  have hfits : ∀ cs, (inTurn [exactly name, functionTail] cs).isSome = true ↔
      ∃ after, cs = name ++ after ∧ HasTail after := by
    intro cs
    simp only [isSome_inTurn_cons_iff, exactly_eq_some_iff]
    constructor
    · rintro ⟨_, after, ⟨rfl, rfl⟩, _, rest, htail, -⟩
      exact ⟨after, rfl, isSome_functionTail_iff.mp (Option.isSome_of_eq_some htail)⟩
    · rintro ⟨after, rfl, htail⟩
      obtain ⟨⟨piece, rest⟩, htail⟩ :=
        Option.isSome_iff_exists.mp (isSome_functionTail_iff.mpr htail)
      exact ⟨name, after, ⟨rfl, rfl⟩, piece, rest, htail, rfl⟩
  simp only [declaresFunction, functionPlaces, List.any_map, List.any_eq_true, Function.comp_def,
    Bool.and_eq_true, hfits]
  constructor
  · intro h
    obtain ⟨shape, -, htakes, _, hplace, after, rfl, htail⟩ := h
    exact ⟨shape, htakes, after, hplace, htail⟩
  · intro h
    obtain ⟨shape, htakes, after, hplace, htail⟩ := h
    exact ⟨shape, shape.mem_every, htakes, _, hplace, after, rfl, htail⟩

/-! ### Calls -/

/-- Somewhere in the text the name is called, and not as a member. -/
def CalledFreely (text name : List Char) : Prop :=
  ∃ before space rest, WordAt text before name (space ++ '(' :: rest) ∧
    (∀ c ∈ space, isBlank c = true) ∧ endsInAccess before.reverse = false

theorem mem_occurrences_call_iff {text : List Char} {o : Occurrence Found} :
    o ∈ occurrences call text ↔
      ∃ before name space rest, WordAt text before name (space ++ '(' :: rest) ∧
        (∀ c ∈ space, isBlank c = true) ∧
        o = ⟨before.reverse, byteLength before, ⟨[], name, space ++ ['(']⟩⟩ := by
  have hstarts : ∀ cs piece rest, openParen cs = some (piece, rest) →
      ∀ c ∈ piece, isNameStart c = false := by
    intro cs piece rest h c hc
    obtain ⟨space, -, hspace, rfl⟩ := openParen_eq_some_iff.mp h
    rcases List.mem_append.mp hc with hc | hc
    · exact isNameStart_of_isWord (isWord_of_isBlank (hspace c hc))
    · rw [List.mem_singleton.mp hc]
      decide
  refine (mem_occurrences_wordNaming_nothing_iff openParen_closesWord openParen_faithful
    hstarts).trans ⟨?_, ?_⟩
  · rintro ⟨before, name, after, piece, rest, hword, htrail, rfl⟩
    obtain ⟨space, rfl, hspace, rfl⟩ := openParen_eq_some_iff.mp htrail
    exact ⟨before, name, space, rest, hword, hspace, rfl⟩
  · rintro ⟨before, name, space, rest, hword, hspace, rfl⟩
    exact ⟨before, name, _, _, rest, hword,
      openParen_eq_some_iff.mpr ⟨space, rfl, hspace, rfl⟩, rfl⟩

variable {doc : Document} {dialect : Dialect} {name : String}

/-- Every call of a function is reported, or none is, apart from calls of members. -/
theorem exists_report_mem_undefinedFunctions_iff [PatternEngine] :
    (∃ range, (Finding.undefinedFunction name).report range ∈ undefinedFunctions dialect doc) ↔
      Vocabulary.isKnown dialect name = false ∧ CalledFreely doc.bareText name.toList ∧
        ¬ FoundDeclared doc.bareText name.toList := by
  simp only [undefinedFunctions_eq_map, List.mem_map, List.mem_filter, ← declaresFunction_iff]
  constructor
  · rintro ⟨range, o, ⟨ho, hkept⟩, hreport⟩
    obtain rfl : o.name = name := Diagnostic.eq_of_token rfl rfl hreport
    rw [Occurrence.toList_name]
    simp only [Bool.not_eq_true', Bool.or_eq_false_iff] at hkept
    obtain ⟨⟨hknown, haccess⟩, hdeclared⟩ := hkept
    obtain ⟨before, word, space, rest, hword, hspace, rfl⟩ := mem_occurrences_call_iff.mp ho
    exact ⟨hknown, ⟨before, space, rest, hword, hspace, haccess⟩,
      Bool.eq_false_iff.mp hdeclared⟩
  · rintro ⟨hknown, ⟨before, space, rest, hword, hspace, haccess⟩, hdeclared⟩
    let o : Occurrence Found :=
      ⟨before.reverse, byteLength before, ⟨[], name.toList, space ++ ['(']⟩⟩
    have hname : o.name = name := String.ofList_toList
    have ho : o ∈ occurrences call doc.bareText :=
      mem_occurrences_call_iff.mpr ⟨before, _, space, rest, hword, hspace, rfl⟩
    refine ⟨doc.spanAt o.start o.stop, o, ⟨ho, ?_⟩, by rw [hname]⟩
    rw [hname, hknown, Bool.eq_false_iff.mpr hdeclared]
    simpa using haccess

/-! ### Declared functions -/

theorem mem_functions_iff :
    name ∈ doc.symbols.functions ↔ ∃ o ∈ doc.functionDeclarations, o.name = name := by
  simp only [Document.symbols, List.mem_eraseDups, List.mem_map]

@[simp] theorem separator_faithful : separator.Faithful := by
  simp [separator]

@[simp] theorem qualifier_faithful : qualifier.Faithful := by
  simp [qualifier]

@[simp] theorem returnType_faithful : returnType.Faithful := by
  simp [returnType]

theorem qualifier_opensWord : qualifier.OpensWord :=
  inTurn_cons_opensWord _ (inTurn_opensWord (exactly_opensWord (by simp) (by decide)) (by simp))

/-- The name of a declared function has a parenthesis behind it, and a word may start
before it. -/
theorem exists_lead_of_mem_functionDeclarations {o : Occurrence Found}
    (ho : o ∈ doc.functionDeclarations) :
    ∃ lead : Reader, lead.Faithful ∧ lead.OpensWord ∧
      o ∈ occurrences (wordNaming lead openParen) doc.bareText := by
  rcases List.mem_append.mp ho with ho | ho
  · refine ⟨_, ?_, ?_, (List.mem_filter.mp ho).1⟩
    · simp [Scan.optional]
    · refine inTurn_cons_opensWord _ (inTurn_opensWord separator_opensWord ?_)
      simpa using optional_keepsOpen qualifier_opensWord
  · refine ⟨_, ?_, ?_, (List.mem_filter.mp ho).1⟩
    · simp [Scan.optional]
    · refine inTurn_opensWord qualifier_opensWord ?_
      simpa using optional_keepsOpen (exactly_opensWord (by simp) (by decide))

/-- A declaration that has the tail of one is found again. -/
theorem looksDeclared_of_mem_functionDeclarations {o : Occurrence Found}
    (ho : o ∈ doc.functionDeclarations)
    (htail : HasTail (Text.dropBytes o.stop doc.bareText)) :
    LooksDeclared doc.bareText o.found.name := by
  obtain ⟨lead, hlead, hopens, ho⟩ := exists_lead_of_mem_functionDeclarations ho
  obtain ⟨before, after, hword, hstart⟩ :=
    exists_wordAt_of_mem_occurrences hlead hopens openParen_closesWord ho
  have hstop : o.stop = byteLength (before ++ o.found.name) := by
    rw [Occurrence.stop, hstart, byteLength_append]
  rw [hstop, hword.eq, ← List.append_assoc, Text.dropBytes_append] at htail
  exact ⟨before, after, hword.eq, hword.opens, htail⟩

/-- A function is reported exactly if it is not known, is called other than as a member,
and is nowhere in the text found declared. So a function that the document declares is not
reported, if behind the parameters of one of its declarations, up to the first closing
parenthesis, there is a body or a semicolon, and the engine takes the pattern for its name. -/
theorem function_reported_iff [PatternEngine] (text : String) (dialect : Dialect) :
    let doc := Document.ofText text.toList
    (∀ name : String,
      (∃ range, (Finding.undefinedFunction name).report range ∈ undefinedFunctions dialect doc) ↔
        Vocabulary.isKnown dialect name = false ∧ CalledFreely doc.bareText name.toList ∧
          ¬ FoundDeclared doc.bareText name.toList) ∧
    ∀ name ∈ doc.symbols.functions,
      (∃ o ∈ doc.functionDeclarations, o.name = name) ∧
      ∀ o ∈ doc.functionDeclarations, o.name = name →
        HasTail (Text.dropBytes o.stop doc.bareText) →
        PatternEngine.takes .plain name.toList = true →
        ∀ range,
          (Finding.undefinedFunction name).report range ∉ undefinedFunctions dialect doc := by
  intro doc
  refine ⟨fun name => exists_report_mem_undefinedFunctions_iff, fun name hname => ⟨?_, ?_⟩⟩
  · exact mem_functions_iff.mp hname
  · rintro o ho rfl htail htakes range hreported
    obtain ⟨-, -, hundeclared⟩ := exists_report_mem_undefinedFunctions_iff.mp ⟨range, hreported⟩
    rw [foundDeclared_iff_of_takes htakes, Occurrence.toList_name] at hundeclared
    exact hundeclared (looksDeclared_of_mem_functionDeclarations ho htail)

/-- A function that is declared with a body, and called behind it. -/
theorem function_unreported_before_call :
    let text := "int f(int a) \x7b\x7d y=f(1)+1;"
    let doc := Document.ofText text.toList
    "f" ∈ doc.symbols.functions ∧
      ∀ range, (Finding.undefinedFunction "f").report range ∉ undefinedFunctions .mql4 doc := by
  intro text doc
  let o : Occurrence Found := ⟨[], 0, ⟨"int ".toList, "f".toList, "(".toList⟩⟩
  have hdeclared : "f" ∈ doc.symbols.functions := by decide +kernel
  have ho : o ∈ doc.functionDeclarations := by decide +kernel
  have htail : (functionTail (Text.dropBytes o.stop doc.bareText)).isSome = true := by
    decide +kernel
  refine ⟨hdeclared, ?_⟩
  exact ((function_reported_iff text .mql4).2 "f" hdeclared).2 o ho rfl
    (isSome_functionTail_iff.mp htail) (by decide)

/-- A word between the parameters and the semicolon hides that a function is declared. -/
theorem reported_though_declared :
    let doc := Document.ofText "int f() const;".toList
    "f" ∈ doc.symbols.functions ∧
      ∃ range, (Finding.undefinedFunction "f").report range ∈ undefinedFunctions .mql5 doc :=
  ⟨by decide +kernel, ⟨⟨0, 4⟩, ⟨0, 5⟩⟩, by decide +kernel⟩

end TradeScript.Check
