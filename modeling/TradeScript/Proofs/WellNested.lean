import TradeScript.Check.Bracket

/-!
# TradeScript.Proofs.WellNested

The bracket matcher reports nothing exactly on well-nested documents.

Well-nested words are given by a grammar (`WellNested`), which knows neither lines
nor a stack. Between the grammar and the matcher stands `settle`, a stack machine
that gives up at the first bracket out of place. The matcher never gives up, but as
long as it has reported nothing, its open brackets are the stack of `settle`
(`settle_matchBrackets`, and for all lines `settle_bracketsOfLines`). So what it does
after a mismatch does not matter here.
-/

namespace TradeScript

/-- The well-nested words over the three kinds of brackets. -/
inductive WellNested : List BracketMark → Prop where
  | nil : WellNested []
  | wrap {inner : List BracketMark} (kind : Bracket) :
      WellNested inner → WellNested (.opening kind :: (inner ++ [.closing kind]))
  | append {left right : List BracketMark} :
      WellNested left → WellNested right → WellNested (left ++ right)

/-- The brackets of a text, in order. -/
def bracketMarks (cs : List Char) : List BracketMark :=
  cs.filterMap BracketMark.ofChar?

/-- Close brackets against those that are open, the innermost of which comes first.
The result is what is open in the end; a bracket out of place has none. -/
def settle : List Bracket → List BracketMark → Option (List Bracket)
  | pending, [] => some pending
  | pending, .opening kind :: rest => settle (kind :: pending) rest
  | [], .closing _ :: _ => none
  | top :: below, .closing kind :: rest => if top = kind then settle below rest else none

/-! ### The grammar and the stack machine -/

theorem settle_append (pending : List Bracket) (left right : List BracketMark) :
    settle pending (left ++ right) = (settle pending left).bind (settle · right) := by
  fun_induction settle pending left with
  | case1 => rfl
  | case2 pending kind rest ih => exact ih
  | case3 => rfl
  | case4 below kind rest ih =>
      rw [List.cons_append, settle, if_pos rfl, ih]
  | case5 top below kind rest hne =>
      rw [List.cons_append, settle, if_neg hne]
      rfl

/-- A well-nested word leaves the open brackets as they are. -/
theorem WellNested.settle_eq {word : List BracketMark} (h : WellNested word)
    (pending : List Bracket) : settle pending word = some pending := by
  induction h generalizing pending with
  | nil => rfl
  | wrap kind _ ih =>
      rw [settle, settle_append, ih, Option.bind_some, settle, if_pos rfl, settle]
  | append _ _ ihleft ihright =>
      rw [settle_append, ihleft, Option.bind_some, ihright]

/-- An empty pair may be put anywhere into a well-nested word. -/
theorem WellNested.insert_pair {left right : List BracketMark} (h : WellNested (left ++ right))
    (kind : Bracket) : WellNested (left ++ .opening kind :: .closing kind :: right) := by
  have pair : WellNested [.opening kind, .closing kind] := .wrap kind .nil
  generalize hword : left ++ right = word at h
  induction h generalizing left right with
  | nil =>
      obtain ⟨rfl, rfl⟩ := List.append_eq_nil_iff.mp hword
      exact pair
  | @wrap inner outer hinner ih =>
      -- The place is before the word, inside it, or behind it.
      cases left with
      | nil =>
          rw [List.nil_append] at hword
          subst hword
          exact pair.append (.wrap outer hinner)
      | cons first left =>
          obtain ⟨rfl, hrest⟩ := List.cons.inj hword
          rcases List.append_eq_append_iff.mp hrest with ⟨cut, rfl, hcut⟩ | ⟨cut, hleft, hcut⟩
          · have hwrap := (ih rfl).wrap outer
            rw [List.append_assoc] at hwrap
            rw [hcut]
            exact hwrap
          · rcases List.cons_eq_append_iff.mp hcut with ⟨rfl, rfl⟩ | ⟨more, rfl, hnil⟩
            · rw [List.append_nil] at hleft
              subst hleft
              have hwrap := (ih (List.append_nil left)).wrap outer
              rw [List.append_assoc] at hwrap
              exact hwrap
            · obtain ⟨rfl, rfl⟩ := List.append_eq_nil_iff.mp hnil.symm
              subst hleft
              exact (hinner.wrap outer).append pair
  | @append first second hfirst hsecond ihfirst ihsecond =>
      rcases List.append_eq_append_iff.mp hword with ⟨cut, rfl, rfl⟩ | ⟨cut, rfl, rfl⟩
      · rw [← List.cons_append, ← List.cons_append, ← List.append_assoc]
        exact (ihfirst rfl).append hsecond
      · rw [List.append_assoc]
        exact hfirst.append (ihsecond rfl)

/-- What settles completely is well nested behind the openings of what was open. -/
theorem wellNested_of_settle {pending : List Bracket} {word : List BracketMark}
    (h : settle pending word = some []) :
    WellNested (pending.reverse.map .opening ++ word) := by
  fun_induction settle pending word with
  | case1 pending =>
      obtain rfl := Option.some.inj h
      exact .nil
  | case2 pending kind rest ih =>
      have hrest := ih h
      rw [List.reverse_cons, List.map_append, List.append_assoc] at hrest
      exact hrest
  | case3 => simp at h
  | case4 below kind rest ih =>
      have hpair := (ih h).insert_pair kind
      rw [List.reverse_cons, List.map_append, List.append_assoc]
      exact hpair
  | case5 => simp at h

theorem settle_eq_nil_iff (word : List BracketMark) :
    settle [] word = some [] ↔ WellNested word :=
  ⟨wellNested_of_settle, fun h => h.settle_eq []⟩

/-! ### The stack machine and the matcher -/

namespace Check

/-- On one line: as long as nothing is reported, the open brackets are the stack. -/
theorem settle_matchBrackets (number : Nat) (pending : List OpenBracket)
    (chars : List (Nat × Char)) :
    settle (pending.map OpenBracket.kind) (bracketMarks (chars.map Prod.snd)) =
      if (matchBrackets number pending chars).1 = [] then
        some ((matchBrackets number pending chars).2.map OpenBracket.kind)
      else none := by
  fun_induction matchBrackets number pending chars with
  | case1 pending => rfl
  | case2 pending column c rest hc ih =>
      rw [← ih, List.map_cons, bracketMarks, List.filterMap_cons_none hc, bracketMarks]
  | case3 pending column c rest kind hc ih =>
      rw [← ih, List.map_cons, bracketMarks, List.filterMap_cons_some hc, settle, bracketMarks]
      rfl
  | case4 column c rest kind hc r ih =>
      rw [List.map_cons, bracketMarks, List.filterMap_cons_some hc, if_neg (List.cons_ne_nil _ _)]
      rfl
  | case5 column c rest top below hc ih =>
      rw [← ih, List.map_cons, List.map_cons, bracketMarks, List.filterMap_cons_some hc, settle,
        if_pos rfl, bracketMarks]
  | case6 column c rest kind hc top below hne r ih =>
      rw [List.map_cons, List.map_cons, bracketMarks, List.filterMap_cons_some hc, settle,
        if_neg hne, if_neg (List.cons_ne_nil _ _)]

theorem map_snd_withOffsets (offset : Nat) (cs : List Char) :
    (Text.withOffsets offset cs).map Prod.snd = cs := by
  induction cs generalizing offset with
  | nil => rfl
  | cons c cs ih => rw [Text.withOffsets, List.map_cons, ih]

/-- Line by line: the stack is handed on as the open brackets are. -/
theorem settle_bracketsOfLines (doc : Document) (pending : List OpenBracket)
    (lines : List (Line × Nat)) :
    settle (pending.map OpenBracket.kind) (lines.flatMap fun line => bracketMarks line.1.bare) =
      if (bracketsOfLines doc pending lines).1.flatten = [] then
        some ((bracketsOfLines doc pending lines).2.map OpenBracket.kind)
      else none := by
  induction lines generalizing pending with
  | nil => rfl
  | cons head rest ih =>
      obtain ⟨line, number⟩ := head
      have hhere := settle_matchBrackets number pending (Text.withOffsets 0 line.bare)
      rw [map_snd_withOffsets] at hhere
      rw [List.flatMap_cons, settle_append, hhere, bracketsOfLines, List.flatten_cons]
      by_cases hnil : (matchBrackets number pending (Text.withOffsets 0 line.bare)).1 = []
      · have hline : (bracketsOfLine doc pending line number).1 = [] := List.map_eq_nil_iff.mpr hnil
        rw [if_pos hnil, Option.bind_some, hline, List.nil_append]
        exact ih _
      · have hline : ¬ ((bracketsOfLine doc pending line number).1 ++
            (bracketsOfLines doc (bracketsOfLine doc pending line number).2 rest).1.flatten = []) :=
          fun h => hnil (List.map_eq_nil_iff.mp (List.append_eq_nil_iff.mp h).1)
        rw [if_neg hnil, if_neg hline]
        rfl

theorem brackets_eq_nil_iff (doc : Document) :
    brackets doc = [] ↔
      settle [] (doc.numbered.flatMap fun line => bracketMarks line.1.bare) = some [] := by
  have hsettle := settle_bracketsOfLines doc [] doc.numbered
  rw [List.map_nil] at hsettle
  rw [hsettle, brackets, List.append_eq_nil_iff, unclosedBrackets, List.map_eq_nil_iff,
    List.reverse_eq_nil_iff]
  by_cases hnil : (bracketsOfLines doc [] doc.numbered).1.flatten = []
  · simp [hnil]
  · simp [hnil]

end Check

/-! ### Documents -/

/-- Newlines between lines are no brackets. -/
theorem bracketMarks_joinWith (lines : List (List Char)) :
    bracketMarks (Text.joinWith '\n' lines) = lines.flatMap bracketMarks := by
  fun_induction Text.joinWith '\n' lines with
  | case1 => rfl
  | case2 line => rw [List.flatMap_singleton]
  | case3 line next rest ih =>
      have hnewline : BracketMark.ofChar? '\n' = none := rfl
      rw [List.flatMap_cons, ← ih, bracketMarks, List.filterMap_append,
        List.filterMap_cons_none hnewline, bracketMarks, bracketMarks]

theorem Document.bracketMarks_bareText (doc : Document) :
    bracketMarks doc.bareText = doc.numbered.flatMap fun line => bracketMarks line.1.bare := by
  have hlines : doc.lines = doc.numbered.map Prod.fst := by
    rw [numbered, List.zipIdx_map_fst]
  rw [bareText, bracketMarks_joinWith, hlines, List.map_map, List.flatMap_map]
  rfl

/-- The bracket matcher, having gone through all lines of a text, reports nothing
exactly if the brackets of its bare text are a well-nested word. -/
theorem brackets_eq_nil_iff_wellNested (text : String) :
    let doc := Document.ofText text.toList
    Check.brackets doc = [] ↔ WellNested (bracketMarks doc.bareText) := by
  intro doc
  rw [Check.brackets_eq_nil_iff, ← doc.bracketMarks_bareText, settle_eq_nil_iff]

end TradeScript
