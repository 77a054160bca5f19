import TradeScript.Check.Length
import TradeScript.Proofs.Word

/-!
# TradeScript.Proofs.Header

Lines that have the shape of a function's declaration. The check for long functions reads
them piece by piece, and every reader takes as much as it can. Here the shape is stated as
one split of the line (`IsHeader`), and the readers are shown to find it whenever there is
one (`startsFunction_iff`). The split need not be unique: a name can be cut in two, with its
front taken for an owner that has no colons behind it.
-/

namespace TradeScript.Check

open Scan
open Text (isBlank)

/-! ### The shape of a declaration -/

/-- A type that a function may return: one that is built in, or the name of a class. -/
def IsReturnType (type : List Char) : Prop :=
  String.ofList type ∈ "void" :: Vocabulary.valueTypes ∨
    isIdentifier type = true ∧ type.head?.any Char.isUpper = true

/-- What may stand before the name of a function: nothing, or the name of a class, perhaps
with two colons behind it. -/
def IsOwner (owner : List Char) : Prop :=
  owner = [] ∨ ∃ cls, isIdentifier cls = true ∧ (owner = cls ∨ owner = cls ++ [':', ':'])

/-- The line has the shape of a function's declaration: behind blanks there is a type, and
behind further blanks a name, perhaps one with an owner, and a parenthesis. -/
def IsHeader (bare : List Char) : Prop :=
  ∃ indent type gap owner name space rest,
    bare = indent ++ (type ++ (gap ++ (owner ++ (name ++ (space ++ '(' :: rest))))) ∧
      (∀ c ∈ indent, isBlank c = true) ∧ IsReturnType type ∧ gap ≠ [] ∧
      (∀ c ∈ gap, isBlank c = true) ∧ IsOwner owner ∧ isIdentifier name = true ∧
      ∀ c ∈ space, isBlank c = true

/-! ### Pieces of a header -/

theorem isIdentifier_of_isReturnType {type : List Char} (h : IsReturnType type) :
    isIdentifier type = true := by
  have hwords : ∀ word ∈ "void" :: Vocabulary.valueTypes, isIdentifier word.toList = true := by
    decide +kernel
  cases h with
  | inl h => simpa using hwords _ h
  | inr h => exact h.1

theorem returnType_eq_some_iff {cs type rest : List Char} :
    returnType cs = some (type, rest) ↔ identifier cs = some (type, rest) ∧ IsReturnType type := by
  simp only [returnType, oneOf, Option.or_none]
  constructor
  · intro h
    cases Option.or_eq_some_iff.mp h with
    | inl h =>
        obtain ⟨hread, htest⟩ := passing_eq_some_iff.mp h
        exact ⟨hread, .inl (List.contains_iff_mem.mp htest)⟩
    | inr h =>
        obtain ⟨hread, hupper⟩ := passing_eq_some_iff.mp h.2
        exact ⟨hread, .inr ⟨(identifier_eq_some_iff.mp hread).2.1, hupper⟩⟩
  · intro h
    obtain ⟨hread, htype⟩ := h
    by_cases hword : String.ofList type ∈ "void" :: Vocabulary.valueTypes
    · exact Option.or_eq_some_iff.mpr
        (.inl (passing_eq_some_iff.mpr ⟨hread, List.contains_iff_mem.mpr hword⟩))
    · have hnone : wordOf ("void" :: Vocabulary.valueTypes) cs = none := by
        rw [wordOf, passing, hread, Option.filter_some, if_neg]
        simpa using hword
      exact Option.or_eq_some_iff.mpr
        (.inr ⟨hnone, passing_eq_some_iff.mpr ⟨hread, (htype.resolve_left hword).2⟩⟩)

theorem qualifier_eq_some_iff {cs piece rest : List Char} :
    qualifier cs = some (piece, rest) ↔
      ∃ cls, isIdentifier cls = true ∧ piece = cls ++ [':', ':'] ∧ cs = piece ++ rest := by
  rw [qualifier, inTurn_cons_eq_some_iff]
  constructor
  · intro h
    obtain ⟨cls, mid, _, hcls, hmore, rfl⟩ := h
    obtain ⟨_, _, _, hcolons, hend, rfl⟩ := inTurn_cons_eq_some_iff.mp hmore
    obtain ⟨rfl, rfl⟩ := inTurn_nil_eq_some_iff.mp hend
    obtain ⟨rfl, rfl⟩ := exactly_eq_some_iff.mp hcolons
    obtain ⟨rfl, hcls, -⟩ := identifier_eq_some_iff.mp hcls
    exact ⟨cls, hcls, rfl, by simp⟩
  · intro h
    obtain ⟨cls, hcls, rfl, rfl⟩ := h
    refine ⟨cls, _, [':', ':'], ?_, inTurn_cons_eq_some_iff.mpr
      ⟨[':', ':'], rest, [], exactly_eq_some_iff.mpr ⟨rfl, rfl⟩, rfl, rfl⟩, rfl⟩
    rw [List.append_assoc]
    exact identifier_append hcls (by decide) _

theorem optional_eq_some_iff {r : Reader} {cs piece rest : List Char} :
    Scan.optional r cs = some (piece, rest) ↔
      r cs = some (piece, rest) ∨ r cs = none ∧ piece = [] ∧ rest = cs := by
  simp only [Scan.optional, oneOf, Option.or_none, Option.or_eq_some_iff, nothing_eq_some_iff]

theorem isIdentifier_append {cls name : List Char} (hcls : isIdentifier cls = true)
    (hname : isIdentifier name = true) : isIdentifier (cls ++ name) = true := by
  obtain ⟨c, cs, rfl, hstart, hparts⟩ := exists_cons_of_isIdentifier hcls
  rw [List.cons_append, isIdentifier, hstart, Bool.true_and, List.all_append,
    List.all_eq_true.mpr hparts, Bool.true_and, List.all_eq_true]
  exact forall_isNamePart_of_isIdentifier hname

/-- What the pattern of a header takes before the name: an owner with its colons, or nothing
where the name itself stands. -/
theorem optional_qualifier_eq_some {cs piece rest : List Char}
    (h : Scan.optional qualifier cs = some (piece, rest)) : IsOwner piece ∧ cs = piece ++ rest := by
  cases optional_eq_some_iff.mp h with
  | inl h =>
      obtain ⟨cls, hcls, hpiece, hcs⟩ := qualifier_eq_some_iff.mp h
      exact ⟨.inr ⟨cls, hcls, .inr hpiece⟩, hcs⟩
  | inr h =>
      obtain ⟨-, rfl, rfl⟩ := h
      exact ⟨.inl rfl, rfl⟩

theorem identifier_before_paren {name space rest : List Char} (hname : isIdentifier name = true)
    (hspace : ∀ c ∈ space, isBlank c = true) :
    identifier (name ++ (space ++ '(' :: rest)) = some (name, space ++ '(' :: rest) :=
  identifier_before_mark hname hspace (by decide) rest

/-- No colon stands between a name and its parenthesis. -/
theorem qualifier_eq_none {name space rest : List Char} (hname : isIdentifier name = true)
    (hspace : ∀ c ∈ space, isBlank c = true) :
    qualifier (name ++ (space ++ '(' :: rest)) = none := by
  have hcolons : exactly [':', ':'] (space ++ '(' :: rest) = none := by
    cases hread : exactly [':', ':'] (space ++ '(' :: rest) with
    | none => rfl
    | some taken =>
        obtain ⟨-, hsplit⟩ := exactly_eq_some_iff.mp hread
        cases space with
        | nil => exact absurd (List.cons.inj hsplit).1 (by decide)
        | cons c space =>
            have hblank := hspace c List.mem_cons_self
            rw [(List.cons.inj hsplit).1] at hblank
            exact absurd hblank (by decide)
  simp only [qualifier, inTurn, identifier_before_paren hname hspace, hcolons]
  rfl

/-- An owner without colons and the name behind it are read as one name. -/
theorem exists_optional_qualifier {owner name space : List Char} (howner : IsOwner owner)
    (hname : isIdentifier name = true) (hspace : ∀ c ∈ space, isBlank c = true)
    (rest : List Char) :
    ∃ piece name', isIdentifier name' = true ∧
      Scan.optional qualifier (owner ++ (name ++ (space ++ '(' :: rest))) =
        some (piece, name' ++ (space ++ '(' :: rest)) := by
  have hunowned : ∀ {name}, isIdentifier name = true →
      Scan.optional qualifier (name ++ (space ++ '(' :: rest)) =
        some ([], name ++ (space ++ '(' :: rest)) := fun hname =>
    optional_eq_some_iff.mpr (.inr ⟨qualifier_eq_none hname hspace, rfl, rfl⟩)
  cases howner with
  | inl h =>
      subst h
      exact ⟨[], name, hname, hunowned hname⟩
  | inr h =>
      obtain ⟨cls, hcls, h⟩ := h
      cases h with
      | inl h =>
          subst h
          have hboth := isIdentifier_append hcls hname
          refine ⟨[], owner ++ name, hboth, ?_⟩
          rw [← List.append_assoc]
          exact hunowned hboth
      | inr h =>
          refine ⟨owner, name, hname, optional_eq_some_iff.mpr (.inl ?_)⟩
          exact qualifier_eq_some_iff.mpr ⟨cls, hcls, h, rfl⟩

theorem exists_nameStart {owner name : List Char} (howner : IsOwner owner)
    (hname : isIdentifier name = true) (rest : List Char) :
    ∃ c cs, owner ++ (name ++ rest) = c :: cs ∧ isNameStart c = true := by
  cases howner with
  | inl h =>
      obtain ⟨c, cs, rfl, hstart, -⟩ := exists_cons_of_isIdentifier hname
      exact ⟨c, cs ++ rest, by simp [h], hstart⟩
  | inr h =>
      obtain ⟨cls, hcls, h⟩ := h
      obtain ⟨c, cs, rfl, hstart, -⟩ := exists_cons_of_isIdentifier hcls
      cases h with
      | inl h => exact ⟨c, cs ++ (name ++ rest), by simp [h], hstart⟩
      | inr h => exact ⟨c, cs ++ ([':', ':'] ++ (name ++ rest)), by simp [h], hstart⟩

/-- Blanks end where a name starts. -/
theorem blanks_before_name {space rest : List Char} {c : Char}
    (hspace : ∀ c ∈ space, isBlank c = true) (hc : isNameStart c = true) :
    manyOf isBlank (space ++ c :: rest) = some (space, c :: rest) := by
  refine manyOf_append (List.all_eq_true.mpr hspace) ?_ rest
  rw [Bool.eq_false_iff]
  intro hblank
  have hpart := isNamePart_of_isNameStart hc
  rw [isNamePart_of_isBlank hblank] at hpart
  exact absurd hpart Bool.false_ne_true

/-! ### Headers -/

/-- The readers take a line for a declaration exactly if it has the shape of one: each of
them stops where the next piece begins. -/
theorem startsFunction_iff {bare : List Char} : startsFunction bare = true ↔ IsHeader bare := by
  simp only [startsFunction, isSome_inTurn_cons_iff]
  constructor
  · intro h
    obtain ⟨indent, _, hindent, type, _, htype, space, _, hgap, owner, _, howner, name, _, hname,
      _, rest, hparen, -⟩ := h
    obtain ⟨rfl, hblank, -⟩ := manyOf_eq_some_iff.mp hindent
    obtain ⟨hread, hreturn⟩ := returnType_eq_some_iff.mp htype
    obtain ⟨rfl, -, -⟩ := identifier_eq_some_iff.mp hread
    obtain ⟨hne, hgapBlank⟩ := forall_of_someOf hgap
    obtain rfl := gap_faithful _ _ _ hgap
    obtain ⟨hisOwner, rfl⟩ := optional_qualifier_eq_some howner
    obtain ⟨rfl, hisName, -⟩ := identifier_eq_some_iff.mp hname
    obtain ⟨space', rfl, hspace, -⟩ := openParen_eq_some_iff.mp hparen
    exact ⟨indent, type, space, owner, name, space', rest, rfl, hblank, hreturn, hne, hgapBlank,
      hisOwner, hisName, hspace⟩
  · intro h
    obtain ⟨indent, type, space, owner, name, space', rest, rfl, hindent, hreturn, hne, hgap,
      howner, hname, hspace⟩ := h
    have htype := isIdentifier_of_isReturnType hreturn
    obtain ⟨piece, name', hname', hqualifier⟩ :=
      exists_optional_qualifier howner hname hspace rest
    have hparen : openParen (space' ++ '(' :: rest) = some (space' ++ ['('], rest) :=
      openParen_eq_some_iff.mpr ⟨space', rfl, hspace, rfl⟩
    have hreadType := identifier_before_blanks htype hne hgap
      (owner ++ (name ++ (space' ++ '(' :: rest)))
    have hreadGap : Scan.gap (space ++ (owner ++ (name ++ (space' ++ '(' :: rest)))) =
        some (space, owner ++ (name ++ (space' ++ '(' :: rest))) := by
      obtain ⟨c, cs, hcs, hstart⟩ := exists_nameStart howner hname (space' ++ '(' :: rest)
      rw [hcs]
      exact someOf_eq_some_iff.mpr ⟨hne, blanks_before_name hgap hstart⟩
    refine ⟨indent, _, ?_, type, _, returnType_eq_some_iff.mpr ⟨hreadType, hreturn⟩, space, _,
      hreadGap, piece, _, hqualifier, name', _, identifier_before_paren hname' hspace, _, _, hparen,
      rfl⟩
    obtain ⟨c, cs, rfl, hstart, -⟩ := exists_cons_of_isIdentifier htype
    exact blanks_before_name hindent hstart

end TradeScript.Check
