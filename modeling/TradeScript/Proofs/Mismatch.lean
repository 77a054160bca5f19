import TradeScript.Proofs.Extent
import TradeScript.Proofs.Repetition

/-!
# TradeScript.Proofs.Mismatch

Literals of the wrong type, and what hides them. A line may hold any number of
initialisations `type name = value`. Of each kind of literal the check looks at the first of
them on the line only, and a variable whose type is exempt is passed over after that. So a
mismatch is reported exactly if no exempt initialisation of its kind stands before it
(`mismatch_reported_iff`): one in front of it hides it.

Only colours have exempt types, so all other kinds are reported wherever they occur.
-/

namespace TradeScript

open Text (byteLength isBlank)
open Scan

namespace Check

/-! ### The patterns -/

namespace LiteralKind

/-- The types of the variables that are looked at. -/
def types : LiteralKind → List String
  | text => ["int", "double", "float", "char", "short", "long", "uchar", "ushort", "uint", "ulong"]
  | number => ["string"]
  | truth => ["string", "datetime", "color"]
  | color => ["int", "uint", "long", "ulong", "double", "float", "string", "bool", "datetime"]

/-- The types among them that may hold such a literal. -/
def exempt : LiteralKind → List String
  | color => ["int", "uint", "long", "ulong"]
  | _ => []

/-- The value is a literal of the kind, where `rest` stands behind it. -/
def IsLiteral : LiteralKind → (value rest : List Char) → Prop
  | text, value, _ => ∃ inside, value = '"' :: (inside ++ ['"']) ∧ '"' ∉ inside
  | number, value, _ => ∃ whole point fraction, value = whole ++ (point ++ fraction) ∧
      whole ≠ [] ∧ whole.all Char.isDigit = true ∧ (point = [] ∨ point = ['.']) ∧
      fraction.all Char.isDigit = true
  | truth, value, rest =>
      (value = "true".toList ∨ value = "false".toList) ∧ closesWord rest = true
  | color, value, rest => ∃ capital letters, value = "clr".toList ++ (capital :: letters) ∧
      capital.isUpper = true ∧ letters ≠ [] ∧ letters.all Char.isAlpha = true ∧
      closesWord rest = true

/-- An initialisation of a variable of the type by a literal of the kind stands in the text
behind `before`. -/
def Initialises (kind : LiteralKind) (text before : List Char) (type : String) : Prop :=
  ∃ space name left right value rest,
    text = before ++ (type.toList ++ (space ++ (name ++ (left ++ '=' ::
      (right ++ (value ++ rest)))))) ∧
    opensWord before.getLast? = true ∧ type ∈ kind.types ∧
    space ≠ [] ∧ (∀ c ∈ space, isBlank c = true) ∧ isIdentifier name = true ∧
    (∀ c ∈ left, isBlank c = true) ∧ (∀ c ∈ right, isBlank c = true) ∧ kind.IsLiteral value rest

/-- The reader of literals of the kind. -/
def reader : LiteralKind → Reader
  | text => textLiteral
  | number => numberLiteral
  | truth => truthLiteral
  | color => colorLiteral

/-- The check of literals of the kind. -/
def mismatch : LiteralKind → Mismatch
  | text => textMismatch
  | number => numberMismatch
  | truth => truthMismatch
  | color => colorMismatch

theorem pattern_mismatch (kind : LiteralKind) :
    kind.mismatch.pattern = initialising kind.types kind.reader := by
  cases kind <;> rfl

theorem mem_mismatches_iff {m : Mismatch} :
    m ∈ mismatches ↔ ∃ kind : LiteralKind, m = kind.mismatch := by
  simp only [mismatches, List.mem_cons, List.not_mem_nil, or_false]
  constructor
  · intro h
    rcases h with h | h | h | h
    · exact ⟨text, h⟩
    · exact ⟨number, h⟩
    · exact ⟨truth, h⟩
    · exact ⟨color, h⟩
  · intro h
    obtain ⟨kind, rfl⟩ := h
    cases kind <;> simp [mismatch]

theorem isIdentifier_of_mem_types {kind : LiteralKind} {type : String} (h : type ∈ kind.types) :
    isIdentifier type.toList = true := by
  have hall : ∀ t ∈ kind.types, isIdentifier t.toList = true := by
    cases kind <;> decide
  exact hall type h

end LiteralKind

/-! ### Literals as they are read -/

theorem isSome_someOf_iff {p : Char → Bool} {cs : List Char} :
    (someOf p cs).isSome = true ↔ ∃ c ∈ cs.head?, p c = true := by
  cases cs with
  | nil => simp [someOf]
  | cons c cs => by_cases hc : p c = true <;> simp [someOf, manyOf, hc]

theorem isSome_textLiteral_iff {cs : List Char} :
    (textLiteral cs).isSome = true ↔
      ∃ inside rest, cs = '"' :: (inside ++ '"' :: rest) ∧ '"' ∉ inside := by
  simp only [textLiteral, isSome_inTurn_cons_iff, exactly_eq_some_iff, manyOf_eq_some_iff]
  constructor
  · intro h
    obtain ⟨_, _, ⟨-, rfl⟩, inside, _, ⟨rfl, hinside, -⟩, _, rest, ⟨-, rfl⟩, -⟩ := h
    refine ⟨inside, rest, rfl, fun hquote => ?_⟩
    simpa using hinside '"' hquote
  · intro h
    obtain ⟨inside, rest, rfl, hinside⟩ := h
    refine ⟨_, _, ⟨rfl, rfl⟩, inside, '"' :: rest, ⟨rfl, fun c hc => ?_, by simp⟩, _, rest,
      ⟨rfl, rfl⟩, rfl⟩
    have hne : c ≠ '"' := fun heq => hinside (heq ▸ hc)
    simpa using hne

theorem optional_exactly_eq_some {piece cs taken rest : List Char}
    (h : Scan.optional (exactly piece) cs = some (taken, rest)) :
    (taken = [] ∨ taken = piece) ∧ cs = taken ++ rest := by
  cases optional_eq_some_iff.mp h with
  | inl h =>
      obtain ⟨rfl, hcs⟩ := exactly_eq_some_iff.mp h
      exact ⟨.inr rfl, hcs⟩
  | inr h =>
      obtain ⟨-, rfl, hcs⟩ := h
      exact ⟨.inl rfl, hcs.symm⟩

/-- Behind the first digits nothing can fail. -/
theorem isSome_numberLiteral {cs : List Char} (h : (someOf Char.isDigit cs).isSome = true) :
    (numberLiteral cs).isSome = true := by
  obtain ⟨⟨whole, mid⟩, hwhole⟩ := Option.isSome_iff_exists.mp h
  have hoptional : (Scan.optional (exactly ['.']) mid).isSome = true := by
    simp [Scan.optional, oneOf, nothing]
  obtain ⟨⟨point, mid'⟩, hpoint⟩ := Option.isSome_iff_exists.mp hoptional
  simp only [numberLiteral, isSome_inTurn_cons_iff]
  exact ⟨whole, mid, hwhole, point, mid', hpoint, _, _, rfl, rfl⟩

theorem isSome_numberLiteral_iff {cs : List Char} :
    (numberLiteral cs).isSome = true ↔
      ∃ value rest, cs = value ++ rest ∧ LiteralKind.number.IsLiteral value rest := by
  constructor
  · intro h
    simp only [numberLiteral, isSome_inTurn_cons_iff] at h
    obtain ⟨whole, _, hwhole, point, _, hpoint, fraction, rest, hfraction, -⟩ := h
    obtain ⟨hne, hdigits⟩ := forall_of_someOf hwhole
    obtain rfl := someOf_faithful _ _ _ _ hwhole
    obtain ⟨hisPoint, rfl⟩ := optional_exactly_eq_some hpoint
    obtain ⟨rfl, hdigits', -⟩ := manyOf_eq_some_iff.mp hfraction
    exact ⟨whole ++ (point ++ fraction), rest, by simp, whole, point, fraction, rfl, hne,
      List.all_eq_true.mpr hdigits, hisPoint, List.all_eq_true.mpr hdigits'⟩
  · intro h
    obtain ⟨value, rest, rfl, whole, point, fraction, rfl, hne, hdigits, -, -⟩ := h
    obtain ⟨c, more, rfl⟩ := List.exists_cons_of_ne_nil hne
    rw [List.all_cons, Bool.and_eq_true] at hdigits
    exact isSome_numberLiteral (isSome_someOf_iff.mpr ⟨c, rfl, hdigits.1⟩)

theorem isSome_truthLiteral_iff {cs : List Char} :
    (truthLiteral cs).isSome = true ↔
      ∃ value rest, cs = value ++ rest ∧ LiteralKind.truth.IsLiteral value rest := by
  simp only [truthLiteral, isSome_inTurn_cons_iff, wordEnd_eq_some_iff, oneOf, Option.or_none]
  constructor
  · intro h
    obtain ⟨value, rest, hvalue, _, _, ⟨hcloses, -, -⟩, -⟩ := h
    cases Option.or_eq_some_iff.mp hvalue with
    | inl h =>
        obtain ⟨rfl, hcs⟩ := exactly_eq_some_iff.mp h
        exact ⟨_, rest, hcs, .inl rfl, hcloses⟩
    | inr h =>
        obtain ⟨rfl, hcs⟩ := exactly_eq_some_iff.mp h.2
        exact ⟨_, rest, hcs, .inr rfl, hcloses⟩
  · intro h
    obtain ⟨value, rest, rfl, hvalue, hcloses⟩ := h
    refine ⟨value, rest, ?_, [], rest, ⟨hcloses, rfl, rfl⟩, rfl⟩
    cases hvalue with
    | inl hvalue =>
        subst hvalue
        exact Option.or_eq_some_iff.mpr (.inl (exactly_eq_some_iff.mpr ⟨rfl, rfl⟩))
    | inr hvalue =>
        subst hvalue
        refine Option.or_eq_some_iff.mpr (.inr ⟨?_, exactly_eq_some_iff.mpr ⟨rfl, rfl⟩⟩)
        rfl

theorem isNamePart_of_isAlpha {c : Char} (h : c.isAlpha = true) : isNamePart c = true :=
  isNamePart_of_isNameStart (by simp [isNameStart, h])

/-- A letter does not end a word, so the letters are read to the last. -/
theorem someOf_isAlpha_append {letters rest : List Char} (hne : letters ≠ [])
    (hletters : letters.all Char.isAlpha = true) (hcloses : closesWord rest = true) :
    someOf Char.isAlpha (letters ++ rest) = some (letters, rest) := by
  refine someOf_eq_some_iff.mpr ⟨hne, manyOf_eq_some_iff.mpr
    ⟨rfl, List.all_eq_true.mp hletters, fun c hc => ?_⟩⟩
  rw [Bool.eq_false_iff]
  intro halpha
  have hpart := isNamePart_of_closesWord hcloses c hc
  rw [isNamePart_of_isAlpha halpha] at hpart
  exact absurd hpart.symm Bool.false_ne_true

theorem isSome_colorLiteral_iff {cs : List Char} :
    (colorLiteral cs).isSome = true ↔
      ∃ value rest, cs = value ++ rest ∧ LiteralKind.color.IsLiteral value rest := by
  simp only [colorLiteral, isSome_inTurn_cons_iff, exactly_eq_some_iff, single_eq_some_iff,
    wordEnd_eq_some_iff]
  constructor
  · intro h
    obtain ⟨_, _, ⟨-, rfl⟩, _, _, ⟨capital, hcapital, -, rfl⟩, letters, rest, hletters, _, _,
      ⟨hcloses, -, -⟩, -⟩ := h
    obtain ⟨hne, halpha⟩ := forall_of_someOf hletters
    obtain rfl := someOf_faithful _ _ _ _ hletters
    exact ⟨"clr".toList ++ (capital :: letters), rest, by simp, capital, letters, rfl, hcapital,
      hne, List.all_eq_true.mpr halpha, hcloses⟩
  · intro h
    obtain ⟨value, rest, rfl, capital, letters, rfl, hcapital, hne, halpha, hcloses⟩ := h
    refine ⟨_, capital :: (letters ++ rest), ⟨rfl, by simp⟩, _, _, ⟨capital, hcapital, rfl, rfl⟩,
      letters, rest, someOf_isAlpha_append hne halpha hcloses, _, _, ⟨hcloses, rfl, rfl⟩, rfl⟩

namespace LiteralKind

variable {kind : LiteralKind}

/-- A literal is read wherever one stands. -/
theorem isSome_reader_iff {cs : List Char} :
    (kind.reader cs).isSome = true ↔
      ∃ value rest, cs = value ++ rest ∧ kind.IsLiteral value rest := by
  cases kind with
  | text =>
      refine isSome_textLiteral_iff.trans ⟨fun h => ?_, fun h => ?_⟩
      · obtain ⟨inside, rest, rfl, hinside⟩ := h
        exact ⟨'"' :: (inside ++ ['"']), rest, by simp, inside, rfl, hinside⟩
      · obtain ⟨value, rest, rfl, inside, rfl, hinside⟩ := h
        exact ⟨inside, rest, by simp, hinside⟩
  | number => exact isSome_numberLiteral_iff
  | truth => exact isSome_truthLiteral_iff
  | color => exact isSome_colorLiteral_iff

theorem IsLiteral.exists_cons {value rest : List Char} (h : kind.IsLiteral value rest) :
    ∃ c more, value = c :: more ∧ isBlank c = false := by
  cases kind with
  | text =>
      obtain ⟨inside, rfl, -⟩ := h
      exact ⟨_, _, rfl, by decide⟩
  | number =>
      obtain ⟨whole, point, fraction, rfl, hne, hdigits, -, -⟩ := h
      obtain ⟨c, more, rfl⟩ := List.exists_cons_of_ne_nil hne
      rw [List.all_cons, Bool.and_eq_true] at hdigits
      refine ⟨c, _, List.cons_append, ?_⟩
      rw [Bool.eq_false_iff]
      intro hblank
      have hpart := isNamePart_of_isBlank hblank
      simp [isNamePart, Char.isAlphanum, hdigits.1] at hpart
  | truth =>
      cases h.1 with
      | inl h => exact ⟨_, _, h, by decide⟩
      | inr h => exact ⟨_, _, h, by decide⟩
  | color =>
      obtain ⟨capital, letters, rfl, -⟩ := h
      exact ⟨_, _, rfl, by decide⟩

theorem IsLiteral.head_not_blank {value rest : List Char} (h : kind.IsLiteral value rest) :
    ∀ c ∈ (value ++ rest).head?, isBlank c = false := by
  obtain ⟨c, more, rfl, hc⟩ := h.exists_cons
  simpa using hc

/-- The sign of an assignment is read with the blanks around it. -/
theorem read_equals {left right cs : List Char} (hleft : ∀ c ∈ left, isBlank c = true)
    (hright : ∀ c ∈ right, isBlank c = true) (hcs : ∀ c ∈ cs.head?, isBlank c = false) :
    inTurn [blanks, exactly ['='], blanks] (left ++ '=' :: (right ++ cs)) =
      some (left ++ ('=' :: right), cs) := by
  refine inTurn_cons_eq_some_iff.mpr ⟨left, '=' :: (right ++ cs), '=' :: right, ?_,
    inTurn_cons_eq_some_iff.mpr ⟨['='], right ++ cs, right, ?_,
      inTurn_cons_eq_some_iff.mpr ⟨right, cs, [], ?_, rfl, by simp⟩, rfl⟩, rfl⟩
  · exact manyOf_append (List.all_eq_true.mpr hleft) (by decide) _
  · exact exactly_eq_some_iff.mpr ⟨rfl, rfl⟩
  · exact manyOf_eq_some_iff.mpr ⟨rfl, hright, hcs⟩

theorem of_read_equals {cs piece rest : List Char}
    (h : inTurn [blanks, exactly ['='], blanks] cs = some (piece, rest)) :
    ∃ left right, cs = left ++ '=' :: (right ++ rest) ∧ (∀ c ∈ left, isBlank c = true) ∧
      ∀ c ∈ right, isBlank c = true := by
  obtain ⟨left, _, _, hleft, h, -⟩ := inTurn_cons_eq_some_iff.mp h
  obtain ⟨_, _, _, hequals, h, -⟩ := inTurn_cons_eq_some_iff.mp h
  obtain ⟨right, _, _, hright, h, -⟩ := inTurn_cons_eq_some_iff.mp h
  obtain ⟨-, rfl⟩ := inTurn_nil_eq_some_iff.mp h
  obtain ⟨rfl, hblankLeft, -⟩ := manyOf_eq_some_iff.mp hleft
  obtain ⟨-, rfl⟩ := exactly_eq_some_iff.mp hequals
  obtain ⟨rfl, hblankRight, -⟩ := manyOf_eq_some_iff.mp hright
  exact ⟨left, right, rfl, hblankLeft, hblankRight⟩

/-- The pattern fits exactly where an initialisation stands. -/
theorem initialises_iff {text before : List Char} {type : String} :
    kind.Initialises text before type ↔ ∃ cs i, text = before ++ cs ∧
      kind.mismatch.pattern before.getLast? cs = some i ∧ String.ofList i.type = type := by
  rw [pattern_mismatch]
  constructor
  · intro h
    obtain ⟨space, name, left, right, value, rest, rfl, hopens, htype, hne, hspace, hname, hleft,
      hright, hliteral⟩ := h
    obtain ⟨⟨literal, after⟩, hread⟩ :=
      Option.isSome_iff_exists.mp (isSome_reader_iff.mpr ⟨value, rest, rfl, hliteral⟩)
    have hreadType := identifier_before_blanks (isIdentifier_of_mem_types htype) hne hspace
      (name ++ (left ++ '=' :: (right ++ (value ++ rest))))
    have hreadSpace : gap (space ++ (name ++ (left ++ '=' :: (right ++ (value ++ rest))))) =
        some (space, name ++ (left ++ '=' :: (right ++ (value ++ rest)))) := by
      obtain ⟨c, cs, rfl, hstart, -⟩ := exists_cons_of_isIdentifier hname
      exact someOf_eq_some_iff.mpr ⟨hne, blanks_before_name hspace hstart⟩
    have hreadName := identifier_before_mark hname hleft (show isNamePart '=' = false by decide)
      (right ++ (value ++ rest))
    have hreadEquals := read_equals hleft hright hliteral.head_not_blank
    refine ⟨_, ⟨type.toList ++ space ++ name ++ (left ++ '=' :: right), type.toList, name, literal⟩,
      rfl, ?_, String.ofList_toList⟩
    have hwordOf : wordOf kind.types (type.toList ++ (space ++ (name ++ (left ++ '=' ::
        (right ++ (value ++ rest)))))) = some (type.toList, _) :=
      passing_eq_some_iff.mpr ⟨hreadType, by simpa using htype⟩
    simp [initialising, hopens, hwordOf, hreadSpace, hreadName, hreadEquals, hread]
  · intro h
    obtain ⟨cs, i, rfl, hpattern, rfl⟩ := h
    obtain ⟨hopens, cs₁, space, cs₂, cs₃, equals, cs₄, cs₅, htype, hspace, hname, hequals, hliteral,
      -⟩ := initialising_eq_some hpattern
    obtain ⟨hread, hmem⟩ := passing_eq_some_iff.mp htype
    obtain ⟨rfl, -, -⟩ := identifier_eq_some_iff.mp hread
    obtain ⟨hne, hblank⟩ := forall_of_someOf hspace
    obtain rfl := gap_faithful _ _ _ hspace
    obtain ⟨rfl, hisName, -⟩ := identifier_eq_some_iff.mp hname
    obtain ⟨left, right, rfl, hleft, hright⟩ := of_read_equals hequals
    obtain ⟨value, rest, rfl, hisLiteral⟩ :=
      isSome_reader_iff.mp (Option.isSome_iff_exists.mpr ⟨_, hliteral⟩)
    exact ⟨space, i.name, left, right, value, rest, by rw [String.toList_ofList], hopens,
      by simpa using hmem, hne, hblank, hisName, hleft, hright, hisLiteral⟩

/-- What stands at a place is an initialisation of one type only. -/
theorem Initialises.type_eq {text before before' : List Char} {type type' : String}
    (h : kind.Initialises text before type) (h' : kind.Initialises text before' type')
    (hplace : byteLength before = byteLength before') : type = type' := by
  obtain ⟨cs, i, htext, hfound, rfl⟩ := initialises_iff.mp h
  obtain ⟨cs', i', htext', hfound', rfl⟩ := initialises_iff.mp h'
  obtain ⟨rfl, rfl⟩ := append_inj_of_byteLength (htext.symm.trans htext') hplace
  rw [Option.some.inj (hfound.symm.trans hfound')]

/-! ### The first initialisation of a line -/

/-- Where there is an initialisation, the search finds one at that place or before it. -/
theorem Initialises.exists_head? {text before : List Char} {type : String}
    (h : kind.Initialises text before type) :
    ∃ o, (occurrences kind.mismatch.pattern text).head? = some o ∧
      o.offset ≤ byteLength before := by
  obtain ⟨cs, i, rfl, hfound, -⟩ := initialises_iff.mp h
  have hne : cs ≠ [] := by
    intro hempty
    simp [hempty, pattern_mismatch, initialising, wordOf, passing, identifier] at hfound
  rw [← List.head?_reverse, ← List.append_nil before.reverse] at hfound
  obtain ⟨o, ho, hle⟩ := exists_head?_occurrencesFrom_le [] 0 hne hfound
  exact ⟨o, ho, Nat.zero_add (byteLength before) ▸ hle⟩

theorem exists_initialises_of_head? {text : List Char} {o : Occurrence Initialisation}
    (h : (occurrences kind.mismatch.pattern text).head? = some o) :
    ∃ before, kind.Initialises text before (String.ofList o.found.type) ∧
      o.offset = byteLength before := by
  obtain ⟨before, rest, htext, -, hoffset, hfound⟩ :=
    exists_match_of_mem_occurrences (List.mem_of_head? h)
  exact ⟨before, initialises_iff.mpr ⟨rest, o.found, htext, hfound, rfl⟩, hoffset⟩

theorem isSome_finding_iff {i : Initialisation} :
    (kind.mismatch.finding i).isSome = true ↔ String.ofList i.type ∉ kind.exempt := by
  cases kind with
  | text | number | truth => simp [mismatch, textMismatch, numberMismatch, truthMismatch, exempt]
  | color =>
      simp only [mismatch, colorMismatch, colorHolders, exempt, List.contains_eq_mem]
      split <;> simp_all

/-- One of the initialisations of the kind in the text is not exempt, and none before it
is. -/
def Shows (kind : LiteralKind) (text : List Char) : Prop :=
  ∃ before type, kind.Initialises text before type ∧ type ∉ kind.exempt ∧
    ∀ before' type', kind.Initialises text before' type' →
      byteLength before' < byteLength before → type' ∉ kind.exempt

/-- The first initialisation decides: it is exempt, or it is reported. -/
theorem isSome_mismatchOfLine_iff {doc : Document} {line : Line} {number : Nat} :
    (mismatchOfLine doc line number kind.mismatch).isSome = true ↔ kind.Shows line.bare := by
  have hfirst : (mismatchOfLine doc line number kind.mismatch).isSome = true ↔
      ∃ o, (occurrences kind.mismatch.pattern line.bare).head? = some o ∧
        String.ofList o.found.type ∉ kind.exempt := by
    simp only [mismatchOfLine, ← isSome_finding_iff, Option.bind_eq_bind, Option.isSome_bind,
      Option.any_eq_true, Option.isSome_some, Option.isSome_iff_exists, and_true]
  rw [hfirst]
  constructor
  · intro h
    obtain ⟨o, ho, hexempt⟩ := h
    obtain ⟨before, hinitialises, hoffset⟩ := exists_initialises_of_head? ho
    refine ⟨before, _, hinitialises, hexempt, fun before' type' hother hlt => ?_⟩
    obtain ⟨o', ho', hle⟩ := hother.exists_head?
    obtain rfl := Option.some.inj (ho.symm.trans ho')
    omega
  · intro h
    obtain ⟨before, type, hinitialises, hexempt, hbefore⟩ := h
    obtain ⟨o, ho, hle⟩ := hinitialises.exists_head?
    obtain ⟨first, hfirst, hoffset⟩ := exists_initialises_of_head? ho
    refine ⟨o, ho, ?_⟩
    cases Nat.lt_or_eq_of_le (hoffset ▸ hle) with
    | inl hlt => exact hbefore _ _ hfirst hlt
    | inr heq => exact hfirst.type_eq hinitialises heq ▸ hexempt

end LiteralKind

end Check

/-! ### Diagnostics of a kind -/

/-- The kind of literal that a finding is about. -/
def Finding.literalKind? : Finding → Option Check.LiteralKind
  | textForNumber _ _ => some .text
  | numberForText _ _ => some .number
  | truthForOther _ _ => some .truth
  | colorForOther _ _ => some .color
  | _ => none

namespace Check

namespace LiteralKind

/-- The words with which messages about literals of the kind begin. -/
def opening : LiteralKind → String
  | text => "Cannot assign string value to "
  | number => "Numeric value "
  | truth => "Cannot assign boolean value to "
  | color => "Cannot assign color value to "

variable {kind : LiteralKind}

theorem append_wording (a b c d e : String) : a ++ b ++ c ++ d ++ e = a ++ (b ++ c ++ d ++ e) := by
  simp only [String.append_assoc]

theorem exists_message_eq {f : Finding} (h : f.literalKind? = some kind) :
    ∃ rest, f.message = kind.opening ++ rest := by
  cases f with
  | textForNumber type name =>
      obtain rfl := Option.some.inj h
      exact ⟨_, append_wording "Cannot assign string value to " type " variable '" name "'"⟩
  | numberForText value name =>
      obtain rfl := Option.some.inj h
      exact ⟨_, append_wording "Numeric value " value
        " should be enclosed in quotes for string variable '" name "'"⟩
  | truthForOther type name =>
      obtain rfl := Option.some.inj h
      exact ⟨_, append_wording "Cannot assign boolean value to " type " variable '" name "'"⟩
  | colorForOther type name =>
      obtain rfl := Option.some.inj h
      exact ⟨_, append_wording "Cannot assign color value to " type " variable '" name "'"⟩
  | _ => exact absurd h (by simp [Finding.literalKind?])

/-- No message of one kind begins like those of another, so messages tell the kind. -/
theorem eq_of_message_eq {kind' : LiteralKind} {f g : Finding} (hf : f.literalKind? = some kind)
    (hg : g.literalKind? = some kind') (h : f.message = g.message) : kind = kind' := by
  obtain ⟨rest, hf⟩ := exists_message_eq hf
  obtain ⟨rest', hg⟩ := exists_message_eq hg
  have hlist := congrArg String.toList (hf.symm.trans (h.trans hg))
  rw [String.toList_append, String.toList_append] at hlist
  have hother : kind'.opening.toList <+: kind.opening.toList ++ rest.toList := by
    rw [hlist]
    exact List.prefix_append _ _
  have hopening := List.prefix_or_prefix_of_prefix (List.prefix_append _ _) hother
  revert hopening
  cases kind <;> cases kind' <;> decide

theorem literalKind?_of_finding {i : Initialisation} {f : Finding}
    (h : kind.mismatch.finding i = some f) : f.literalKind? = some kind := by
  cases kind with
  | text | number | truth => exact Option.some.inj h ▸ rfl
  | color =>
      simp only [mismatch, colorMismatch] at h
      split at h
      · simp at h
      · exact Option.some.inj h ▸ rfl

end LiteralKind

variable {doc : Document} {line : Line} {number : Nat} {kind : LiteralKind}

/-- What is reported on a line. -/
def mismatchesAt (doc : Document) (number : Nat) : List Diagnostic :=
  match doc.lines[number]? with
  | some line => mismatches.filterMap (mismatchOfLine doc line number)
  | none => []

/-- What is reported is what is reported line by line. -/
theorem typeMismatches_eq_flatMap (doc : Document) :
    typeMismatches doc = (List.range doc.lineCount).flatMap (mismatchesAt doc) := by
  rw [typeMismatches, List.flatMap_def, List.flatMap_def]
  congr 1
  apply List.ext_getElem
  · simp [Document.numbered, Document.lineCount]
  · intro number hlt _
    have hline : number < doc.lines.length := by simpa [Document.numbered] using hlt
    simp [mismatchesAt, Document.numbered, hline]

/-- On the line, a diagnostic about a literal of the kind is reported. -/
def ReportsMismatch (doc : Document) (kind : LiteralKind) (number : Nat) : Prop :=
  ∃ d ∈ mismatchesAt doc number,
    ∃ f : Finding, f.literalKind? = some kind ∧ d.message = f.message

theorem mem_mismatchesAt_iff {d : Diagnostic} :
    d ∈ mismatchesAt doc number ↔ ∃ line, (line, number) ∈ doc.numbered ∧
      ∃ kind : LiteralKind, mismatchOfLine doc line number kind.mismatch = some d := by
  simp only [Document.mem_numbered, mismatchesAt]
  cases doc.lines[number]? with
  | none => simp
  | some line =>
      simp only [List.mem_filterMap, LiteralKind.mem_mismatches_iff, Option.some.injEq,
        exists_eq_left']
      constructor
      · intro h
        obtain ⟨m, ⟨kind, rfl⟩, hd⟩ := h
        exact ⟨kind, hd⟩
      · intro h
        obtain ⟨kind, hd⟩ := h
        exact ⟨_, ⟨kind, rfl⟩, hd⟩

theorem of_mismatchOfLine {d : Diagnostic}
    (h : mismatchOfLine doc line number kind.mismatch = some d) :
    d.range.start.line = .ofNatClamp number ∧
      ∃ f : Finding, f.literalKind? = some kind ∧ d.message = f.message := by
  simp only [mismatchOfLine, Option.bind_eq_bind, Option.bind_eq_some_iff, Option.some.injEq] at h
  obtain ⟨o, -, f, hf, rfl⟩ := h
  exact ⟨rfl, f, LiteralKind.literalKind?_of_finding hf, rfl⟩

theorem LiteralKind.not_shows_nil : ¬ kind.Shows [] := by
  intro h
  obtain ⟨before, type, hinitialises, -⟩ := h
  obtain ⟨o, ho, -⟩ := hinitialises.exists_head?
  simp [occurrences, occurrencesFrom] at ho

/-- What is reported on a line about a kind comes from the check of that kind. -/
theorem reportsMismatch_iff :
    ReportsMismatch doc kind number ↔ kind.Shows (doc.bareLine number) := by
  constructor
  · intro h
    obtain ⟨d, hd, f, hf, hmessage⟩ := h
    obtain ⟨line, hline, kind', hd⟩ := mem_mismatchesAt_iff.mp hd
    obtain ⟨-, f', hf', hmessage'⟩ := of_mismatchOfLine hd
    obtain rfl := LiteralKind.eq_of_message_eq hf hf' (hmessage.symm.trans hmessage')
    rw [Document.bareLine_of_mem hline]
    exact LiteralKind.isSome_mismatchOfLine_iff.mp (Option.isSome_iff_exists.mpr ⟨d, hd⟩)
  · intro h
    by_cases hlt : number < doc.lineCount
    · have hline := Document.mem_numbered.mpr (List.getElem?_eq_getElem hlt)
      rw [Document.bareLine_of_mem hline] at h
      obtain ⟨d, hd⟩ :=
        Option.isSome_iff_exists.mp (LiteralKind.isSome_mismatchOfLine_iff.mpr h)
      exact ⟨d, mem_mismatchesAt_iff.mpr ⟨_, hline, kind, hd⟩, (of_mismatchOfLine hd).2⟩
    · rw [Document.bareLine_of_le (Nat.le_of_not_lt hlt)] at h
      exact absurd h LiteralKind.not_shows_nil

end Check

/-- What is reported is reported line by line, and a line gets a diagnostic of a kind exactly
if a mismatch of the kind stands on it with no exempt initialisation before it. Only colours
have exempt types, so for all other kinds any initialisation will do. -/
theorem mismatch_reported_iff (text : String) :
    let doc := Document.ofText text.toList
    Check.typeMismatches doc = (List.range doc.lineCount).flatMap (Check.mismatchesAt doc) ∧
      (∀ number, ∀ d ∈ Check.mismatchesAt doc number, d.range.start.line = .ofNatClamp number) ∧
      ∀ (kind : Check.LiteralKind) (number : Nat),
        let bare := doc.bareLine number
        (Check.ReportsMismatch doc kind number ↔
          ∃ before type, kind.Initialises bare before type ∧ type ∉ kind.exempt ∧
            ∀ before' type', kind.Initialises bare before' type' →
              byteLength before' < byteLength before → type' ∉ kind.exempt) ∧
        (kind ≠ .color →
          (Check.ReportsMismatch doc kind number ↔
            ∃ before type, kind.Initialises bare before type)) := by
  intro doc
  refine ⟨Check.typeMismatches_eq_flatMap doc, fun number d hd => ?_, fun kind number => ?_⟩
  · obtain ⟨line, -, kind, hd⟩ := Check.mem_mismatchesAt_iff.mp hd
    exact (Check.of_mismatchOfLine hd).1
  · intro bare
    have hshows : Check.ReportsMismatch doc kind number ↔ kind.Shows bare :=
      Check.reportsMismatch_iff
    refine ⟨hshows, fun hkind => hshows.trans ⟨fun h => ?_, fun h => ?_⟩⟩
    · obtain ⟨before, type, hinitialises, -⟩ := h
      exact ⟨before, type, hinitialises⟩
    · have hnone : kind.exempt = [] := by
        cases kind with
        | color => exact absurd rfl hkind
        | text | number | truth => rfl
      obtain ⟨before, type, hinitialises⟩ := h
      refine ⟨before, type, hinitialises, ?_, fun _ _ _ _ => ?_⟩ <;> simp [hnone]

/-- A colour that an integer may hold hides the one behind it: nothing is reported. -/
theorem color_mismatch_hidden :
    let doc := Document.ofText "int a = clrRed; double b = clrRed;".toList
    let bare := doc.bareLine 0
    Check.LiteralKind.color.Initialises bare "int a = clrRed; ".toList "double" ∧
      "double" ∉ Check.LiteralKind.color.exempt ∧ Check.typeMismatches doc = [] := by
  intro doc bare
  have hspace : ∀ c ∈ [' '], isBlank c = true := List.all_eq_true.mp (by decide)
  refine ⟨⟨[' '], ['b'], [' '], [' '], "clrRed".toList, [';'], ?_, by decide, by decide, by decide,
    hspace, by decide, hspace, hspace, ?_⟩, by decide, ?_⟩
  · decide +kernel
  · exact ⟨'R', ['e', 'd'], by decide, by decide, by decide, by decide, by decide⟩
  · decide +kernel

end TradeScript
