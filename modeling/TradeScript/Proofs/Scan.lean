import TradeScript.Proofs.Location
import TradeScript.Scan.Declaration

/-!
# TradeScript.Proofs.Scan

What recognisers find. A recogniser is faithful if what it matched stands at the
front of the text it was asked about (`Recogniser.Faithful`), and it names tokens
if the names it gives are tokens. From these two follows what every check of
names relies on: the name of an occurrence stands in the text at the offset the
occurrence says (`exists_append_of_mem_occurrences`).

The laws of readers are `simp` lemmas, so that a recogniser put together from
readers is shown faithful by naming its parts.
-/

namespace TradeScript.Scan

open Text (byteLength byteLength_append byteLength_cons)

/-! ### Readers -/

attribute [simp] nothing_faithful wordEnd_faithful single_faithful manyOf_faithful someOf_faithful
  identifier_faithful exactly_faithful passing_faithful wordOf_faithful inTurn_faithful
  oneOf_faithful

@[simp] theorem blanks_faithful : blanks.Faithful :=
  manyOf_faithful Text.isBlank

@[simp] theorem gap_faithful : gap.Faithful :=
  someOf_faithful Text.isBlank

@[simp] theorem openParen_faithful : openParen.Faithful := by
  simp [openParen]

@[simp] theorem className_faithful : className.Faithful :=
  passing_faithful identifier_faithful

/-- A reader that takes tokens only. -/
def Reader.TakesToken (r : Reader) : Prop :=
  ∀ cs piece rest, r cs = some (piece, rest) → IsToken piece

/-- A run of characters of a class is a token, if blanks are not in the class. -/
theorem isToken_takeWhile {p : Char → Bool} {c : Char} (cs : List Char) (hc : p c = true)
    (hs : p ' ' = false) (hn : p '\n' = false) : IsToken ((c :: cs).takeWhile p) where
  ne_nil := by
    rw [List.takeWhile_cons, if_pos hc]
    exact List.cons_ne_nil _ _
  no_space h := by
    have := List.all_eq_true.mp List.all_takeWhile ' ' h
    rw [hs] at this
    exact absurd this Bool.false_ne_true
  no_newline h := by
    have := List.all_eq_true.mp List.all_takeWhile '\n' h
    rw [hn] at this
    exact absurd this Bool.false_ne_true

theorem someOf_takesToken {p : Char → Bool} (hs : p ' ' = false) (hn : p '\n' = false) :
    (someOf p).TakesToken := by
  intro cs piece rest h
  unfold someOf at h
  split at h
  · simp at h
  · rename_i c cs
    split at h
    · rename_i hc
      simp only [manyOf, Option.some.injEq, Prod.mk.injEq] at h
      exact h.1 ▸ isToken_takeWhile cs hc hs hn
    · simp at h

theorem isNamePart_of_isNameStart {c : Char} (h : isNameStart c = true) : isNamePart c = true := by
  simp only [isNameStart, Bool.or_eq_true] at h
  simp only [isNamePart, Char.isAlphanum, Bool.or_eq_true]
  rcases h with h | h
  · exact Or.inl (Or.inl h)
  · exact Or.inr h

theorem identifier_takesToken : identifier.TakesToken := by
  intro cs piece rest h
  unfold identifier at h
  split at h
  · simp at h
  · rename_i c cs
    split at h
    · rename_i hc
      simp only [manyOf, Option.some.injEq, Prod.mk.injEq] at h
      exact h.1 ▸ isToken_takeWhile cs (isNamePart_of_isNameStart hc) (by decide) (by decide)
    · simp at h

theorem passing_takesToken {test : List Char → Bool} {r : Reader} (hr : r.TakesToken) :
    (passing test r).TakesToken := by
  intro cs piece rest h
  simp only [passing, Option.filter_eq_some_iff] at h
  exact hr cs piece rest h.1

/-! ### What readers take -/

theorem after?_eq_some_iff {piece cs rest : List Char} :
    Text.after? piece cs = some rest ↔ cs = piece ++ rest := by
  unfold Text.after?
  constructor
  · intro h
    split at h
    · rename_i hprefix
      obtain ⟨more, rfl⟩ := List.isPrefixOf_iff_prefix.mp hprefix
      rw [List.drop_left, Option.some.injEq] at h
      rw [h]
    · simp at h
  · rintro rfl
    rw [if_pos (List.isPrefixOf_iff_prefix.mpr (List.prefix_append _ _)), List.drop_left]

theorem exactly_eq_some_iff {piece cs taken rest : List Char} :
    exactly piece cs = some (taken, rest) ↔ taken = piece ∧ cs = piece ++ rest := by
  rw [exactly, Option.map_eq_some_iff]
  constructor
  · rintro ⟨_, h, heq⟩
    obtain ⟨rfl, rfl⟩ := Prod.mk.inj heq
    exact ⟨rfl, after?_eq_some_iff.mp h⟩
  · rintro ⟨rfl, rfl⟩
    exact ⟨rest, after?_eq_some_iff.mpr rfl, rfl⟩

theorem nothing_eq_some_iff {cs taken rest : List Char} :
    nothing cs = some (taken, rest) ↔ taken = [] ∧ rest = cs := by
  rw [nothing, Option.some.injEq, Prod.mk.injEq, eq_comm, eq_comm (a := cs)]

theorem inTurn_nil_eq_some_iff {cs taken rest : List Char} :
    inTurn [] cs = some (taken, rest) ↔ taken = [] ∧ rest = cs :=
  nothing_eq_some_iff

theorem inTurn_cons_eq_some_iff {r : Reader} {rs : List Reader} {cs taken rest : List Char} :
    inTurn (r :: rs) cs = some (taken, rest) ↔
      ∃ piece mid more, r cs = some (piece, mid) ∧ inTurn rs mid = some (more, rest) ∧
        taken = piece ++ more := by
  simp only [inTurn]
  constructor
  · intro h
    split at h
    · simp at h
    · rename_i piece mid hpiece
      obtain ⟨⟨more, rest'⟩, hmore, heq⟩ := Option.map_eq_some_iff.mp h
      obtain ⟨rfl, rfl⟩ := Prod.mk.inj heq
      exact ⟨piece, mid, more, hpiece, hmore, rfl⟩
  · rintro ⟨piece, mid, more, hpiece, hmore, rfl⟩
    rw [hpiece]
    exact Option.map_eq_some_iff.mpr ⟨_, hmore, rfl⟩

theorem exists_of_inTurn_append {rs rs' : List Reader} {cs taken rest : List Char}
    (h : inTurn (rs ++ rs') cs = some (taken, rest)) :
    ∃ piece mid more, inTurn rs cs = some (piece, mid) ∧ inTurn rs' mid = some (more, rest) ∧
      taken = piece ++ more := by
  induction rs generalizing cs taken with
  | nil => exact ⟨[], cs, taken, rfl, h, rfl⟩
  | cons r rs ih =>
      obtain ⟨first, mid, _, hfirst, hlater, rfl⟩ := inTurn_cons_eq_some_iff.mp h
      obtain ⟨piece, mid', more, hpiece, hmore, rfl⟩ := ih hlater
      refine ⟨first ++ piece, mid', more, ?_, hmore, (List.append_assoc ..).symm⟩
      exact inTurn_cons_eq_some_iff.mpr ⟨first, mid, piece, hfirst, hpiece, rfl⟩

theorem isSome_inTurn_cons_iff {r : Reader} {rs : List Reader} {cs : List Char} :
    (inTurn (r :: rs) cs).isSome = true ↔
      ∃ piece mid, r cs = some (piece, mid) ∧ (inTurn rs mid).isSome = true := by
  simp only [inTurn]
  cases r cs with
  | none => simp
  | some taken =>
      rw [Option.isSome_map]
      constructor
      · exact fun h => ⟨taken.1, taken.2, rfl, h⟩
      · rintro ⟨piece, mid, heq, h⟩
        rw [Option.some.inj heq]
        exact h

theorem single_eq_some_iff {p : Char → Bool} {cs taken rest : List Char} :
    single p cs = some (taken, rest) ↔ ∃ c, p c = true ∧ taken = [c] ∧ cs = c :: rest := by
  cases cs with
  | nil => simp [single]
  | cons c cs => grind [single]

theorem manyOf_eq_some_iff {p : Char → Bool} {cs piece rest : List Char} :
    manyOf p cs = some (piece, rest) ↔
      cs = piece ++ rest ∧ (∀ c ∈ piece, p c = true) ∧ ∀ c ∈ rest.head?, p c = false := by
  rw [manyOf, Option.some.injEq, Prod.mk.injEq]
  constructor
  · rintro ⟨rfl, rfl⟩
    refine ⟨List.takeWhile_append_dropWhile.symm, List.all_eq_true.mp List.all_takeWhile, ?_⟩
    intro c hc
    have hstop := List.head?_dropWhile_not p cs
    rw [Option.mem_def.mp hc] at hstop
    simpa using hstop
  · rintro ⟨rfl, hpiece, hrest⟩
    rw [List.takeWhile_append_of_pos hpiece, List.dropWhile_append_of_pos hpiece]
    cases rest with
    | nil => simp
    | cons c rest => simp [hrest c rfl]

/-- A run of characters of a class ends where the class does. -/
theorem manyOf_append {p : Char → Bool} {front : List Char} (hfront : front.all p = true) {c : Char}
    (hc : p c = false) (rest : List Char) :
    manyOf p (front ++ c :: rest) = some (front, c :: rest) := by
  refine manyOf_eq_some_iff.mpr ⟨rfl, List.all_eq_true.mp hfront, ?_⟩
  rintro d ⟨⟩
  exact hc

theorem someOf_eq_some_iff {p : Char → Bool} {cs piece rest : List Char} :
    someOf p cs = some (piece, rest) ↔ piece ≠ [] ∧ manyOf p cs = some (piece, rest) := by
  cases cs with
  | nil => grind [someOf, manyOf, List.takeWhile_nil]
  | cons c cs => grind [someOf, manyOf, List.takeWhile_cons]

theorem forall_of_someOf {p : Char → Bool} {cs piece rest : List Char}
    (h : someOf p cs = some (piece, rest)) : piece ≠ [] ∧ ∀ c ∈ piece, p c = true :=
  (someOf_eq_some_iff.mp h).imp_right fun h => (manyOf_eq_some_iff.mp h).2.1

theorem exists_cons_of_isIdentifier {name : List Char} (h : isIdentifier name = true) :
    ∃ c cs, name = c :: cs ∧ isNameStart c = true ∧ ∀ d ∈ cs, isNamePart d = true := by
  cases name with
  | nil => simp [isIdentifier] at h
  | cons c cs =>
      rw [isIdentifier, Bool.and_eq_true] at h
      exact ⟨c, cs, rfl, h.1, List.all_eq_true.mp h.2⟩

theorem forall_isNamePart_of_isIdentifier {name : List Char} (h : isIdentifier name = true) :
    ∀ c ∈ name, isNamePart c = true := by
  obtain ⟨c, cs, rfl, hstart, hparts⟩ := exists_cons_of_isIdentifier h
  exact List.forall_mem_cons.mpr ⟨isNamePart_of_isNameStart hstart, hparts⟩

/-- A name is an identifier that is read as far as it goes. -/
theorem identifier_eq_some_iff {cs name rest : List Char} :
    identifier cs = some (name, rest) ↔
      cs = name ++ rest ∧ isIdentifier name = true ∧ ∀ c ∈ rest.head?, isNamePart c = false := by
  constructor
  · intro h
    unfold identifier at h
    split at h
    · simp at h
    · rename_i c cs
      split at h
      · rename_i hstart
        obtain ⟨hcs, hparts, hrest⟩ := manyOf_eq_some_iff.mp h
        refine ⟨hcs, ?_, hrest⟩
        cases name with
        | nil => simp [manyOf, isNamePart_of_isNameStart hstart] at h
        | cons d name =>
            obtain ⟨rfl, -⟩ := List.cons.inj hcs
            rw [isIdentifier, hstart, Bool.true_and, List.all_eq_true]
            exact (List.forall_mem_cons.mp hparts).2
      · simp at h
  · rintro ⟨rfl, hname, hrest⟩
    have hparts := forall_isNamePart_of_isIdentifier hname
    obtain ⟨c, name, rfl, hstart, -⟩ := exists_cons_of_isIdentifier hname
    rw [List.cons_append, identifier, if_pos hstart, ← List.cons_append]
    exact manyOf_eq_some_iff.mpr ⟨rfl, hparts, hrest⟩

theorem forall_of_identifier {cs piece rest : List Char}
    (h : identifier cs = some (piece, rest)) : ∀ c ∈ piece, isNamePart c = true :=
  forall_isNamePart_of_isIdentifier (identifier_eq_some_iff.mp h).2.1

theorem identifier_append {word : List Char} (hword : isIdentifier word = true) {c : Char}
    (hc : isNamePart c = false) (rest : List Char) :
    identifier (word ++ c :: rest) = some (word, c :: rest) := by
  refine identifier_eq_some_iff.mpr ⟨rfl, hword, ?_⟩
  rintro d ⟨⟩
  exact hc

theorem openParen_eq_some_iff {cs taken rest : List Char} :
    openParen cs = some (taken, rest) ↔
      ∃ space, cs = space ++ '(' :: rest ∧ (∀ c ∈ space, Text.isBlank c = true) ∧
        taken = space ++ ['('] := by
  rw [openParen, inTurn_cons_eq_some_iff]
  constructor
  · rintro ⟨space, mid, paren, hspace, hparen, rfl⟩
    obtain ⟨piece, mid', none, hpiece, hnone, rfl⟩ := inTurn_cons_eq_some_iff.mp hparen
    obtain ⟨rfl, rfl⟩ := inTurn_nil_eq_some_iff.mp hnone
    obtain ⟨rfl, rfl⟩ := exactly_eq_some_iff.mp hpiece
    obtain ⟨rfl, hblank, -⟩ := manyOf_eq_some_iff.mp hspace
    exact ⟨space, rfl, hblank, rfl⟩
  · rintro ⟨space, rfl, hblank, rfl⟩
    refine ⟨space, '(' :: rest, ['('], ?_, ?_, rfl⟩
    · exact manyOf_append (List.all_eq_true.mpr hblank) (by decide) rest
    · exact inTurn_cons_eq_some_iff.mpr
        ⟨['('], rest, [], exactly_eq_some_iff.mpr ⟨rfl, rfl⟩, rfl, rfl⟩

theorem passing_eq_some_iff {test : List Char → Bool} {r : Reader} {cs piece rest : List Char} :
    passing test r cs = some (piece, rest) ↔ r cs = some (piece, rest) ∧ test piece = true := by
  rw [passing, Option.filter_eq_some_iff]

/-! ### Recognisers -/

/-- A recogniser that matches what stands at the front. -/
def Recogniser.Faithful {α : Type} [Matched α] (r : Recogniser α) : Prop :=
  ∀ previous cs found, r previous cs = some found → Matched.text found <+: cs

/-- A recogniser that gives tokens as names. -/
def Recogniser.NamesToken (r : Recogniser Found) : Prop :=
  ∀ previous cs found, r previous cs = some found → IsToken found.name

/-- A match of `naming` is what its three readers take in turn. -/
theorem naming_eq_some {lead name trail : Reader} {cs : List Char} {found : Found}
    (h : naming lead name trail cs = some found) :
    ∃ cs₁ cs₂ cs₃, lead cs = some (found.lead, cs₁) ∧ name cs₁ = some (found.name, cs₂) ∧
      trail cs₂ = some (found.trail, cs₃) := by
  unfold naming at h
  split at h
  · simp at h
  · rename_i l cs₁ hl
    split at h
    · simp at h
    · rename_i n cs₂ hn
      simp only [Option.map_eq_some_iff] at h
      obtain ⟨⟨t, cs₃⟩, ht, rfl⟩ := h
      exact ⟨cs₁, cs₂, cs₃, hl, hn, ht⟩

theorem naming_of_readers {lead name trail : Reader} {cs cs₁ cs₂ cs₃ : List Char} {found : Found}
    (hl : lead cs = some (found.lead, cs₁)) (hn : name cs₁ = some (found.name, cs₂))
    (ht : trail cs₂ = some (found.trail, cs₃)) : naming lead name trail cs = some found := by
  simp only [naming, hl, hn, ht, Option.map_some]

theorem naming_prefix {lead name trail : Reader} {cs : List Char} {found : Found}
    (hl : lead.Faithful) (hn : name.Faithful) (ht : trail.Faithful)
    (h : naming lead name trail cs = some found) : Matched.text found <+: cs := by
  obtain ⟨cs₁, cs₂, cs₃, h₁, h₂, h₃⟩ := naming_eq_some h
  refine ⟨cs₃, ?_⟩
  calc Matched.text found ++ cs₃
      = found.lead ++ (found.name ++ (found.trail ++ cs₃)) := by
        simp only [Matched.text, List.append_assoc]
    _ = found.lead ++ (found.name ++ cs₂) := by rw [ht _ _ _ h₃]
    _ = found.lead ++ cs₁ := by rw [hn _ _ _ h₂]
    _ = cs := hl _ _ _ h₁

theorem naming_isToken {lead name trail : Reader} {cs : List Char} {found : Found}
    (hn : name.TakesToken) (h : naming lead name trail cs = some found) : IsToken found.name := by
  obtain ⟨_, _, _, -, hname, -⟩ := naming_eq_some h
  exact hn _ _ _ hname

theorem wordNaming_eq_some {lead trail : Reader} {previous : Option Char} {cs : List Char}
    {found : Found} (h : wordNaming lead trail previous cs = some found) :
    opensWord previous = true ∧ naming lead identifier trail cs = some found := by
  unfold wordNaming at h
  split at h
  · exact ⟨‹_›, h⟩
  · simp at h

theorem wordNaming_faithful {lead trail : Reader} (hl : lead.Faithful) (ht : trail.Faithful) :
    (wordNaming lead trail).Faithful := by
  intro previous cs found h
  exact naming_prefix hl identifier_faithful ht (wordNaming_eq_some h).2

theorem wordNaming_namesToken (lead trail : Reader) : (wordNaming lead trail).NamesToken := by
  intro previous cs found h
  exact naming_isToken identifier_takesToken (wordNaming_eq_some h).2

/-! ### Occurrences -/

/-- The occurrence is a match at a place of the text, which follows `behind` and
starts at `offset`. -/
def Occurrence.IsMatch {α : Type} (r : Recogniser α) (behind : List Char) (offset : Nat)
    (cs : List Char) (o : Occurrence α) : Prop :=
  ∃ before rest, cs = before ++ rest ∧ o.behind = before.reverse ++ behind ∧
    o.offset = offset + byteLength before ∧ r o.behind.head? rest = some o.found

theorem Occurrence.IsMatch.cons {α : Type} {r : Recogniser α} {behind : List Char} {offset : Nat}
    {c : Char} {cs : List Char} {o : Occurrence α}
    (h : o.IsMatch r (c :: behind) (offset + c.utf8Size) cs) :
    o.IsMatch r behind offset (c :: cs) := by
  obtain ⟨before, rest, rfl, hbehind, hoffset, hfound⟩ := h
  refine ⟨c :: before, rest, rfl, ?_, ?_, hfound⟩
  · rw [hbehind, List.reverse_cons, List.append_assoc, List.singleton_append]
  · rw [hoffset, byteLength_cons, Nat.add_assoc]

theorem isMatch_of_mem_occurrencesFrom {α : Type} [Matched α] {r : Recogniser α} {skip : Nat}
    {behind : List Char} {offset : Nat} {cs : List Char} {o : Occurrence α}
    (h : o ∈ occurrencesFrom r skip behind offset cs) : o.IsMatch r behind offset cs := by
  fun_induction occurrencesFrom r skip behind offset cs with
  | case1 => simp at h
  -- Inside the match before, nothing is looked for.
  | case2 skip behind offset c cs ih => exact (ih h).cons
  | case3 behind offset c cs found hfound skip ih =>
      rcases List.mem_cons.mp h with rfl | h
      · exact ⟨[], c :: cs, rfl, rfl, rfl, hfound⟩
      · exact (ih h).cons
  | case4 behind offset c cs _ ih => exact (ih h).cons

/-- An occurrence is a match at a place of the text. -/
theorem exists_match_of_mem_occurrences {α : Type} [Matched α] {r : Recogniser α}
    {text : List Char} {o : Occurrence α} (h : o ∈ occurrences r text) :
    ∃ before rest, text = before ++ rest ∧ o.behind = before.reverse ∧
      o.offset = byteLength before ∧ r before.getLast? rest = some o.found := by
  obtain ⟨before, rest, htext, hbehind, hoffset, hfound⟩ := isMatch_of_mem_occurrencesFrom h
  rw [List.append_nil] at hbehind
  rw [hbehind, List.head?_reverse] at hfound
  exact ⟨before, rest, htext, hbehind, by rw [hoffset, Nat.zero_add], hfound⟩

/-- Occurrences come in the order of the text. -/
theorem occurrencesFrom_pairwise {α : Type} [Matched α] (r : Recogniser α) (skip : Nat)
    (behind : List Char) (offset : Nat) (cs : List Char) :
    (occurrencesFrom r skip behind offset cs).Pairwise fun a b => a.offset < b.offset := by
  fun_induction occurrencesFrom r skip behind offset cs with
  | case1 => exact .nil
  | case2 _ _ _ _ _ ih => exact ih
  | case3 behind offset c cs found _ skip ih =>
      refine .cons (fun o ho => ?_) ih
      obtain ⟨before, _, -, -, hoffset, -⟩ := isMatch_of_mem_occurrencesFrom ho
      have hc := c.utf8Size_pos
      show offset < o.offset
      omega
  | case4 _ _ _ _ _ ih => exact ih

theorem occurrences_pairwise {α : Type} [Matched α] (r : Recogniser α) (text : List Char) :
    (occurrences r text).Pairwise fun a b => a.offset < b.offset :=
  occurrencesFrom_pairwise r 0 [] 0 text

/-- What an occurrence matched stands in the text at its offset. -/
theorem exists_append_of_mem_occurrences {α : Type} [Matched α] {r : Recogniser α}
    (hr : Recogniser.Faithful r) {text : List Char} {o : Occurrence α}
    (h : o ∈ occurrences r text) :
    ∃ before after, text = before ++ Matched.text o.found ++ after ∧
      o.offset = byteLength before := by
  obtain ⟨before, rest, rfl, -, hoffset, hfound⟩ := exists_match_of_mem_occurrences h
  obtain ⟨after, rfl⟩ := hr _ _ _ hfound
  exact ⟨before, after, (List.append_assoc ..).symm, hoffset⟩

/-- The name of an occurrence stands in the text between its start and its stop. -/
theorem exists_name_of_mem_occurrences {r : Recogniser Found} (hr : Recogniser.Faithful r)
    {text : List Char} {o : Occurrence Found} (h : o ∈ occurrences r text) :
    ∃ before after, text = before ++ o.found.name ++ after ∧ o.start = byteLength before ∧
      o.stop = byteLength before + byteLength o.found.name := by
  obtain ⟨before, after, htext, hoffset⟩ := exists_append_of_mem_occurrences hr h
  have hstart : o.start = byteLength (before ++ o.found.lead) := by
    rw [Occurrence.start, hoffset, byteLength_append]
  refine ⟨before ++ o.found.lead, o.found.trail ++ after, ?_, hstart, ?_⟩
  · rw [htext]
    simp only [Matched.text, List.append_assoc]
  · rw [Occurrence.stop, hstart]

@[simp] theorem Occurrence.toList_name (o : Occurrence Found) : o.name.toList = o.found.name :=
  String.toList_ofList

theorem isToken_name_of_mem_occurrences {r : Recogniser Found} (hr : Recogniser.NamesToken r)
    {text : List Char} {o : Occurrence Found} (h : o ∈ occurrences r text) :
    IsToken o.found.name := by
  obtain ⟨_, _, _, _, _, hfound⟩ := isMatch_of_mem_occurrencesFrom h
  exact hr _ _ _ hfound

/-! ### Every place is found -/

/-- Where a recogniser matches, or before, the search has found something. -/
theorem exists_head?_occurrencesFrom_le {α : Type} [Matched α] {r : Recogniser α}
    {before rest : List Char} {found : α} (behind : List Char) (offset : Nat) (hrest : rest ≠ [])
    (h : r (before.reverse ++ behind).head? rest = some found) :
    ∃ o, (occurrencesFrom r 0 behind offset (before ++ rest)).head? = some o ∧
      o.offset ≤ offset + byteLength before := by
  induction before generalizing behind offset with
  | nil =>
      obtain ⟨c, rest, rfl⟩ := List.exists_cons_of_ne_nil hrest
      rw [List.reverse_nil, List.nil_append] at h
      refine ⟨⟨behind, offset, found⟩, ?_, Nat.le_add_right _ _⟩
      rw [List.nil_append, occurrencesFrom, h, List.head?_cons]
  | cons c before ih =>
      rw [List.reverse_cons, List.append_assoc, List.singleton_append] at h
      obtain ⟨o, ho, hle⟩ := ih (c :: behind) (offset + c.utf8Size) h
      rw [List.cons_append, occurrencesFrom]
      split
      · exact ⟨_, rfl, Nat.le_add_right _ _⟩
      · exact ⟨o, ho, by rw [byteLength_cons]; omega⟩

/-- Where a recogniser matches, the search finds the match, unless the place lies inside
a match that was found before. -/
theorem mem_occurrencesFrom_or_covered {α : Type} [Matched α] {r : Recogniser α}
    {before rest : List Char} {found : α} {skip : Nat} (behind : List Char) (offset : Nat)
    (hrest : rest ≠ []) (hskip : skip ≤ before.length)
    (h : r (before.reverse ++ behind).head? rest = some found) :
    ⟨before.reverse ++ behind, offset + byteLength before, found⟩ ∈
        occurrencesFrom r skip behind offset (before ++ rest) ∨
      ∃ front inside other, before = front ++ inside ∧ inside ≠ [] ∧
        inside.length < (Matched.text other).length ∧
        r (front.reverse ++ behind).head? (inside ++ rest) = some other ∧
        ⟨front.reverse ++ behind, offset + byteLength front, other⟩ ∈
          occurrencesFrom r skip behind offset (before ++ rest) := by
  induction before generalizing skip behind offset with
  | nil =>
      obtain ⟨c, rest, rfl⟩ := List.exists_cons_of_ne_nil hrest
      obtain rfl : skip = 0 := Nat.le_zero.mp hskip
      rw [List.reverse_nil, List.nil_append] at h
      rw [List.nil_append, occurrencesFrom, h]
      exact .inl List.mem_cons_self
  | cons c before ih =>
      have hbehind : ∀ front : List Char,
          (c :: front).reverse ++ behind = front.reverse ++ c :: behind := by
        intro front
        rw [List.reverse_cons, List.append_assoc, List.singleton_append]
      have hoffset : ∀ front : List Char, offset + byteLength (c :: front) =
          offset + c.utf8Size + byteLength front := by
        intro front
        rw [byteLength_cons, Nat.add_assoc]
      rw [hbehind] at h
      rw [hbehind, hoffset, List.cons_append]
      -- What is found behind the first character is found here too.
      have hlater : ∀ {skip os}, skip ≤ before.length →
          occurrencesFrom r skip (c :: behind) (offset + c.utf8Size) (before ++ rest) ⊆ os →
          ⟨before.reverse ++ c :: behind, offset + c.utf8Size + byteLength before, found⟩ ∈ os ∨
            ∃ front inside other, c :: before = front ++ inside ∧ inside ≠ [] ∧
              inside.length < (Matched.text other).length ∧
              r (front.reverse ++ behind).head? (inside ++ rest) = some other ∧
              ⟨front.reverse ++ behind, offset + byteLength front, other⟩ ∈ os := by
        intro skip os hskip hos
        refine (ih (c :: behind) (offset + c.utf8Size) hskip h).imp (@hos _) ?_
        rintro ⟨front, inside, other, rfl, hne, hlt, hother, hmem⟩
        refine ⟨c :: front, inside, other, rfl, hne, hlt, ?_, ?_⟩
        · rw [hbehind]
          exact hother
        · rw [hbehind, hoffset]
          exact hos hmem
      cases skip with
      | succ skip => exact hlater (Nat.le_of_succ_le_succ hskip) (List.Subset.refl _)
      | zero =>
          rw [occurrencesFrom]
          split
          · rename_i other hother
            rcases Nat.lt_or_ge (c :: before).length (Matched.text other).length with hlt | hends
            · exact .inr ⟨[], c :: before, other, rfl, List.cons_ne_nil _ _, hlt, hother,
                List.mem_cons_self⟩
            · exact hlater (Nat.sub_le_of_le_add hends) (List.subset_cons_self _ _)
          · exact hlater (Nat.zero_le _) (List.Subset.refl _)

theorem mem_occurrences_or_covered {α : Type} [Matched α] {r : Recogniser α}
    {before rest : List Char} {found : α} (hrest : rest ≠ [])
    (h : r before.getLast? rest = some found) :
    ⟨before.reverse, byteLength before, found⟩ ∈ occurrences r (before ++ rest) ∨
      ∃ front inside other, before = front ++ inside ∧ inside ≠ [] ∧
        inside.length < (Matched.text other).length ∧
        r front.getLast? (inside ++ rest) = some other ∧
        ⟨front.reverse, byteLength front, other⟩ ∈ occurrences r (before ++ rest) := by
  have hfits : r (before.reverse ++ []).head? rest = some found := by
    rw [List.append_nil, List.head?_reverse]
    exact h
  have hfinds := mem_occurrencesFrom_or_covered [] 0 hrest (Nat.zero_le _) hfits
  simp only [List.append_nil, Nat.zero_add, List.head?_reverse] at hfinds
  exact hfinds

/-- A recogniser that matches nowhere inside a match. -/
def Recogniser.NoOverlap {α : Type} [Matched α] (r : Recogniser α) : Prop :=
  ∀ previous inside rest found, r previous (inside ++ rest) = some found → inside ≠ [] →
    inside.length < (Matched.text found).length → ∀ previous', r previous' rest = none

/-- If matches do not overlap, every place where the recogniser matches is found. -/
theorem exists_mem_occurrencesFrom {α : Type} [Matched α] {r : Recogniser α} (hr : r.NoOverlap)
    {before rest : List Char} {found : α} {skip : Nat} (behind : List Char) (offset : Nat)
    (hrest : rest ≠ []) (hskip : skip ≤ before.length)
    (h : r (before.reverse ++ behind).head? rest = some found) :
    ∃ o ∈ occurrencesFrom r skip behind offset (before ++ rest),
      o.offset = offset + byteLength before ∧ o.found = found := by
  rcases mem_occurrencesFrom_or_covered behind offset hrest hskip h with
    hmem | ⟨front, inside, other, -, hne, hlt, hother, -⟩
  · exact ⟨_, hmem, rfl, rfl⟩
  · rw [hr _ _ _ _ hother hne hlt] at h
    exact absurd h.symm (Option.some_ne_none _)

/-- Found matches do not overlap. -/
theorem occurrencesFrom_apart {α : Type} [Matched α] {r : Recogniser α} (hr : r.Faithful)
    (skip : Nat) (behind : List Char) (offset : Nat) (cs : List Char) :
    (∀ o ∈ occurrencesFrom r skip behind offset cs,
      offset + byteLength (cs.take skip) ≤ o.offset) ∧
    (occurrencesFrom r skip behind offset cs).Pairwise fun a b =>
      a.offset + byteLength (Matched.text a.found) ≤ b.offset := by
  fun_induction occurrencesFrom r skip behind offset cs with
  | case1 => exact ⟨fun o ho => absurd ho List.not_mem_nil, .nil⟩
  | case2 skip behind offset c cs ih =>
      refine ⟨fun o ho => ?_, ih.2⟩
      rw [List.take_succ_cons, byteLength_cons, ← Nat.add_assoc]
      exact ih.1 o ho
  | case3 behind offset c cs found hfound skip ih =>
      have hlater : ∀ o ∈ occurrencesFrom r skip (c :: behind) (offset + c.utf8Size) cs,
          offset + byteLength (Matched.text found) ≤ o.offset := by
        intro o ho
        have hle := ih.1 o ho
        obtain ⟨after, hafter⟩ := hr _ _ _ hfound
        cases htext : Matched.text found with
        | nil =>
            rw [Text.byteLength_nil]
            omega
        | cons d ds =>
            rw [htext, List.cons_append] at hafter
            obtain ⟨rfl, rfl⟩ := List.cons.inj hafter
            have hskip : skip = ds.length := by simp [skip, htext]
            rw [hskip, List.take_left] at hle
            rw [byteLength_cons, ← Nat.add_assoc]
            exact hle
      refine ⟨fun o ho => ?_, .cons hlater ih.2⟩
      rw [List.take_zero, Text.byteLength_nil, Nat.add_zero]
      rcases List.mem_cons.mp ho with rfl | ho
      · exact Nat.le_refl _
      · exact Nat.le_trans (Nat.le_add_right _ _) (hlater o ho)
  | case4 behind offset c cs _ ih =>
      refine ⟨fun o ho => ?_, ih.2⟩
      have hle := ih.1 o ho
      rw [List.take_zero, Text.byteLength_nil] at hle ⊢
      omega

theorem occurrences_apart {α : Type} [Matched α] {r : Recogniser α} (hr : r.Faithful)
    (text : List Char) :
    (occurrences r text).Pairwise fun a b =>
      a.offset + byteLength (Matched.text a.found) ≤ b.offset :=
  (occurrencesFrom_apart hr 0 [] 0 text).2

theorem apart_of_mem_occurrences {α : Type} [Matched α] {r : Recogniser α} (hr : r.Faithful)
    {text : List Char} {a b : Occurrence α} (ha : a ∈ occurrences r text)
    (hb : b ∈ occurrences r text) :
    a = b ∨ a.offset + byteLength (Matched.text a.found) ≤ b.offset ∨
      b.offset + byteLength (Matched.text b.found) ≤ a.offset := by
  have hapart := List.pairwise_iff_getElem.mp (occurrences_apart hr text)
  obtain ⟨i, hi, rfl⟩ := List.mem_iff_getElem.mp ha
  obtain ⟨j, hj, rfl⟩ := List.mem_iff_getElem.mp hb
  rcases Nat.lt_trichotomy i j with hlt | rfl | hlt
  · exact .inr (.inl (hapart i j hi hj hlt))
  · exact .inl rfl
  · exact .inr (.inr (hapart j i hj hi hlt))

end TradeScript.Scan
