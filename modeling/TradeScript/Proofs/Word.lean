import TradeScript.Proofs.Scan

/-!
# TradeScript.Proofs.Word

Identifiers that stand as words of their own. No word starts inside another, so the
search for words finds every one (`mem_occurrences_identifierWord_iff`). A name that is
found between something behind which a word may start and something before which a word
may end is one of them (`exists_wordAt_of_mem_occurrences`).

Words end with their line. So the words of a text are the words of its lines, each at the
place to which its offset leads (`occurrences_joinWith`).
-/

namespace TradeScript.Scan

open Text (byteLength byteLength_append byteLength_cons isBlank isWord)

/-! ### Places in a text -/

theorem exists_append_of_byteLength_le {as bs cs ds : List Char} (h : as ++ bs = cs ++ ds)
    (hle : byteLength as ≤ byteLength cs) : ∃ xs, cs = as ++ xs ∧ bs = xs ++ ds := by
  rcases List.append_eq_append_iff.mp h with ⟨xs, rfl, rfl⟩ | ⟨xs, rfl, rfl⟩
  · exact ⟨xs, rfl, rfl⟩
  · cases xs with
    | nil => exact ⟨[], by simp, rfl⟩
    | cons x xs =>
        have hx := x.utf8Size_pos
        rw [byteLength_append, byteLength_cons] at hle
        omega

/-- Of two fronts of a text, the one with more bytes is longer. -/
theorem exists_append_of_byteLength_lt {as bs cs ds : List Char} (h : as ++ bs = cs ++ ds)
    (hlt : byteLength as < byteLength cs) : ∃ xs, xs ≠ [] ∧ cs = as ++ xs ∧ bs = xs ++ ds := by
  obtain ⟨xs, rfl, rfl⟩ := exists_append_of_byteLength_le h (Nat.le_of_lt hlt)
  refine ⟨xs, ?_, rfl, rfl⟩
  rintro rfl
  rw [List.append_nil] at hlt
  exact Nat.lt_irrefl _ hlt

/-- Fronts of a text with equally many bytes are equal. -/
theorem append_inj_of_byteLength {as bs cs ds : List Char} (h : as ++ bs = cs ++ ds)
    (hlength : byteLength as = byteLength cs) : as = cs ∧ bs = ds := by
  obtain ⟨xs, rfl, rfl⟩ := exists_append_of_byteLength_le h (Nat.le_of_eq hlength)
  cases xs with
  | nil => simp
  | cons x xs =>
      have hx := x.utf8Size_pos
      rw [byteLength_append, byteLength_cons] at hlength
      omega

/-! ### Characters of words -/

theorem toNat_of_isNamePart {c : Char} (h : isNamePart c = true) :
    ((65 ≤ c.toNat ∧ c.toNat ≤ 90 ∨ 97 ≤ c.toNat ∧ c.toNat ≤ 122) ∨
      48 ≤ c.toNat ∧ c.toNat ≤ 57) ∨ c.toNat = 95 := by
  have h : (decide ('A'.val ≤ c.val ∧ c.val ≤ 'Z'.val) ||
      (decide ('a'.val ≤ c.val) && decide (c.val ≤ 'z'.val)) ||
      (decide ('0'.val ≤ c.val) && decide (c.val ≤ '9'.val)) || c == '_') = true := h
  simp only [Bool.or_eq_true, Bool.and_eq_true, decide_eq_true_eq, beq_iff_eq,
    UInt32.le_iff_toNat_le, Char.toNat_val, Char.reduceToNat] at h
  exact h.imp_right (congrArg Char.toNat)

theorem isNamePart_of_isBlank {c : Char} (h : isBlank c = true) : isNamePart c = false := by
  rw [Bool.eq_false_iff]
  intro hpart
  have hbounds := toNat_of_isNamePart hpart
  simp only [isBlank, Text.inRanges, Text.blankRanges, List.any_cons, List.any_nil,
    Bool.or_eq_true, Bool.and_eq_true, decide_eq_true_eq, Bool.false_eq_true, or_false] at h
  omega

theorem identifier_before_blanks {word space : List Char} (hword : isIdentifier word = true)
    (hne : space ≠ []) (hblank : ∀ c ∈ space, isBlank c = true) (rest : List Char) :
    identifier (word ++ (space ++ rest)) = some (word, space ++ rest) := by
  obtain ⟨c, space, rfl⟩ := List.exists_cons_of_ne_nil hne
  exact identifier_append hword (isNamePart_of_isBlank (hblank c List.mem_cons_self)) _

/-- Blanks or none, and then a character that no name has. -/
theorem identifier_before_mark {word space : List Char} (hword : isIdentifier word = true)
    (hblank : ∀ c ∈ space, isBlank c = true) {mark : Char} (hmark : isNamePart mark = false)
    (rest : List Char) :
    identifier (word ++ (space ++ mark :: rest)) = some (word, space ++ mark :: rest) := by
  by_cases hne : space = []
  · subst hne
    exact identifier_append hword hmark rest
  · exact identifier_before_blanks hword hne hblank (mark :: rest)

theorem isWord_of_isNamePart {c : Char} (h : isNamePart c = true) : isWord c = true := by
  have hbounds := toNat_of_isNamePart h
  rw [Text.isWord_of_ascii (by omega)]
  exact h

theorem isNameStart_of_isWord {c : Char} (h : isWord c = false) : isNameStart c = false := by
  rw [Bool.eq_false_iff]
  intro hstart
  rw [isWord_of_isNamePart (isNamePart_of_isNameStart hstart)] at h
  exact absurd h.symm Bool.false_ne_true

/-- No range of blanks meets a range of word characters. -/
theorem blankRanges_apart :
    ∀ b ∈ Text.blankRanges, ∀ w ∈ Text.wordRanges, b.2 < w.1 ∨ w.2 < b.1 := by
  decide +kernel

theorem isWord_of_isBlank {c : Char} (h : isBlank c = true) : isWord c = false := by
  by_cases hascii : c.toNat < 0x80
  · rw [Text.isWord_of_ascii hascii]
    exact isNamePart_of_isBlank h
  · rw [isWord, if_neg hascii, Text.inRanges, List.any_eq_false]
    intro w hw hin
    obtain ⟨b, hb, hbin⟩ := List.any_eq_true.mp h
    have hapart := blankRanges_apart b hb w hw
    simp only [Bool.and_eq_true, decide_eq_true_eq] at hin hbin
    omega

/-! ### Word boundaries -/

/-- A reader behind which a word may start. -/
def Reader.OpensWord (r : Reader) : Prop :=
  ∀ cs piece rest, r cs = some (piece, rest) →
    ∀ previous, opensWord (piece.getLast?.or previous) = true

/-- A reader behind which a word may start if one may start before it. -/
def Reader.KeepsOpen (r : Reader) : Prop :=
  ∀ cs piece rest, r cs = some (piece, rest) →
    ∀ previous, opensWord previous = true → opensWord (piece.getLast?.or previous) = true

/-- A reader that takes nothing where a word goes on. -/
def Reader.ClosesWord (r : Reader) : Prop :=
  ∀ cs piece rest, r cs = some (piece, rest) → closesWord cs = true

theorem opensWord_getLast? {piece : List Char} (hne : piece ≠ [])
    (h : ∀ c ∈ piece, isWord c = false) (previous : Option Char) :
    opensWord (piece.getLast?.or previous) = true := by
  rw [List.getLast?_eq_some_getLast hne, Option.some_or, opensWord,
    h _ (List.getLast_mem hne), Bool.not_false]

theorem gap_opensWord : gap.OpensWord := by
  intro cs piece rest h previous
  obtain ⟨hne, hblank⟩ := forall_of_someOf h
  exact opensWord_getLast? hne (fun c hc => isWord_of_isBlank (hblank c hc)) previous

theorem exactly_opensWord {piece : List Char} (hne : piece ≠ [])
    (h : piece.any isWord = false) : (exactly piece).OpensWord := by
  intro cs taken rest htaken previous
  obtain ⟨rfl, -⟩ := exactly_eq_some_iff.mp htaken
  exact opensWord_getLast? hne (by simpa using h) previous

theorem optional_keepsOpen {r : Reader} (hr : r.OpensWord) : (optional r).KeepsOpen := by
  intro cs piece rest h previous hprevious
  simp only [optional, oneOf, Option.or_eq_some_iff] at h
  rcases h with h | ⟨-, h | ⟨-, h⟩⟩
  · exact hr cs piece rest h previous
  · obtain ⟨rfl, -⟩ := Prod.mk.inj (Option.some.inj h)
    exact hprevious
  · exact absurd h.symm (Option.some_ne_none _)

theorem inTurn_keepsOpen {rs : List Reader} (hrs : ∀ r ∈ rs, r.KeepsOpen) :
    (inTurn rs).KeepsOpen := by
  induction rs with
  | nil =>
      intro cs piece rest h previous hprevious
      obtain ⟨rfl, -⟩ := inTurn_nil_eq_some_iff.mp h
      exact hprevious
  | cons r rs ih =>
      intro cs piece rest h previous hprevious
      obtain ⟨first, mid, more, hfirst, hmore, rfl⟩ := inTurn_cons_eq_some_iff.mp h
      obtain ⟨hr, hrs⟩ := List.forall_mem_cons.mp hrs
      rw [List.getLast?_append, Option.or_assoc]
      exact ih hrs mid more rest hmore _ (hr cs first mid hfirst previous hprevious)

/-- What is read in turn opens a word if one of the pieces does and those behind it keep
the place open. -/
theorem inTurn_opensWord {r : Reader} {rs : List Reader} (hr : r.OpensWord)
    (hrs : ∀ r ∈ rs, r.KeepsOpen) : (inTurn (r :: rs)).OpensWord := by
  intro cs piece rest h previous
  obtain ⟨first, mid, more, hfirst, hmore, rfl⟩ := inTurn_cons_eq_some_iff.mp h
  rw [List.getLast?_append, Option.or_assoc]
  exact inTurn_keepsOpen hrs mid more rest hmore _ (hr cs first mid hfirst previous)

theorem inTurn_cons_opensWord (r : Reader) {rs : List Reader} (hrs : (inTurn rs).OpensWord) :
    (inTurn (r :: rs)).OpensWord := by
  intro cs piece rest h previous
  obtain ⟨first, mid, more, -, hmore, rfl⟩ := inTurn_cons_eq_some_iff.mp h
  rw [List.getLast?_append, Option.or_assoc]
  exact hrs mid more rest hmore _

/-- Between a type and a name there are blanks and reference marks. -/
theorem separator_eq_some {cs piece rest : List Char} (h : separator cs = some (piece, rest)) :
    piece ≠ [] ∧ ∀ c ∈ piece, isBlank c = true ∨ isReferenceMark c = true := by
  simp only [separator, oneOf, Option.or_eq_some_iff] at h
  rcases h with h | ⟨-, h | ⟨-, h⟩⟩
  · obtain ⟨space, mid, _, hspace, hrest, rfl⟩ := inTurn_cons_eq_some_iff.mp h
    obtain ⟨mark, mid', _, hmark, hrest', rfl⟩ := inTurn_cons_eq_some_iff.mp hrest
    obtain ⟨space', mid'', _, hspace', hend, rfl⟩ := inTurn_cons_eq_some_iff.mp hrest'
    obtain ⟨rfl, -⟩ := inTurn_nil_eq_some_iff.mp hend
    have hblank := (manyOf_eq_some_iff.mp hspace).2.1
    have hblank' := (manyOf_eq_some_iff.mp hspace').2.1
    obtain ⟨c, hc, rfl, -⟩ := single_eq_some_iff.mp hmark
    refine ⟨by simp, fun d hd => ?_⟩
    simp only [List.append_nil, List.mem_append, List.mem_singleton] at hd
    rcases hd with hd | rfl | hd
    · exact .inl (hblank d hd)
    · exact .inr hc
    · exact .inl (hblank' d hd)
  · obtain ⟨hne, hblank⟩ := forall_of_someOf h
    exact ⟨hne, fun c hc => .inl (hblank c hc)⟩
  · exact absurd h.symm (Option.some_ne_none _)

theorem isWord_of_isReferenceMark {c : Char} (h : isReferenceMark c = true) :
    isWord c = false := by
  simp only [isReferenceMark, Bool.or_eq_true, beq_iff_eq] at h
  rcases h with rfl | rfl <;> decide

theorem separator_opensWord : separator.OpensWord := by
  intro cs piece rest h previous
  obtain ⟨hne, hpiece⟩ := separator_eq_some h
  refine opensWord_getLast? hne (fun c hc => ?_) previous
  exact (hpiece c hc).elim isWord_of_isBlank isWord_of_isReferenceMark

theorem wordEnd_eq_some_iff {cs piece rest : List Char} :
    wordEnd cs = some (piece, rest) ↔ closesWord cs = true ∧ piece = [] ∧ rest = cs := by
  unfold wordEnd
  split
  · rename_i h
    rw [and_iff_right h]
    exact nothing_eq_some_iff
  · simp_all

theorem wordEnd_closesWord : wordEnd.ClosesWord :=
  fun _ _ _ h => (wordEnd_eq_some_iff.mp h).1

theorem openParen_closesWord : openParen.ClosesWord := by
  intro cs piece rest h
  obtain ⟨space, rfl, hblank, -⟩ := openParen_eq_some_iff.mp h
  cases space with
  | nil => rfl
  | cons c space =>
      rw [List.cons_append, closesWord, isWord_of_isBlank (hblank c List.mem_cons_self)]
      rfl

/-! ### Words -/

/-- In a text, a name stands as a word of its own between what is before it and what is
after it. -/
structure WordAt (text before name after : List Char) : Prop where
  eq : text = before ++ (name ++ after)
  opens : opensWord before.getLast? = true
  isIdentifier : isIdentifier name = true
  closes : closesWord after = true

theorem isNamePart_of_closesWord {cs : List Char} (h : closesWord cs = true) :
    ∀ c ∈ cs.head?, isNamePart c = false := by
  cases cs with
  | nil => simp
  | cons c cs =>
      rintro d ⟨⟩
      rw [Bool.eq_false_iff]
      intro hpart
      simp [closesWord, isWord_of_isNamePart hpart] at h

theorem wordNaming_nothing_eq_some_iff {trail : Reader} (hcloses : trail.ClosesWord)
    {previous : Option Char} {cs : List Char} {found : Found} :
    wordNaming nothing trail previous cs = some found ↔ opensWord previous = true ∧
      ∃ name after piece rest, cs = name ++ after ∧ isIdentifier name = true ∧
        trail after = some (piece, rest) ∧ found = ⟨[], name, piece⟩ := by
  constructor
  · intro h
    obtain ⟨lead, name, piece⟩ := found
    obtain ⟨hopens, h⟩ := wordNaming_eq_some h
    obtain ⟨cs₁, cs₂, cs₃, hlead, hname, htrail⟩ := naming_eq_some h
    obtain ⟨rfl, rfl⟩ := nothing_eq_some_iff.mp hlead
    obtain ⟨rfl, hname, -⟩ := identifier_eq_some_iff.mp hname
    exact ⟨hopens, name, cs₂, piece, cs₃, rfl, hname, htrail, rfl⟩
  · rintro ⟨hopens, name, after, piece, rest, rfl, hname, htrail, rfl⟩
    have hends := isNamePart_of_closesWord (hcloses _ _ _ htrail)
    rw [wordNaming, if_pos hopens]
    exact naming_of_readers rfl (identifier_eq_some_iff.mpr ⟨rfl, hname, hends⟩) htrail

theorem not_opensWord_of_isNamePart {front inside : List Char} (hne : inside ≠ [])
    (h : ∀ c ∈ inside, isNamePart c = true) : opensWord (front ++ inside).getLast? = false := by
  rw [List.getLast?_append, List.getLast?_eq_some_getLast hne, Option.some_or, opensWord,
    isWord_of_isNamePart (h _ (List.getLast_mem hne)), Bool.not_true]

/-- The search for words that are followed by something finds every one of them, if no
word can start in what follows. -/
theorem mem_occurrences_wordNaming_nothing_iff {trail : Reader} (hcloses : trail.ClosesWord)
    (hf : trail.Faithful)
    (hstarts : ∀ cs piece rest, trail cs = some (piece, rest) → ∀ c ∈ piece, isNameStart c = false)
    {text : List Char} {o : Occurrence Found} :
    o ∈ occurrences (wordNaming nothing trail) text ↔
      ∃ before name after piece rest, WordAt text before name after ∧
        trail after = some (piece, rest) ∧
        o = ⟨before.reverse, byteLength before, ⟨[], name, piece⟩⟩ := by
  constructor
  · intro h
    obtain ⟨before, cs, rfl, hbehind, hoffset, hfound⟩ := exists_match_of_mem_occurrences h
    obtain ⟨hopens, name, after, piece, rest, rfl, hname, htrail, hfound⟩ :=
      (wordNaming_nothing_eq_some_iff hcloses).mp hfound
    have hword := hcloses _ _ _ htrail
    refine ⟨before, name, after, piece, rest, ⟨rfl, hopens, hname, hword⟩, htrail, ?_⟩
    rw [← hbehind, ← hoffset, ← hfound]
  · rintro ⟨before, name, after, piece, rest, ⟨rfl, hopens, hname, -⟩, htrail, rfl⟩
    obtain ⟨c, name, rfl, hstart, -⟩ := exists_cons_of_isIdentifier hname
    have hfits := (wordNaming_nothing_eq_some_iff hcloses).mpr
      ⟨hopens, _, after, piece, rest, rfl, hname, htrail, rfl⟩
    rcases mem_occurrences_or_covered (List.cons_ne_nil _ _) hfits with
      hmem | ⟨front, inside, other, rfl, hinside, hlt, hother, -⟩
    · exact hmem
    · obtain ⟨-, name', after', piece', rest', heq, hname', htrail', rfl⟩ :=
        (wordNaming_nothing_eq_some_iff hcloses).mp hother
      have hlt : inside.length < name'.length + piece'.length := by
        simpa [Matched.text] using hlt
      rw [← hf _ _ _ htrail'] at heq
      rcases List.append_eq_append_iff.mp heq with ⟨xs, rfl, -⟩ | ⟨xs, rfl, hxs⟩
      -- Inside another word, a character of a name stands before the place.
      · rw [not_opensWord_of_isNamePart hinside fun c hc =>
          forall_isNamePart_of_isIdentifier hname' c (List.mem_append_left _ hc)] at hopens
        exact absurd hopens Bool.false_ne_true
      -- In what follows another word, no name starts.
      · rcases List.append_eq_append_iff.mp hxs.symm with ⟨ys, rfl, hys⟩ | ⟨ys, rfl, hys⟩
        · cases ys with
          | nil => simp at hlt
          | cons d ys =>
              obtain ⟨rfl, -⟩ := List.cons.inj hys
              rw [hstarts _ _ _ htrail' c (by simp)] at hstart
              exact absurd hstart Bool.false_ne_true
        · simp only [List.length_append] at hlt
          omega

theorem mem_occurrences_identifierWord_iff {text : List Char} {o : Occurrence Found} :
    o ∈ occurrences identifierWord text ↔ ∃ before name after, WordAt text before name after ∧
      o = ⟨before.reverse, byteLength before, ⟨[], name, []⟩⟩ := by
  have hstarts : ∀ cs piece rest, wordEnd cs = some (piece, rest) →
      ∀ c ∈ piece, isNameStart c = false := by
    intro cs piece rest h c hc
    rw [(wordEnd_eq_some_iff.mp h).2.1] at hc
    exact absurd hc List.not_mem_nil
  refine (mem_occurrences_wordNaming_nothing_iff wordEnd_closesWord wordEnd_faithful hstarts).trans
    ⟨?_, ?_⟩
  · rintro ⟨before, name, after, piece, rest, hword, htrail, rfl⟩
    obtain ⟨-, rfl, -⟩ := wordEnd_eq_some_iff.mp htrail
    exact ⟨before, name, after, hword, rfl⟩
  · rintro ⟨before, name, after, hword, rfl⟩
    exact ⟨before, name, after, [], after, hword,
      wordEnd_eq_some_iff.mpr ⟨hword.closes, rfl, rfl⟩, rfl⟩

/-- The name of an occurrence is read at its start, and what follows is read behind it. -/
theorem exists_identifier_of_mem_occurrences {lead trail : Reader} (hlead : lead.Faithful)
    {text : List Char} {o : Occurrence Found} (h : o ∈ occurrences (wordNaming lead trail) text) :
    ∃ before cs after rest, text = before ++ cs ∧ o.start = byteLength before ∧
      (lead.OpensWord → opensWord before.getLast? = true) ∧
      identifier cs = some (o.found.name, after) ∧ trail after = some (o.found.trail, rest) := by
  obtain ⟨before, cs, rfl, -, hoffset, hfound⟩ := exists_match_of_mem_occurrences h
  obtain ⟨cs₁, cs₂, cs₃, hl, hname, htrail⟩ := naming_eq_some (wordNaming_eq_some hfound).2
  refine ⟨before ++ o.found.lead, cs₁, cs₂, cs₃, ?_, ?_, fun hopens => ?_, hname, htrail⟩
  · rw [List.append_assoc, hlead _ _ _ hl]
  · rw [Occurrence.start, hoffset, byteLength_append]
  · rw [List.getLast?_append]
    exact hopens _ _ _ hl _

/-- A name that is found between places where a word may start and end is a word. -/
theorem exists_wordAt_of_mem_occurrences {lead trail : Reader} (hlead : lead.Faithful)
    (hopens : lead.OpensWord) (hcloses : trail.ClosesWord) {text : List Char}
    {o : Occurrence Found} (h : o ∈ occurrences (wordNaming lead trail) text) :
    ∃ before after, WordAt text before o.found.name after ∧ o.start = byteLength before := by
  obtain ⟨before, cs, after, rest, rfl, hstart, hbefore, hname, htrail⟩ :=
    exists_identifier_of_mem_occurrences hlead h
  obtain ⟨rfl, hname, -⟩ := identifier_eq_some_iff.mp hname
  exact ⟨before, after, ⟨rfl, hbefore hopens, hname, hcloses _ _ _ htrail⟩, hstart⟩

/-- A word at an offset ends where what follows it there closes a word. -/
theorem WordAt.closes_at {text before name after front rest : List Char}
    (h : WordAt text front name rest) (htext : text = before ++ (name ++ after))
    (hlength : byteLength front = byteLength before) : closesWord after = true := by
  have hrest := (append_inj_of_byteLength (h.eq.symm.trans htext) hlength).2
  rw [← List.append_cancel_left hrest]
  exact h.closes

/-- Names that start at the same place are equal. -/
theorem name_eq_of_start_eq {lead trail lead' trail' : Reader} (hlead : lead.Faithful)
    (hlead' : lead'.Faithful) {text : List Char} {o o' : Occurrence Found}
    (h : o ∈ occurrences (wordNaming lead trail) text)
    (h' : o' ∈ occurrences (wordNaming lead' trail') text) (hstart : o.start = o'.start) :
    o.found.name = o'.found.name := by
  obtain ⟨before, cs, _, _, rfl, hbefore, -, hname, -⟩ :=
    exists_identifier_of_mem_occurrences hlead h
  obtain ⟨before', cs', _, _, htext, hbefore', -, hname', -⟩ :=
    exists_identifier_of_mem_occurrences hlead' h'
  rw [hbefore, hbefore'] at hstart
  obtain ⟨-, rfl⟩ := append_inj_of_byteLength htext hstart
  rw [hname] at hname'
  exact (Prod.mk.inj (Option.some.inj hname')).1

/-! ### Words of lines -/

/-- A recogniser that does not look across the ends of lines. -/
structure Recogniser.StaysOnLine {α : Type} (r : Recogniser α) : Prop where
  nothing : ∀ previous, r previous [] = none
  stops : ∀ previous cs rest, r previous (cs ++ '\n' :: rest) = r previous cs
  fresh : ∀ cs, r (some '\n') cs = r none cs

section

variable {α : Type} [Matched α] {r : Recogniser α}

/-- What is found in two lines is found in the first or, behind it, in the second. -/
theorem occurrencesFrom_newline (hf : r.Faithful) (hr : r.StaysOnLine) {cs : List Char}
    {skip : Nat} (behind : List Char) (offset : Nat) (rest : List Char) (hskip : skip ≤ cs.length) :
    occurrencesFrom r skip behind offset (cs ++ '\n' :: rest) =
      occurrencesFrom r skip behind offset cs ++
        occurrencesFrom r 0 ('\n' :: (cs.reverse ++ behind)) (offset + byteLength cs + 1) rest := by
  induction cs generalizing skip behind offset with
  | nil =>
      obtain rfl : skip = 0 := Nat.le_zero.mp hskip
      have hnone : r behind.head? ('\n' :: rest) = none :=
        (hr.stops behind.head? [] rest).trans (hr.nothing _)
      simp only [List.nil_append, occurrencesFrom, hnone]
      rfl
  | cons c cs ih =>
      have hlater : ∀ {skip}, skip ≤ cs.length →
          occurrencesFrom r skip (c :: behind) (offset + c.utf8Size) (cs ++ '\n' :: rest) =
            occurrencesFrom r skip (c :: behind) (offset + c.utf8Size) cs ++
              occurrencesFrom r 0 ('\n' :: ((c :: cs).reverse ++ behind))
                (offset + byteLength (c :: cs) + 1) rest := by
        intro skip hskip
        rw [ih (c :: behind) (offset + c.utf8Size) hskip, List.reverse_cons, List.append_assoc,
          List.singleton_append, byteLength_cons, ← Nat.add_assoc]
      cases skip with
      | succ skip =>
          rw [List.cons_append, occurrencesFrom, occurrencesFrom]
          exact hlater (Nat.le_of_succ_le_succ hskip)
      | zero =>
          have hsame : r behind.head? (c :: (cs ++ '\n' :: rest)) = r behind.head? (c :: cs) :=
            hr.stops behind.head? (c :: cs) rest
          rw [List.cons_append, occurrencesFrom, occurrencesFrom, hsame]
          cases hfound : r behind.head? (c :: cs) with
          | none => exact hlater (Nat.zero_le _)
          | some found =>
              have hlength := (hf _ _ _ hfound).length_le
              rw [List.length_cons] at hlength
              exact congrArg _ (hlater (Nat.sub_le_of_le_add hlength))

/-- What stands before a text matters only by the last character, and its length only
moves the offsets. -/
theorem map_occurrencesFrom_add {skip : Nat} {behind behind' : List Char}
    (hhead : ∀ cs, r behind.head? cs = r behind'.head? cs) (start offset : Nat) (cs : List Char) :
    (occurrencesFrom r skip behind (start + offset) cs).map (fun o => (o.offset, o.found)) =
      (occurrencesFrom r skip behind' offset cs).map fun o => (start + o.offset, o.found) := by
  induction cs generalizing skip behind behind' offset with
  | nil => rfl
  | cons c cs ih =>
      have hlater : ∀ skip,
          (occurrencesFrom r skip (c :: behind) (start + (offset + c.utf8Size)) cs).map
              (fun o => (o.offset, o.found)) =
            (occurrencesFrom r skip (c :: behind') (offset + c.utf8Size) cs).map
              fun o => (start + o.offset, o.found) := by
        intro skip
        refine ih ?_ _
        exact fun _ => rfl
      cases skip with
      | succ skip =>
          rw [occurrencesFrom, occurrencesFrom, Nat.add_assoc]
          exact hlater skip
      | zero =>
          rw [occurrencesFrom, occurrencesFrom, hhead, Nat.add_assoc]
          cases r behind'.head? (c :: cs) with
          | none => exact hlater 0
          | some found => exact congrArg _ (hlater _)

/-- What is found on lines is found in the text of the lines, at the places to which the
offsets lead. -/
theorem occurrences_joinWith (hf : r.Faithful) (hr : r.StaysOnLine) (lines : List (List Char))
    (number : Nat) :
    (lines.zipIdx number).flatMap (fun line =>
        (occurrences r line.1).map fun o => ((line.2, o.offset), o.found)) =
      (occurrences r (Text.joinWith '\n' lines)).map fun o =>
        ((number + (Document.locateIn (lines.map byteLength) o.offset).1,
          (Document.locateIn (lines.map byteLength) o.offset).2), o.found) := by
  induction lines generalizing number with
  | nil => rfl
  | cons line lines ih =>
      cases lines with
      | nil =>
          rw [List.zipIdx_singleton, List.flatMap_singleton]
          rfl
      | cons next rest =>
          have hsplit : occurrences r (Text.joinWith '\n' (line :: next :: rest)) =
              occurrences r line ++ occurrencesFrom r 0 ('\n' :: line.reverse)
                (byteLength line + 1) (Text.joinWith '\n' (next :: rest)) := by
            rw [Text.joinWith, occurrences,
              occurrencesFrom_newline hf hr [] 0 _ (Nat.zero_le _), List.append_nil, Nat.zero_add]
            rfl
          have hshift : ∀ text, (occurrencesFrom r 0 ('\n' :: line.reverse) (byteLength line + 1)
              text).map (fun o => (o.offset, o.found)) =
              (occurrences r text).map fun o => (byteLength line + 1 + o.offset, o.found) := by
            intro text
            refine map_occurrencesFrom_add ?_ (byteLength line + 1) 0 text
            exact hr.fresh
          let place (found : Nat × α) : (Nat × Nat) × α :=
            let located := Document.locateIn ((line :: next :: rest).map byteLength) found.1
            ((number + located.1, located.2), found.2)
          rw [List.zipIdx_cons, List.flatMap_cons, ih (number + 1), hsplit, List.map_append]
          congr 1
          · refine List.map_congr_left fun o ho => ?_
            obtain ⟨before, after, rfl, -, hoffset, -⟩ := exists_match_of_mem_occurrences ho
            have hle : o.offset ≤ byteLength (before ++ after) := by
              rw [hoffset, byteLength_append]
              exact Nat.le_add_right _ _
            rw [List.map_cons, List.map_cons, Document.locateIn_of_le hle, Nat.add_zero]
          · have hplace := congrArg (List.map place) (hshift (Text.joinWith '\n' (next :: rest)))
            rw [List.map_map, List.map_map] at hplace
            refine Eq.trans (List.map_congr_left fun o _ => ?_) hplace.symm
            show _ = place (byteLength line + 1 + o.offset, o.found)
            simp only [place, List.map_cons, Document.locateIn_add]
            rw [Nat.add_right_comm, Nat.add_assoc]

end

theorem closesWord_newline (cs rest : List Char) :
    closesWord (cs ++ '\n' :: rest) = closesWord cs := by
  cases cs with
  | nil => exact (show closesWord ('\n' :: rest) = true from rfl)
  | cons c cs => rfl

theorem identifierWord_eq_some_iff {previous : Option Char} {cs : List Char} {found : Found} :
    identifierWord previous cs = some found ↔ opensWord previous = true ∧
      ∃ name after, cs = name ++ after ∧ isIdentifier name = true ∧ closesWord after = true ∧
        found = ⟨[], name, []⟩ := by
  refine (wordNaming_nothing_eq_some_iff wordEnd_closesWord).trans (and_congr_right fun _ => ?_)
  constructor
  · rintro ⟨name, after, piece, rest, rfl, hname, htrail, rfl⟩
    obtain ⟨hcloses, rfl, -⟩ := wordEnd_eq_some_iff.mp htrail
    exact ⟨name, after, rfl, hname, hcloses, rfl⟩
  · rintro ⟨name, after, rfl, hname, hcloses, rfl⟩
    exact ⟨name, after, [], after, rfl, hname, wordEnd_eq_some_iff.mpr ⟨hcloses, rfl, rfl⟩, rfl⟩

theorem identifierWord_staysOnLine : Recogniser.StaysOnLine identifierWord where
  nothing previous := by
    unfold identifierWord wordNaming
    split <;> rfl
  stops previous cs rest := by
    refine Option.ext fun found => ?_
    rw [identifierWord_eq_some_iff, identifierWord_eq_some_iff]
    refine and_congr_right fun _ => ?_
    constructor
    · rintro ⟨name, after, heq, hname, hcloses, rfl⟩
      have hnewline : '\n' ∉ name := fun h =>
        absurd (forall_isNamePart_of_isIdentifier hname _ h) (by decide)
      obtain ⟨more, rfl, hafter⟩ := exists_append_of_notMem heq hnewline
      rw [hafter, closesWord_newline] at hcloses
      exact ⟨name, more, rfl, hname, hcloses, rfl⟩
    · rintro ⟨name, after, rfl, hname, hcloses, rfl⟩
      refine ⟨name, after ++ '\n' :: rest, List.append_assoc .., hname, ?_, rfl⟩
      rw [closesWord_newline]
      exact hcloses
  fresh cs := rfl

end TradeScript.Scan
