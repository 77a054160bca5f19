import Mathlib.Data.List.Flatten
import TradeScript.Proofs.Order
import TradeScript.Proofs.Word

/-!
# TradeScript.Proofs.Property

The keys of `#property` directives. From each directive on, the line is searched for a
key, and the search goes past the next directive. So a directive that has no key of its
own is given the key of the first directive behind it that has one (`propertyKeyFrom_eq`).
If that key is not known, it is reported for both.
-/

namespace TradeScript.Check

open Scan
open Text (byteLength byteLength_append byteLength_cons)

/-! ### Directives -/

theorem directiveName_eq_some {previous : Option Char} {cs : List Char} {found : Found}
    (h : directiveName previous cs = some found) :
    (∃ rest, cs = '#' :: rest) ∧ Matched.text found = '#' :: found.name ∧
      ∀ c ∈ found.name, isNamePart c = true := by
  obtain ⟨cs₁, cs₂, cs₃, hlead, hname, htrail⟩ := naming_eq_some h
  obtain ⟨hmark, rfl⟩ := exactly_eq_some_iff.mp hlead
  have htrail : found.trail = [] := (Prod.mk.inj (Option.some.inj htrail)).1.symm
  refine ⟨⟨cs₁, rfl⟩, ?_, forall_of_identifier hname⟩
  simp only [Matched.text, hmark, htrail, List.append_nil, List.singleton_append]

/-- Behind its mark a directive has characters of a name only. -/
theorem directiveName_noOverlap : directiveName.NoOverlap := by
  intro previous inside rest found h hne hlt previous'
  obtain ⟨-, htext, hname⟩ := directiveName_eq_some h
  obtain ⟨after, hafter⟩ := directiveName_faithful _ _ _ h
  rcases List.append_eq_append_iff.mp hafter with ⟨xs, rfl, -⟩ | ⟨xs, hxs, rfl⟩
  · rw [List.length_append] at hlt
    omega
  · cases hother : directiveName previous' (xs ++ after) with
    | none => rfl
    | some other =>
        obtain ⟨⟨more, hmark⟩, -, -⟩ := directiveName_eq_some hother
        cases xs with
        | nil =>
            rw [hxs, List.append_nil] at hlt
            exact absurd hlt (Nat.lt_irrefl _)
        | cons d xs =>
            obtain rfl : d = '#' := (List.cons.inj hmark).1
            obtain ⟨c, inside, rfl⟩ := List.exists_cons_of_ne_nil hne
            rw [htext] at hxs
            have hmem : '#' ∈ found.name := by
              rw [(List.cons.inj hxs).2]
              exact List.mem_append_right _ List.mem_cons_self
            exact absurd (hname _ hmem) (by decide)

/-! ### Keys -/

/-- What stands before a key: the directive and blanks. -/
theorem propertyKey_eq_some {previous : Option Char} {cs : List Char} {found : Found}
    (h : propertyKey previous cs = some found) :
    ∃ space after, space ≠ [] ∧ (∀ c ∈ space, Text.isBlank c = true) ∧
      found.lead = '#' :: ("property".toList ++ space) ∧
      cs = found.lead ++ (found.name ++ after) := by
  obtain ⟨cs₁, cs₂, cs₃, hlead, hname, htrail⟩ := naming_eq_some h
  obtain ⟨mark, rest, more, hmark, hmore, heq⟩ := inTurn_cons_eq_some_iff.mp hlead
  obtain ⟨space, rest', none, hspace, hnone, rfl⟩ := inTurn_cons_eq_some_iff.mp hmore
  obtain ⟨rfl, rfl⟩ := inTurn_nil_eq_some_iff.mp hnone
  obtain ⟨rfl, rfl⟩ := exactly_eq_some_iff.mp hmark
  obtain ⟨hne, hblank⟩ := forall_of_someOf hspace
  refine ⟨space, cs₂, hne, hblank, ?_, ?_⟩
  · rw [heq, List.append_nil]
    rfl
  · rw [identifier_faithful _ _ _ hname, inTurn_faithful (by simp) _ _ _ hlead]

/-- Where there is a key, there is a `#property` directive. -/
theorem directiveName_of_propertyKey {previous : Option Char} {cs : List Char} {found : Found}
    (h : propertyKey previous cs = some found) :
    directiveName previous cs = some ⟨['#'], "property".toList, []⟩ := by
  obtain ⟨space, after, hne, hblank, hlead, hcs⟩ := propertyKey_eq_some h
  obtain ⟨c, space, rfl⟩ := List.exists_cons_of_ne_nil hne
  have hmark : exactly ['#'] cs =
      some (['#'], "property".toList ++ c :: (space ++ (found.name ++ after))) := by
    refine exactly_eq_some_iff.mpr ⟨rfl, ?_⟩
    rw [hcs, hlead]
    simp only [List.append_assoc, List.cons_append, List.nil_append]
  have hword : isIdentifier "property".toList = true := by decide
  have hname := identifier_append hword (isNamePart_of_isBlank (hblank c List.mem_cons_self))
    (space ++ (found.name ++ after))
  exact naming_of_readers hmark hname rfl

/-- The `#property` directives of a line. -/
def propertyDirectives (bare : List Char) : List (Occurrence Found) :=
  (occurrences directiveName bare).filter fun o => o.name == "property"

/-- The key that follows a directive, if one does. -/
def ownKey? (bare : List Char) (o : Occurrence Found) : Option Found :=
  propertyKey none (Text.dropBytes o.offset bare)

section

variable {bare : List Char}

theorem propertyDirectives_pairwise (bare : List Char) :
    (propertyDirectives bare).Pairwise fun a b => a.offset < b.offset :=
  (occurrences_pairwise directiveName bare).filter _

/-- A directive stands behind a front of the line that is as long as its offset. -/
theorem exists_split_of_mem {o : Occurrence Found} (h : o ∈ propertyDirectives bare) :
    ∃ before rest, bare = before ++ rest ∧ o.offset = byteLength before ∧
      ∃ more, rest = '#' :: more := by
  obtain ⟨before, rest, hbare, -, hoffset, hfound⟩ :=
    isMatch_of_mem_occurrencesFrom (List.mem_filter.mp h).1
  exact ⟨before, rest, hbare, by rw [hoffset, Nat.zero_add], (directiveName_eq_some hfound).1⟩

theorem ownKey?_of_split {before rest : List Char} {o : Occurrence Found}
    (hbare : bare = before ++ rest) (hoffset : o.offset = byteLength before) :
    ownKey? bare o = propertyKey none rest := by
  rw [ownKey?, hbare, hoffset, Text.dropBytes_append]

/-- Every key is the own key of a directive. -/
theorem exists_ownKey?_eq {rest : List Char} {previous : Option Char} {found : Found}
    (before : List Char) (h : propertyKey previous rest = some found) :
    ∃ o ∈ propertyDirectives (before ++ rest), o.offset = byteLength before ∧
      ownKey? (before ++ rest) o = some found := by
  have hdirective := directiveName_of_propertyKey h
  have hrest : rest ≠ [] := by
    obtain ⟨⟨more, rfl⟩, -⟩ := directiveName_eq_some hdirective
    exact List.cons_ne_nil _ _
  obtain ⟨o, ho, hoffset, hfound⟩ := exists_mem_occurrencesFrom directiveName_noOverlap [] 0 hrest
    (Nat.zero_le before.length) hdirective
  rw [Nat.zero_add] at hoffset
  refine ⟨o, List.mem_filter.mpr ⟨ho, ?_⟩, hoffset, ?_⟩
  · rw [Occurrence.name, hfound]
    decide
  · rw [ownKey?_of_split rfl hoffset]
    exact h

/-- The key of a directive comes before the next directive. -/
theorem offset_add_lead_le {a b : Occurrence Found} (ha : a ∈ propertyDirectives bare)
    (hb : b ∈ propertyDirectives bare) (hlt : a.offset < b.offset) {key : Found}
    (hkey : ownKey? bare a = some key) : a.offset + byteLength key.lead ≤ b.offset := by
  obtain ⟨before, rest, rfl, hoffset, -⟩ := exists_split_of_mem ha
  obtain ⟨before', _, hsplit, hoffset', more, rfl⟩ := exists_split_of_mem hb
  rw [ownKey?_of_split rfl hoffset] at hkey
  obtain ⟨space, after, -, hblank, hlead, rfl⟩ := propertyKey_eq_some hkey
  rw [hoffset, hoffset'] at hlt ⊢
  rw [← byteLength_append]
  refine Nat.le_of_not_lt fun hinside => ?_
  -- Otherwise the mark of the second directive stands between the first and its key.
  rw [← List.append_assoc] at hsplit
  obtain ⟨xs, hxs, hfront, hrest⟩ := exists_append_of_byteLength_lt hsplit.symm hinside
  obtain ⟨ys, hys, rfl, hlead'⟩ := exists_append_of_byteLength_lt hfront hlt
  obtain ⟨x, xs, rfl⟩ := List.exists_cons_of_ne_nil hxs
  obtain ⟨y, ys, rfl⟩ := List.exists_cons_of_ne_nil hys
  obtain rfl : '#' = x := (List.cons.inj hrest).1
  rw [hlead] at hlead'
  have hmem : '#' ∈ "property".toList ++ space := by
    rw [(List.cons.inj hlead').2]
    exact List.mem_append_right _ List.mem_cons_self
  rcases List.mem_append.mp hmem with hmem | hmem
  · exact absurd hmem (by decide)
  · exact absurd (hblank _ hmem) (by decide)

end

/-! ### Borrowed keys -/

/-- Report the key that follows a directive, if it is not known. -/
def reportOwnKey (doc : Document) (line : Line) (number : Nat) (o : Occurrence Found) :
    List Diagnostic :=
  match ownKey? line.bare o with
  | none => []
  | some key =>
      let name := String.ofList key.name
      let start := o.offset + byteLength key.lead
      if Vocabulary.isPropertyKey name then []
      else [(Finding.invalidPropertyValue name).report
        (doc.span number start (start + byteLength key.name))]

section

variable {doc : Document} {line : Line} {number : Nat} {front back : List (Occurrence Found)}
  {o : Occurrence Found}

/-- What is found from a directive on is the own key of a directive from there on. -/
theorem exists_ownKey?_of_mem_occurrences {key : Occurrence Found}
    (h : propertyDirectives line.bare = front ++ o :: back)
    (hkey : key ∈ occurrences propertyKey (Text.dropBytes o.offset line.bare)) :
    ∃ b ∈ o :: back, b.offset = o.offset + key.offset ∧ ownKey? line.bare b = some key.found := by
  have ho : o ∈ propertyDirectives line.bare := by simp [h]
  obtain ⟨before, rest, hbare, hoffset, -⟩ := exists_split_of_mem ho
  rw [hbare, hoffset, Text.dropBytes_append] at hkey
  obtain ⟨keyBefore, keyRest, rfl, -, hkeyOffset, hfound⟩ := isMatch_of_mem_occurrencesFrom hkey
  obtain ⟨b, hb, hplace, hown⟩ := exists_ownKey?_eq (before ++ keyBefore) hfound
  rw [List.append_assoc, ← hbare] at hb hown
  rw [byteLength_append, ← hoffset] at hplace
  refine ⟨b, ?_, by rw [hplace, hkeyOffset, Nat.zero_add], hown⟩
  -- The directives before this one start before it.
  have horder := propertyDirectives_pairwise line.bare
  rw [h] at hb horder
  refine (List.mem_append.mp hb).resolve_left fun hfront => ?_
  have hlt := (List.pairwise_append.mp horder).2.2 b hfront o List.mem_cons_self
  omega

/-- The search ends at the own key of any directive from there on, or before. -/
theorem exists_head?_of_ownKey? {b : Occurrence Found} {found : Found}
    (ho : o ∈ propertyDirectives line.bare) (hb : b ∈ propertyDirectives line.bare)
    (hle : o.offset ≤ b.offset) (hown : ownKey? line.bare b = some found) :
    ∃ key, (occurrences propertyKey (Text.dropBytes o.offset line.bare)).head? = some key ∧
      o.offset + key.offset ≤ b.offset := by
  obtain ⟨before, rest, hbare, hoffset, -⟩ := exists_split_of_mem ho
  obtain ⟨before', rest', hbare', hoffset', more, hmark⟩ := exists_split_of_mem hb
  have hrest : rest' ≠ [] := hmark ▸ List.cons_ne_nil _ _
  rw [ownKey?_of_split hbare' hoffset'] at hown
  rw [hoffset, hoffset'] at hle ⊢
  obtain ⟨xs, rfl, rfl⟩ := exists_append_of_byteLength_le (hbare.symm.trans hbare') hle
  obtain ⟨key, hkey, hle⟩ := exists_head?_occurrencesFrom_le [] 0 hrest
    (show propertyKey (xs.reverse ++ []).head? rest' = some found from hown)
  refine ⟨key, ?_, ?_⟩
  · rw [hbare, Text.dropBytes_append]
    exact hkey
  · rw [byteLength_append]
    omega

/-- From a directive on, the key of the first directive that has one is reported. -/
theorem propertyKeyFrom_eq (h : propertyDirectives line.bare = front ++ o :: back) :
    propertyKeyFrom doc line number o =
      match (o :: back).find? fun b => (ownKey? line.bare b).isSome with
      | none => []
      | some b => reportOwnKey doc line number b := by
  have horder : (o :: back).Pairwise fun a b => a.offset < b.offset :=
    (List.pairwise_append.mp (h ▸ propertyDirectives_pairwise line.bare)).2.1
  have hmem : ∀ b ∈ o :: back, b ∈ propertyDirectives line.bare :=
    fun b hb => h ▸ List.mem_append_right _ hb
  cases hfind : (o :: back).find? fun b => (ownKey? line.bare b).isSome with
  | none =>
      have hhead : (occurrences propertyKey (Text.dropBytes o.offset line.bare)).head? = none := by
        refine Option.eq_none_iff_forall_ne_some.mpr fun key hkey => ?_
        obtain ⟨b, hb, -, hown⟩ := exists_ownKey?_of_mem_occurrences h (List.mem_of_head? hkey)
        have hnone := List.find?_eq_none.mp hfind b hb
        simp [hown] at hnone
      rw [propertyKeyFrom, hhead]
  | some b =>
      obtain ⟨hb, mid, after, hsplit, hmid⟩ := List.find?_eq_some_iff_append.mp hfind
      obtain ⟨found, hown⟩ := Option.isSome_iff_exists.mp hb
      have hb : b ∈ o :: back := List.mem_of_find?_eq_some hfind
      have hle : o.offset ≤ b.offset := by
        rcases List.mem_cons.mp hb with rfl | hb
        · exact Nat.le_refl _
        · exact Nat.le_of_lt ((List.pairwise_cons.mp horder).1 b hb)
      obtain ⟨key, hkey, hkeyLe⟩ :=
        exists_head?_of_ownKey? (hmem o List.mem_cons_self) (hmem b hb) hle hown
      obtain ⟨b', hb', hplace, hown'⟩ :=
        exists_ownKey?_of_mem_occurrences h (List.mem_of_head? hkey)
      -- What was found belongs to a directive with a key, and not behind the first of them.
      obtain rfl : b' = b := by
        rw [hsplit] at hb' horder
        rcases List.mem_append.mp hb' with hb' | hb'
        · have hnone := hmid b' hb'
          simp [hown'] at hnone
        · rcases List.mem_cons.mp hb' with rfl | hb'
          · rfl
          · have hlt := (List.pairwise_cons.mp (List.pairwise_append.mp horder).2.1).1 b' hb'
            omega
      simp only [propertyKeyFrom, hkey, reportOwnKey, hown', hplace, Occurrence.name,
        Occurrence.start, Occurrence.stop, Nat.add_assoc]

theorem mem_reportOwnKey {d : Diagnostic} (h : d ∈ reportOwnKey doc line number o) :
    ∃ key, ownKey? line.bare o = some key ∧
      Vocabulary.isPropertyKey (String.ofList key.name) = false ∧
      ∃ stop, d.range = doc.span number (o.offset + byteLength key.lead) stop := by
  unfold reportOwnKey at h
  split at h
  · simp at h
  · rename_i key hkey
    simp only at h
    split at h
    · simp at h
    · rename_i hunknown
      obtain rfl := List.mem_singleton.mp h
      exact ⟨key, hkey, Bool.not_eq_true _ ▸ hunknown, _, rfl⟩

/-- The own keys of directives are reported at increasing positions. -/
theorem reportOwnKey_start_lt (fits : doc.Fits) (h : (line, number) ∈ doc.numbered)
    {a b : Occurrence Found} (ha : a ∈ propertyDirectives line.bare)
    (hb : b ∈ propertyDirectives line.bare) (hlt : a.offset < b.offset) {d e : Diagnostic}
    (hd : d ∈ reportOwnKey doc line number a) (he : e ∈ reportOwnKey doc line number b) :
    d.range.start < e.range.start := by
  obtain ⟨key, hkey, -, stop, hrange⟩ := mem_reportOwnKey hd
  obtain ⟨key', hkey', -, stop', hrange'⟩ := mem_reportOwnKey he
  have hle := offset_add_lead_le ha hb hlt hkey
  have hlead : 0 < byteLength key'.lead := by
    obtain ⟨space, after, -, -, hlead, -⟩ := propertyKey_eq_some hkey'
    rw [hlead, byteLength_cons]
    exact Nat.add_pos_left (Char.utf8Size_pos _) _
  have hvisible : VisibleAt line.bare (a.offset + byteLength key.lead) := by
    obtain ⟨before, rest, hbare, hoffset, -⟩ := exists_split_of_mem ha
    rw [ownKey?_of_split hbare hoffset] at hkey
    obtain ⟨space, after, -, -, -, rfl⟩ := propertyKey_eq_some hkey
    rw [hbare, hoffset, ← byteLength_append, ← List.append_assoc, ← List.append_assoc]
    exact visibleAt_of_token (propertyKey_namesToken _ _ _ hkey)
  rw [hrange, hrange']
  exact fits.span_start_lt h hvisible (by omega) _ _

end

/-- The own keys of the `#property` directives of a line. -/
def ownKeys (bare : List Char) : List (Option String) :=
  (propertyDirectives bare).map fun o => (ownKey? bare o).map fun key => String.ofList key.name

example : ownKeys "#property #property foo".toList = [none, some "foo"] := by decide +kernel

/-- On the line, a `#property` without a key comes right before one with a key that is
not known. -/
def BorrowsUnknownKey (bare : List Char) : Prop :=
  ∃ key, Vocabulary.isPropertyKey key = false ∧ [none, some key] <:+: ownKeys bare

section

variable {doc : Document} {line : Line} {number : Nat}

theorem ofDirective_of_mem {o : Occurrence Found} (h : o ∈ propertyDirectives line.bare) :
    ofDirective doc line number o = propertyKeyFrom doc line number o := by
  have hname : (o.name == "property") = true := (List.mem_filter.mp h).2
  have hdirective : Vocabulary.isDirective o.name = true := by
    rw [eq_of_beq hname]
    decide
  rw [ofDirective, hdirective, hname]
  rfl

/-- A borrowed key that is not known is reported twice. -/
theorem exists_sublist_directives_of_borrows (doc : Document) (number : Nat)
    (h : BorrowsUnknownKey line.bare) :
    ∃ d : Diagnostic, d.code = .invalidPropertyValue ∧ d.range.start.line = .ofNatClamp number ∧
      [d, d].Sublist (directives doc line number) := by
  obtain ⟨name, hunknown, front, back, heq⟩ := h
  obtain ⟨xs, back, hsplit, hxs, -⟩ := List.map_eq_append_iff.mp heq.symm
  obtain ⟨front, pair, rfl, -, hpair⟩ := List.map_eq_append_iff.mp hxs
  obtain ⟨a, pair, rfl, ha, hpair⟩ := List.map_eq_cons_iff.mp hpair
  obtain ⟨b, pair, rfl, hb, hpair⟩ := List.map_eq_cons_iff.mp hpair
  obtain rfl := List.map_eq_nil_iff.mp hpair
  obtain ⟨key, hkey, rfl⟩ := Option.map_eq_some_iff.mp hb
  have ha : ownKey? line.bare a = none := Option.map_eq_none_iff.mp ha
  have hsplitA : propertyDirectives line.bare = front ++ a :: b :: back := by
    rw [hsplit, List.append_assoc]
    rfl
  have hsplitB : propertyDirectives line.bare = (front ++ [a]) ++ b :: back := by
    rw [hsplitA, List.append_cons]
  -- The search from either directive ends at the second.
  have hfromA : ofDirective doc line number a = reportOwnKey doc line number b := by
    rw [ofDirective_of_mem (by simp [hsplitA]), propertyKeyFrom_eq hsplitA,
      List.find?_cons_of_neg (by simp [ha]), List.find?_cons_of_pos (by simp [hkey])]
  have hfromB : ofDirective doc line number b = reportOwnKey doc line number b := by
    rw [ofDirective_of_mem (by simp [hsplitB]), propertyKeyFrom_eq hsplitB,
      List.find?_cons_of_pos (by simp [hkey])]
  have hreport : ∃ d : Diagnostic, reportOwnKey doc line number b = [d] ∧
      d.code = .invalidPropertyValue ∧ d.range.start.line = .ofNatClamp number := by
    simp only [reportOwnKey, hkey, hunknown]
    exact ⟨_, rfl, rfl, rfl⟩
  have hpair : [a, b].Sublist (propertyDirectives line.bare) :=
    hsplit ▸ (List.infix_append front [a, b] back).sublist
  obtain ⟨d, hd, hcode, hline⟩ := hreport
  refine ⟨d, hcode, hline, ?_⟩
  have htwice := (hpair.trans List.filter_sublist).flatMap (ofDirective doc line number)
  rwa [List.flatMap_cons, List.flatMap_singleton, hfromA, hfromB, hd] at htwice

/-- Directives without keys come before one with a key that is not known. -/
theorem borrows_of_split {front xs back : List (Occurrence Found)} {o : Occurrence Found}
    {key : Found} (hsplit : propertyDirectives line.bare = front ++ xs ++ o :: back)
    (hne : xs ≠ []) (hxs : ∀ x ∈ xs, ownKey? line.bare x = none)
    (hkey : ownKey? line.bare o = some key)
    (hunknown : Vocabulary.isPropertyKey (String.ofList key.name) = false) :
    BorrowsUnknownKey line.bare := by
  obtain ⟨ys, x, rfl⟩ : ∃ ys x, xs = ys ++ [x] :=
    ⟨_, _, (List.dropLast_concat_getLast hne).symm⟩
  have hnone := hxs x (List.mem_append_right _ List.mem_cons_self)
  have hinfix : [x, o] <:+: propertyDirectives line.bare :=
    ⟨front ++ ys, back, by rw [hsplit]; simp only [List.append_assoc, List.cons_append]; rfl⟩
  refine ⟨_, hunknown, ?_⟩
  have hmap := hinfix.map fun o => (ownKey? line.bare o).map fun key => String.ofList key.name
  rwa [List.map_cons, List.map_singleton, hnone, hkey] at hmap

/-- A key is reported twice only if it is borrowed. -/
theorem borrows_of_start_eq (fits : doc.Fits) (h : (line, number) ∈ doc.numbered)
    {a b : Occurrence Found} (hpair : [a, b].Sublist (propertyDirectives line.bare))
    {d e : Diagnostic} (hd : d ∈ propertyKeyFrom doc line number a)
    (he : e ∈ propertyKeyFrom doc line number b) (heq : d.range.start = e.range.start) :
    BorrowsUnknownKey line.bare := by
  obtain ⟨xs, ys, hsplit, ha, hb⟩ := List.cons_sublist_iff.mp hpair
  obtain ⟨front, mid, rfl⟩ := List.append_of_mem ha
  obtain ⟨mid', back, rfl⟩ := List.append_of_mem (List.singleton_sublist.mp hb)
  have hsplitA : propertyDirectives line.bare = front ++ a :: (mid ++ mid' ++ b :: back) := by
    rw [hsplit]
    simp only [List.append_assoc, List.cons_append]
  have hsplitB : propertyDirectives line.bare = (front ++ a :: (mid ++ mid')) ++ b :: back := by
    rw [hsplitA]
    simp only [List.append_assoc, List.cons_append]
  rw [propertyKeyFrom_eq hsplitB] at he
  rw [propertyKeyFrom_eq hsplitA, ← List.cons_append, List.find?_append] at hd
  cases hlater : (b :: back).find? fun b => (ownKey? line.bare b).isSome with
  | none =>
      rw [hlater] at he
      exact absurd he List.not_mem_nil
  | some c =>
      rw [hlater] at hd he
      have hc : c ∈ b :: back := List.mem_of_find?_eq_some hlater
      cases hearlier : (a :: (mid ++ mid')).find? fun b => (ownKey? line.bare b).isSome with
      | some c' =>
          -- Two directives have keys of their own, which stand at different places.
          rw [hearlier] at hd
          have hc' : c' ∈ a :: (mid ++ mid') := List.mem_of_find?_eq_some hearlier
          have horder := propertyDirectives_pairwise line.bare
          rw [hsplitB] at horder
          have hlt : c'.offset < c.offset :=
            (List.pairwise_append.mp horder).2.2 c' (List.mem_append_right _ hc') c hc
          have hstart := reportOwnKey_start_lt fits h
            (hsplitB ▸ List.mem_append_left _ (List.mem_append_right _ hc'))
            (hsplitB ▸ List.mem_append_right _ hc) hlt hd he
          exact absurd (heq ▸ hstart) (Position.not_lt_self _)
      | none =>
          obtain ⟨key, hkey, hunknown, -⟩ := mem_reportOwnKey he
          obtain ⟨-, between, after, hbetween, hnone⟩ := List.find?_eq_some_iff_append.mp hlater
          have hsplitC : propertyDirectives line.bare =
              front ++ (a :: (mid ++ mid') ++ between) ++ c :: after := by
            rw [hsplitB, hbetween]
            simp only [List.append_assoc]
          refine borrows_of_split hsplitC (List.cons_ne_nil _ _) (fun x hx => ?_) hkey hunknown
          rcases List.mem_append.mp hx with hx | hx
          · simpa using List.find?_eq_none.mp hearlier x hx
          · simpa using hnone x hx

end

end TradeScript.Check
