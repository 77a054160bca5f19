import TradeScript.Proofs.Scan
import TradeScript.Suppression

/-!
# TradeScript.Proofs.Suppression.Written

The switching comment of a line, said without a scanner. A comment is `Written` in a
fixed form; that of a line is the first one there (`IsSwitchOf`), and the tags are what
stands between the breaks of its list (`Lists`). The scanner finds exactly this
(`says_switch?_iff`).

At one place two words can fit, as `disable-next-line` starts with `disable`. The
scanner tries the longer word first, so its list of tags is the shorter of the two.
-/

namespace TradeScript

open Text (isBlank)

namespace Suppression

/-! ### Switching comments as they are written -/

/-- A switching comment: `//`, blanks, `mqlint-`, the word of the action, and a list of
tags up to the end of the text, which does not go on with the word. -/
def Written (cs : List Char) (action : Action) (list : List Char) : Prop :=
  ∃ blanks word, cs = ['/', '/'] ++ (blanks ++ ("mqlint-".toList ++ (word.toList ++ list))) ∧
    blanks.all isBlank = true ∧ (action, word) ∈ Action.words ∧
    Scan.closesWord list = true ∧ list.all isTagListChar = true

/-- The switching comment of a line starts at the first place where one can be read. If
two words fit there, the longer counts and the list is the shorter one. -/
def IsSwitchOf (line : List Char) (action : Action) (list : List Char) : Prop :=
  ∃ before rest, line = before ++ rest ∧ Written rest action list ∧
    (∀ action' list', Written rest action' list' → list.length ≤ list'.length) ∧
    ∀ before' rest' action' list', line = before' ++ rest' → Written rest' action' list' →
      before.length ≤ before'.length

/-- The list names the tag: it stands there between breaks, or there is none and `all`
is meant. -/
def Lists (list : List Char) (tag : String) : Prop :=
  (∃ piece ∈ Text.pieces isTagBreak list, Text.trim piece ≠ [] ∧
    tag = String.ofList (Text.trim piece)) ∨
  (∀ piece ∈ Text.pieces isTagBreak list, Text.trim piece = []) ∧ tag = allTag

theorem mem_tagsOf {list : List Char} {tag : String} : tag ∈ tagsOf list ↔ Lists list tag := by
  unfold tagsOf Lists
  split
  · rename_i hnone
    have hempty : ∀ piece ∈ Text.pieces isTagBreak list, Text.trim piece = [] := by
      simpa using hnone
    rw [List.mem_singleton]
    constructor
    · rintro rfl
      exact Or.inr ⟨hempty, rfl⟩
    · rintro (⟨piece, hpiece, hne, -⟩ | ⟨-, rfl⟩)
      · exact absurd (hempty piece hpiece) hne
      · rfl
  · rename_i hsome
    have hnot : ¬ ∀ piece ∈ Text.pieces isTagBreak list, Text.trim piece = [] := by
      simpa using hsome
    rw [or_iff_left fun h => hnot h.1, List.mem_map]
    constructor
    · rintro ⟨_, hmem, rfl⟩
      obtain ⟨hmem, hne⟩ := List.mem_filter.mp hmem
      obtain ⟨piece, hpiece, rfl⟩ := List.mem_map.mp hmem
      exact ⟨piece, hpiece, by simpa using hne, rfl⟩
    · rintro ⟨piece, hpiece, hne, rfl⟩
      exact ⟨_, List.mem_filter.mpr ⟨List.mem_map_of_mem hpiece, by simpa using hne⟩, rfl⟩

/-- The switching comment, if there is one, does the action with the tag. -/
def Says (switch : Option Switch) (action : Action) (tag : String) : Prop :=
  ∃ tags, switch = some ⟨action, tags⟩ ∧ tag ∈ tags

/-! ### The scanner -/

/-- What stands before the word of the action. -/
def lead : Scan.Reader :=
  Scan.inTurn [Scan.exactly ['/', '/'], Scan.blanks, Scan.exactly "mqlint-".toList]

theorem exists_lead_iff {cs rest : List Char} :
    (∃ taken, lead cs = some (taken, rest)) ↔ ∃ blanks, blanks.all isBlank = true ∧
      cs = ['/', '/'] ++ (blanks ++ ("mqlint-".toList ++ rest)) := by
  simp only [lead, Scan.inTurn_cons_eq_some_iff, Scan.inTurn_nil_eq_some_iff,
    Scan.exactly_eq_some_iff]
  constructor
  · rintro ⟨_, _, mid, _, ⟨-, rfl⟩, ⟨blanks, _, _, hblanks, ⟨_, _, _, ⟨-, rfl⟩, ⟨-, rfl⟩, -⟩, -⟩, -⟩
    have hall : blanks.all isBlank = true := by
      rw [← (Prod.mk.inj (Option.some.inj hblanks)).1]
      exact List.all_takeWhile
    exact ⟨blanks, hall, by rw [Scan.blanks_faithful _ _ _ hblanks]⟩
  · rintro ⟨blanks, hblanks, rfl⟩
    have hm : isBlank 'm' = false := by decide
    exact ⟨_, _, _, _, ⟨rfl, rfl⟩, ⟨blanks, _, _, Scan.manyOf_append hblanks hm _,
      ⟨_, _, _, ⟨rfl, rfl⟩, ⟨rfl, rfl⟩, rfl⟩, rfl⟩, rfl⟩

/-- The switching comment with the word of the entry, if that comes next. -/
def fit? (rest : List Char) (entry : Action × String) : Option Switch :=
  match Text.after? entry.2.toList rest with
  | none => none
  | some list =>
      if Scan.closesWord list && list.all isTagListChar then some ⟨entry.1, tagsOf list⟩ else none

/-- The word of the entry comes next, and then the list. -/
structure Fits (rest : List Char) (entry : Action × String) (list : List Char) : Prop where
  eq_append : rest = entry.2.toList ++ list
  closes : Scan.closesWord list = true
  all : list.all isTagListChar = true

theorem fit?_eq_some_iff {rest : List Char} {entry : Action × String} {switch : Switch} :
    fit? rest entry = some switch ↔
      ∃ list, Fits rest entry list ∧ switch = ⟨entry.1, tagsOf list⟩ := by
  unfold fit?
  constructor
  · intro h
    split at h
    · simp at h
    · rename_i list hlist
      split at h
      · rename_i hfits
        obtain ⟨hcloses, hall⟩ := Bool.and_eq_true_iff.mp hfits
        exact ⟨list, ⟨Scan.after?_eq_some_iff.mp hlist, hcloses, hall⟩,
          (Option.some.inj h).symm⟩
      · simp at h
  · rintro ⟨list, hfits, rfl⟩
    rw [Scan.after?_eq_some_iff.mpr hfits.eq_append]
    simp [hfits.closes, hfits.all]

theorem written_iff {cs : List Char} {action : Action} {list : List Char} :
    Written cs action list ↔ ∃ taken rest word, lead cs = some (taken, rest) ∧
      (action, word) ∈ Action.words ∧ Fits rest (action, word) list := by
  constructor
  · rintro ⟨blanks, word, rfl, hblanks, hword, hcloses, hall⟩
    obtain ⟨taken, htaken⟩ := exists_lead_iff.mpr ⟨blanks, hblanks, rfl⟩
    exact ⟨taken, _, word, htaken, hword, rfl, hcloses, hall⟩
  · rintro ⟨taken, rest, word, htaken, hword, rfl, hcloses, hall⟩
    obtain ⟨blanks, hblanks, rfl⟩ := exists_lead_iff.mp ⟨taken, htaken⟩
    exact ⟨blanks, word, rfl, hblanks, hword, hcloses, hall⟩

namespace Fits

variable {rest list list' : List Char} {entry entry' : Action × String}

theorem length_eq (h : Fits rest entry list) :
    rest.length = entry.2.toList.length + list.length := by
  rw [h.eq_append, List.length_append]

theorem list_eq (h : Fits rest entry list) (h' : Fits rest entry list') : list = list' :=
  List.append_cancel_left (h.eq_append.symm.trans h'.eq_append)

end Fits

/-- The first word that fits is the longest, so no list is shorter. -/
theorem exists_fits_of_findSome? {rest : List Char} {switch : Switch}
    (h : Action.words.findSome? (fit? rest) = some switch) :
    ∃ entry ∈ Action.words, ∃ list, Fits rest entry list ∧ switch = ⟨entry.1, tagsOf list⟩ ∧
      ∀ entry' ∈ Action.words, ∀ list', Fits rest entry' list' → list.length ≤ list'.length := by
  have hsorted : Action.words.Pairwise fun a b => b.2.toList.length < a.2.toList.length := by
    decide
  obtain ⟨earlier, entry, later, hwords, hfit, hnone⟩ := List.findSome?_eq_some_iff.mp h
  obtain ⟨list, hfits, rfl⟩ := fit?_eq_some_iff.mp hfit
  rw [hwords] at hsorted ⊢
  refine ⟨entry, by simp, list, hfits, rfl, fun entry' hentry' list' hfits' => ?_⟩
  rcases List.mem_append.mp hentry' with hentry' | hentry'
  · have hfit' := fit?_eq_some_iff.mpr ⟨list', hfits', rfl⟩
    rw [hnone entry' hentry'] at hfit'
    exact absurd hfit' (by simp)
  · rcases List.mem_cons.mp hentry' with rfl | hentry'
    · exact Nat.le_of_eq (congrArg List.length (hfits.list_eq hfits'))
    · have hlater := (List.pairwise_cons.mp (List.pairwise_append.mp hsorted).2.1).1
      have hshorter := hlater entry' hentry'
      have hrest := hfits.length_eq
      have hrest' := hfits'.length_eq
      omega

theorem switchAtFront?_of_lead {cs taken rest : List Char} (h : lead cs = some (taken, rest)) :
    switchAtFront? cs = Action.words.findSome? (fit? rest) := by
  unfold switchAtFront?
  unfold lead at h
  rw [h]
  rfl

theorem written_of_switchAtFront? {cs : List Char} {switch : Switch}
    (h : switchAtFront? cs = some switch) :
    ∃ action list, Written cs action list ∧ switch = ⟨action, tagsOf list⟩ ∧
      ∀ action' list', Written cs action' list' → list.length ≤ list'.length := by
  cases htaken : lead cs with
  | none =>
      unfold switchAtFront? at h
      unfold lead at htaken
      rw [htaken] at h
      exact absurd h (by simp)
  | some split =>
      obtain ⟨taken, rest⟩ := split
      rw [switchAtFront?_of_lead htaken] at h
      obtain ⟨⟨action, word⟩, hword, list, hfits, rfl, hleast⟩ := exists_fits_of_findSome? h
      refine ⟨action, list, written_iff.mpr ⟨taken, rest, word, htaken, hword, hfits⟩, rfl, ?_⟩
      intro action' list' hwritten
      obtain ⟨_, _, word', htaken', hword', hfits'⟩ := written_iff.mp hwritten
      obtain ⟨rfl, rfl⟩ := Prod.mk.inj (Option.some.inj (htaken.symm.trans htaken'))
      exact hleast _ hword' list' hfits'

namespace Written

variable {cs list list' : List Char} {action action' : Action}

theorem isSome_switchAtFront? (h : Written cs action list) : (switchAtFront? cs).isSome := by
  obtain ⟨taken, rest, word, htaken, hword, hfits⟩ := written_iff.mp h
  rw [switchAtFront?_of_lead htaken]
  refine List.findSome?_isSome_iff.mpr ⟨_, hword, ?_⟩
  rw [fit?_eq_some_iff.mpr ⟨list, hfits, rfl⟩]
  rfl

/-- The words have different lengths, so the length of the list tells them apart. -/
theorem eq_of_length_eq (h : Written cs action list) (h' : Written cs action' list')
    (hlength : list.length = list'.length) : action = action' ∧ list = list' := by
  have hwords : ∀ a ∈ Action.words, ∀ b ∈ Action.words,
      a.2.toList.length = b.2.toList.length → a = b := by decide
  obtain ⟨_, rest, word, htaken, hword, hfits⟩ := written_iff.mp h
  obtain ⟨_, rest', word', htaken', hword', hfits'⟩ := written_iff.mp h'
  obtain ⟨-, rfl⟩ := Prod.mk.inj (Option.some.inj (htaken.symm.trans htaken'))
  have hrest := hfits.length_eq
  have hrest' := hfits'.length_eq
  obtain ⟨rfl, rfl⟩ := Prod.mk.inj (hwords _ hword _ hword' (by omega))
  exact ⟨rfl, hfits.list_eq hfits'⟩

end Written

theorem switchAtFront?_eq_some_iff {cs : List Char} {switch : Switch} :
    switchAtFront? cs = some switch ↔
      ∃ action list, Written cs action list ∧ switch = ⟨action, tagsOf list⟩ ∧
        ∀ action' list', Written cs action' list' → list.length ≤ list'.length := by
  refine ⟨written_of_switchAtFront?, ?_⟩
  rintro ⟨action, list, hwritten, rfl, hleast⟩
  obtain ⟨found, hfound⟩ := Option.isSome_iff_exists.mp hwritten.isSome_switchAtFront?
  obtain ⟨action', list', hwritten', rfl, hleast'⟩ := written_of_switchAtFront? hfound
  have hlength := Nat.le_antisymm (hleast action' list' hwritten') (hleast' action list hwritten)
  obtain ⟨rfl, rfl⟩ := hwritten.eq_of_length_eq hwritten' hlength
  exact hfound

/-- The scanner stops at the first place where a switching comment starts. -/
theorem switch?_eq_some_iff {line : List Char} {switch : Switch} :
    switch? line = some switch ↔ ∃ before rest, line = before ++ rest ∧
      switchAtFront? rest = some switch ∧ ∀ before' rest', line = before' ++ rest' →
        (switchAtFront? rest').isSome → before.length ≤ before'.length := by
  induction line with
  | nil =>
      have hnone : switchAtFront? [] = none := rfl
      refine ⟨fun h => by simp [switch?] at h, ?_⟩
      rintro ⟨before, rest, heq, hfront, -⟩
      obtain ⟨-, rfl⟩ := List.append_eq_nil_iff.mp heq.symm
      rw [hnone] at hfront
      exact absurd hfront (by simp)
  | cons c cs ih =>
      rw [switch?]
      cases hhere : switchAtFront? (c :: cs) with
      | some found =>
          rw [Option.some_or, Option.some.injEq]
          constructor
          · rintro rfl
            exact ⟨[], c :: cs, rfl, hhere, fun _ _ _ _ => Nat.zero_le _⟩
          · rintro ⟨before, rest, heq, hfront, hfirst⟩
            have hzero := hfirst [] (c :: cs) rfl (by rw [hhere]; rfl)
            obtain rfl := List.length_eq_zero_iff.mp (Nat.le_zero.mp hzero)
            rw [List.nil_append] at heq
            subst heq
            exact Option.some.inj (hhere.symm.trans hfront)
      | none =>
          rw [Option.none_or, ih]
          constructor
          · rintro ⟨before, rest, rfl, hfront, hfirst⟩
            refine ⟨c :: before, rest, rfl, hfront, fun before' rest' heq hfront' => ?_⟩
            cases before' with
            | nil =>
                rw [List.nil_append] at heq
                rw [← heq, hhere] at hfront'
                exact absurd hfront' (by simp)
            | cons c' before' =>
                exact Nat.succ_le_succ (hfirst before' rest' (List.cons.inj heq).2 hfront')
          · rintro ⟨before, rest, heq, hfront, hfirst⟩
            cases before with
            | nil =>
                rw [List.nil_append] at heq
                rw [← heq, hhere] at hfront
                exact absurd hfront (by simp)
            | cons c' before =>
                obtain ⟨rfl, rfl⟩ := List.cons.inj heq
                refine ⟨before, rest, rfl, hfront, fun before' rest' heq' hfront' => ?_⟩
                exact Nat.le_of_succ_le_succ
                  (hfirst (c :: before') rest' (congrArg (c :: ·) heq') hfront')

/-- The switching comment that the scanner gives is that of the line. -/
theorem says_switch?_iff {line : List Char} {action : Action} {tag : String} :
    Says (switch? line) action tag ↔ ∃ list, IsSwitchOf line action list ∧ Lists list tag := by
  constructor
  · rintro ⟨tags, hswitch, htag⟩
    obtain ⟨before, rest, rfl, hfront, hfirst⟩ := switch?_eq_some_iff.mp hswitch
    obtain ⟨_, list, hwritten, heq, hleast⟩ := switchAtFront?_eq_some_iff.mp hfront
    obtain ⟨rfl, rfl⟩ := Switch.mk.inj heq
    refine ⟨list, ⟨before, rest, rfl, hwritten, hleast, ?_⟩, mem_tagsOf.mp htag⟩
    intro before' rest' action' list' heq' hwritten'
    exact hfirst before' rest' heq' hwritten'.isSome_switchAtFront?
  · rintro ⟨list, ⟨before, rest, rfl, hwritten, hleast, hfirst⟩, htag⟩
    refine ⟨tagsOf list, switch?_eq_some_iff.mpr ⟨before, rest, rfl, ?_, ?_⟩, mem_tagsOf.mpr htag⟩
    · exact switchAtFront?_eq_some_iff.mpr ⟨action, list, hwritten, rfl, hleast⟩
    · intro before' rest' heq hfront
      obtain ⟨found, hfound⟩ := Option.isSome_iff_exists.mp hfront
      obtain ⟨action', list', hwritten', -⟩ := written_of_switchAtFront? hfound
      exact hfirst before' rest' action' list' heq hwritten'

end Suppression

end TradeScript
