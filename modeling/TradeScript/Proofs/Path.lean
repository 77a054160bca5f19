import TradeScript.Path
import TradeScript.Proofs.LineEnding

/-!
# TradeScript.Proofs.Path

The directories above a path. They are listed by going through the names of the path once
(`above`); here they are shown to be what one gets by asking for the parent again and again
(`getElem?_above`). A parent is a path that is written anew from names, so this rests on
reading such a path back: the names of a path, as far as they count (`Settled`), are found
again (`backwards_ofBackwards`).
-/

namespace TradeScript.Path

open Text (joinWith splitAt)

/-- The path that lies `n` directories above a path. -/
def ancestor? (path : String) : Nat → Option String
  | 0 => some path
  | n + 1 => (ancestor? path n).bind parent?

theorem ancestor?_succ (path : String) (n : Nat) :
    ancestor? path (n + 1) = (parent? path).bind fun up => ancestor? up n := by
  induction n with
  | zero => simp [ancestor?]
  | succ n ih => rw [ancestor?, ih, Option.bind_assoc]; rfl

/-! ### Names -/

/-- Names that a path can have, last one first: no slash is in them, a relative path does not
begin with an empty one, and the last one counts. -/
structure Settled (absolute : Bool) (names : List String) : Prop where
  no_slash : ∀ name ∈ names, '/' ∉ name.toList
  opens : absolute = false → names.getLast? ≠ some ""
  settled : settle absolute names = names

variable {absolute : Bool} {path : String} {name : String} {names : List String}

theorem settle_suffix (absolute : Bool) (names : List String) :
    settle absolute names <:+ names := by
  induction names with
  | nil => exact List.suffix_rfl
  | cons name names ih =>
      rw [settle]
      split
      · exact ih.trans (List.suffix_cons name names)
      · exact List.suffix_rfl

theorem settle_settle (absolute : Bool) (names : List String) :
    settle absolute (settle absolute names) = settle absolute names := by
  induction names with
  | nil => rfl
  | cons name names ih =>
      by_cases hidle : isIdle absolute name names = true
      · simpa [settle, hidle] using ih
      · simp [settle, hidle]

theorem settled_of_suffix {more : List String} (hsuffix : names <:+ more)
    (hslash : ∀ name ∈ more, '/' ∉ name.toList)
    (hopens : absolute = false → more.getLast? ≠ some "") :
    Settled absolute (settle absolute names) where
  no_slash := fun name hname =>
    hslash name (hsuffix.subset ((settle_suffix absolute names).subset hname))
  opens := by
    intro habsolute hlast
    refine hopens habsolute ?_
    obtain ⟨front, rfl⟩ := (settle_suffix absolute names).trans hsuffix
    rw [List.getLast?_append, hlast, Option.some_or]
  settled := settle_settle absolute names

theorem Settled.tail (h : Settled absolute (name :: names)) :
    Settled absolute (settle absolute names) :=
  settled_of_suffix (List.suffix_cons name names) h.no_slash h.opens

/-- The names of a path are settled. -/
theorem settled_backwards (path : String) : Settled (isAbsolute path) (backwards path) := by
  have hslash : ∀ name ∈ (pieces path).reverse, '/' ∉ name.toList := by
    intro name hname
    obtain ⟨piece, hpiece, rfl⟩ := List.mem_map.mp (List.mem_reverse.mp hname)
    rw [String.toList_ofList]
    exact Text.not_mem_of_mem_splitAt hpiece
  cases hpath : path.toList with
  | nil =>
      have hnone : backwards path = [] := by
        simp [backwards, pieces, isAbsolute, hpath, splitAt, settle, isIdle]
      exact ⟨by simp [hnone], by simp [hnone], by simp [hnone, settle]⟩
  | cons c cs =>
      refine settled_of_suffix List.suffix_rfl hslash fun hrelative => ?_
      -- The first piece of a relative path has the first character of the path.
      have hc : c ≠ '/' := by simpa [isAbsolute, hpath] using hrelative
      obtain ⟨piece, more, hcs⟩ := Text.exists_cons_of_splitAt '/' cs
      rw [List.getLast?_reverse, pieces, hrelative, hpath]
      simp [Text.splitAt_cons_of_ne hc hcs]

/-! ### Paths from names -/

theorem joinWith_eq_intercalate (sep : Char) (parts : List (List Char)) :
    joinWith sep parts = [sep].intercalate parts := by
  fun_induction joinWith sep parts with
  | case1 => rfl
  | case2 part => simp
  | case3 part next rest ih => rw [ih, List.intercalate_cons_cons]; simp

theorem toList_ofBackwards (absolute : Bool) (names : List String) :
    (ofBackwards absolute names).toList =
      (if absolute then ['/'] else []) ++ joinWith '/' (names.reverse.map String.toList) := by
  rw [ofBackwards, String.toList_append, String.toList_intercalate, joinWith_eq_intercalate]
  cases absolute <;> rfl

theorem isAbsolute_ofBackwards (h : Settled absolute names) :
    isAbsolute (ofBackwards absolute names) = absolute := by
  rw [isAbsolute, toList_ofBackwards]
  cases absolute with
  | true => rfl
  | false =>
      cases hnames : names.reverse with
      | nil => rfl
      | cons first rest =>
          have hlast : names.getLast? = some first := by
            rw [List.getLast?_eq_head?_reverse, hnames, List.head?_cons]
          cases hfirst : first.toList with
          | nil => exact absurd (String.toList_eq_nil_iff.mp hfirst ▸ hlast) (h.opens rfl)
          | cons c cs =>
              have hslash := h.no_slash first (List.mem_of_getLast? hlast)
              have hc : c ≠ '/' := fun heq => hslash (by simp [hfirst, heq])
              simp [hfirst, Text.joinWith_cons_cons, hc]

/-- Names are found again in the path that is written from them. -/
theorem backwards_ofBackwards (h : Settled absolute names) :
    backwards (ofBackwards absolute names) = names := by
  have hbody : (if isAbsolute (ofBackwards absolute names) then
      (ofBackwards absolute names).toList.drop 1 else (ofBackwards absolute names).toList) =
      joinWith '/' (names.reverse.map String.toList) := by
    rw [isAbsolute_ofBackwards h, toList_ofBackwards]
    cases absolute <;> rfl
  rw [backwards, pieces, hbody, isAbsolute_ofBackwards h]
  by_cases hempty : names = []
  · subst hempty
    rfl
  · rw [Text.splitAt_joinWith (by simpa using hempty)]
    · simpa [Function.comp_def] using h.settled
    · intro piece hpiece
      obtain ⟨name, hname, rfl⟩ := List.mem_map.mp hpiece
      exact h.no_slash name (List.mem_reverse.mp hname)

theorem parent?_ofBackwards (h : Settled absolute (name :: names)) :
    parent? (ofBackwards absolute (name :: names)) =
      some (ofBackwards absolute (settle absolute names)) := by
  rw [parent?, backwards_ofBackwards h, isAbsolute_ofBackwards h]

/-- The names of a parent are names of the path, from its first one on. -/
theorem backwards_suffix_of_parent? {up : String} (h : parent? path = some up) :
    backwards up <:+ backwards path := by
  have hsettled := settled_backwards path
  rw [parent?] at h
  split at h
  · simp at h
  · rename_i name names hnames
    rw [hnames] at hsettled ⊢
    rw [← Option.some.inj h, backwards_ofBackwards hsettled.tail]
    exact (settle_suffix _ names).trans (List.suffix_cons name names)

/-! ### Ancestors -/

theorem backwards_suffix_of_ancestor? {dir : String} {n : Nat} (h : ancestor? path n = some dir) :
    backwards dir <:+ backwards path := by
  induction n generalizing dir with
  | zero =>
      obtain rfl := Option.some.inj h
      exact List.suffix_rfl
  | succ n ih =>
      obtain ⟨below, hbelow, hparent⟩ := Option.bind_eq_some_iff.mp h
      exact (backwards_suffix_of_parent? hparent).trans (ih hbelow)

theorem ancestor?_succ_of_nil (h : backwards path = []) (n : Nat) :
    ancestor? path (n + 1) = none := by
  rw [ancestor?_succ, parent?, h]
  rfl

theorem ancestor?_succ_of_cons (h : backwards path = name :: names) (n : Nat) :
    ancestor? path (n + 1) =
      ancestor? (ofBackwards (isAbsolute path) (settle (isAbsolute path) names)) n := by
  rw [ancestor?_succ, parent?, h]
  rfl

/-- Going up by names is going up by parents. -/
theorem getElem?_upwards (h : Settled absolute (settle absolute names)) (n : Nat) :
    (upwards absolute names)[n]? = ancestor? (ofBackwards absolute (settle absolute names)) n := by
  induction names generalizing n with
  | nil =>
      cases n with
      | zero => rfl
      | succ n => exact (ancestor?_succ_of_nil (backwards_ofBackwards h) n).symm
  | cons name names ih =>
      by_cases hidle : isIdle absolute name names = true
      · simp only [upwards, settle, if_pos hidle] at h ⊢
        exact ih h n
      · simp only [upwards, settle, if_neg hidle] at h ⊢
        cases n with
        | zero => rfl
        | succ n =>
            rw [List.getElem?_cons_succ, ih h.tail, ancestor?_succ, parent?_ofBackwards h]
            rfl

/-- The directories above a path are its parent, the parent of that, and so on. -/
theorem getElem?_above (path : String) (n : Nat) : (above path)[n]? = ancestor? path (n + 1) := by
  have hsettled := settled_backwards path
  rw [above]
  split
  · rename_i hnone
    rw [ancestor?_succ_of_nil hnone, List.getElem?_nil]
  · rename_i name names hnames
    rw [hnames] at hsettled
    rw [ancestor?_succ_of_cons hnames, getElem?_upwards hsettled.tail]

end TradeScript.Path
