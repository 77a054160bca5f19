import TradeScript.Text.Basic

/-!
# TradeScript.Proofs.Measure

Laws of the measures of a text. A text that is cut in two has cut measures too:
the byte length of the first part is the offset of the cut, and the UTF-16
length of the first part is the column of that offset (`unitColumn_append`).
Between cuts a column only grows with its offset, up to the length of the text.

A text can also be cut at a column (`cutUnits?`). That fails inside a character
of two units and past the end.

Positions have columns in 32 bits (`column`). These grow with the offset as well, but
beyond the greatest number of 32 bits they stay where they are.
-/

namespace TradeScript

/-! ### Numbers of 32 bits -/

theorem toNat_ofNatClamp (n : Nat) : (UInt32.ofNatClamp n).toNat = min n (UInt32.size - 1) := by
  rcases Nat.lt_or_ge n UInt32.size with h | h
  · rw [UInt32.toNat_ofNatClamp_of_lt h]
    omega
  · rw [UInt32.toNat_ofNatClamp_of_le h]
    omega

theorem toNat_ofNatClamp_le (n : Nat) : (UInt32.ofNatClamp n).toNat ≤ n := by
  rw [toNat_ofNatClamp]
  exact Nat.min_le_left _ _

theorem ofNatClamp_mono {m n : Nat} (h : m ≤ n) : UInt32.ofNatClamp m ≤ UInt32.ofNatClamp n := by
  rw [UInt32.le_iff_toNat_le, toNat_ofNatClamp, toNat_ofNatClamp]
  omega

theorem ofNatClamp_lt_ofNatClamp {m n : Nat} (h : m < n) (hn : n < UInt32.size) :
    UInt32.ofNatClamp m < UInt32.ofNatClamp n := by
  rw [UInt32.lt_iff_toNat_lt, UInt32.toNat_ofNatClamp_of_lt hn,
    UInt32.toNat_ofNatClamp_of_lt (Nat.lt_trans h hn)]
  exact h

namespace Text

theorem units_pos (c : Char) : 0 < units c := by
  unfold units
  split <;> omega

/-! ### Columns -/

@[simp] theorem unitColumn_zero (cs : List Char) : unitColumn cs 0 = 0 := by
  cases cs <;> rfl

theorem unitColumn_cons {c : Char} {cs : List Char} {n : Nat} (hn : 0 < n) :
    unitColumn (c :: cs) n = units c + unitColumn cs (n - c.utf8Size) := by
  obtain ⟨m, rfl⟩ := Nat.exists_eq_succ_of_ne_zero (Nat.ne_of_gt hn)
  rfl

@[simp] theorem unitLength_nil : unitLength [] = 0 := rfl

@[simp] theorem unitLength_cons (c : Char) (cs : List Char) :
    unitLength (c :: cs) = units c + unitLength cs := by
  have hc := c.utf8Size_pos
  rw [unitLength, byteLength_cons, unitColumn_cons (by omega), Nat.add_sub_cancel_left, unitLength]

theorem unitLength_append (as bs : List Char) :
    unitLength (as ++ bs) = unitLength as + unitLength bs := by
  induction as with
  | nil => simp
  | cons a as ih => simp [ih, Nat.add_assoc]

/-- The column of an offset behind the first of two parts. -/
theorem unitColumn_append (as bs : List Char) (n : Nat) :
    unitColumn (as ++ bs) (byteLength as + n) = unitLength as + unitColumn bs n := by
  induction as with
  | nil => simp
  | cons a as ih =>
      have ha := a.utf8Size_pos
      rw [List.cons_append, byteLength_cons, unitColumn_cons (by omega), unitLength_cons,
        show a.utf8Size + byteLength as + n - a.utf8Size = byteLength as + n by omega, ih,
        Nat.add_assoc]

theorem unitColumn_byteLength (as bs : List Char) :
    unitColumn (as ++ bs) (byteLength as) = unitLength as := by
  simpa using unitColumn_append as bs 0

theorem unitColumn_le_unitLength (cs : List Char) (n : Nat) :
    unitColumn cs n ≤ unitLength cs := by
  induction cs generalizing n with
  | nil => exact Nat.le_refl 0
  | cons c cs ih =>
      rcases Nat.eq_zero_or_pos n with rfl | hn
      · simp
      · rw [unitColumn_cons hn, unitLength_cons]
        exact Nat.add_le_add_left (ih _) _

theorem unitColumn_mono (cs : List Char) {m n : Nat} (h : m ≤ n) :
    unitColumn cs m ≤ unitColumn cs n := by
  induction cs generalizing m n with
  | nil => exact Nat.le_refl 0
  | cons c cs ih =>
      rcases Nat.eq_zero_or_pos m with rfl | hm
      · simp
      · rw [unitColumn_cons hm, unitColumn_cons (by omega)]
        exact Nat.add_le_add_left (ih (by omega)) _

/-- The column grows at every offset at which a character starts. -/
theorem unitColumn_lt_of_lt {before after : List Char} {c : Char} {n : Nat}
    (h : byteLength before < n) :
    unitColumn (before ++ c :: after) (byteLength before) <
      unitColumn (before ++ c :: after) n := by
  obtain ⟨k, rfl⟩ := Nat.exists_eq_add_of_lt h
  have hfirst := unitColumn_append before (c :: after) 0
  rw [Nat.add_zero, unitColumn_zero, Nat.add_zero] at hfirst
  have hc := units_pos c
  rw [hfirst, Nat.add_assoc, unitColumn_append, unitColumn_cons (Nat.succ_pos k)]
  omega

/-! ### Offsets -/

theorem dropBytes_append (as bs : List Char) : dropBytes (byteLength as) (as ++ bs) = bs := by
  induction as with
  | nil => cases bs <;> rfl
  | cons a as ih =>
      have ha := a.utf8Size_pos
      obtain ⟨m, hm⟩ : ∃ m, a.utf8Size + byteLength as = m + 1 :=
        ⟨a.utf8Size + byteLength as - 1, by omega⟩
      rw [List.cons_append, byteLength_cons, hm, dropBytes, ← hm, Nat.add_sub_cancel_left, ih]

/-- A character with its offset stands in the text, and the text before it is as
long as the offset says. -/
theorem exists_append_of_mem_withOffsets {offset n : Nat} {c : Char} {cs : List Char}
    (h : (n, c) ∈ withOffsets offset cs) :
    ∃ before after, cs = before ++ c :: after ∧ n = offset + byteLength before := by
  induction cs generalizing offset with
  | nil => simp [withOffsets] at h
  | cons d cs ih =>
      simp only [withOffsets, List.mem_cons, Prod.mk.injEq] at h
      rcases h with ⟨rfl, rfl⟩ | h
      · exact ⟨[], cs, rfl, rfl⟩
      · obtain ⟨before, after, rfl, rfl⟩ := ih h
        refine ⟨d :: before, after, rfl, ?_⟩
        rw [byteLength_cons, Nat.add_assoc]

theorem withOffsets_pairwise (offset : Nat) (cs : List Char) :
    (withOffsets offset cs).Pairwise fun a b => a.1 < b.1 := by
  induction cs generalizing offset with
  | nil => exact .nil
  | cons c cs ih =>
      refine .cons ?_ (ih _)
      rintro ⟨n, d⟩ hd
      obtain ⟨before, _, -, rfl⟩ := exists_append_of_mem_withOffsets hd
      have hc := c.utf8Size_pos
      show offset < offset + c.utf8Size + byteLength before
      omega

/-! ### Columns in 32 bits -/

theorem column_mono (cs : List Char) {m n : Nat} (h : m ≤ n) : column cs m ≤ column cs n :=
  ofNatClamp_mono (unitColumn_mono cs h)

theorem column_le_column_byteLength (cs : List Char) (n : Nat) :
    column cs n ≤ column cs (byteLength cs) :=
  ofNatClamp_mono (unitColumn_le_unitLength cs n)

/-- A character of two units has more than one byte. -/
theorem units_le_utf8Size (c : Char) : units c ≤ c.utf8Size := by
  unfold units
  split
  · exact c.utf8Size_pos
  · rename_i hwide
    have hpos := c.utf8Size_pos
    have hne : c.utf8Size ≠ 1 := by
      intro hone
      have hle : c.toNat ≤ 127 := Char.utf8Size_eq_one_iff.mp hone
      omega
    omega

theorem unitLength_le_byteLength (cs : List Char) : unitLength cs ≤ byteLength cs := by
  induction cs with
  | nil => exact Nat.le_refl _
  | cons c cs ih =>
      rw [unitLength_cons, byteLength_cons]
      exact Nat.add_le_add (units_le_utf8Size c) ih

/-! ### Cutting at a column -/

/-- Cut a text at a column. -/
def cutUnits? : Nat → List Char → Option (List Char × List Char)
  | 0, cs => some ([], cs)
  | _ + 1, [] => none
  | n + 1, c :: cs =>
      if units c ≤ n + 1 then
        (cutUnits? (n + 1 - units c) cs).map fun cut => (c :: cut.1, cut.2)
      else none

/-- The text between two columns. -/
def betweenUnits? (first last : Nat) (cs : List Char) : Option (List Char) := do
  let (_, rest) ← cutUnits? first cs
  let (token, _) ← cutUnits? (last - first) rest
  some token

@[simp] theorem cutUnits?_zero (cs : List Char) : cutUnits? 0 cs = some ([], cs) := by
  cases cs <;> rfl

theorem cutUnits?_append (as bs : List Char) :
    cutUnits? (unitLength as) (as ++ bs) = some (as, bs) := by
  induction as with
  | nil => exact cutUnits?_zero bs
  | cons a as ih =>
      have ha := units_pos a
      obtain ⟨m, hm⟩ : ∃ m, units a + unitLength as = m + 1 :=
        ⟨units a + unitLength as - 1, by omega⟩
      rw [List.cons_append, unitLength_cons, hm, cutUnits?, ← hm, if_pos (by omega),
        Nat.add_sub_cancel_left, ih]
      rfl

theorem betweenUnits?_append (before token after : List Char) :
    betweenUnits? (unitLength before) (unitLength (before ++ token)) (before ++ token ++ after) =
      some token := by
  rw [betweenUnits?, List.append_assoc, cutUnits?_append, unitLength_append,
    Nat.add_sub_cancel_left]
  simp [cutUnits?_append]

end Text

end TradeScript
