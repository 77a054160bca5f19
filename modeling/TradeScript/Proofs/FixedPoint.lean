import TradeScript.Proofs.View

/-!
# TradeScript.Proofs.FixedPoint

Views of views. Comments are blanked out of a text without changing it exactly if none
starts in it (`codeView_eq_self_iff`). A code view is such a text: where something was
blanked there are spaces now, and what was kept next to each other stood next to each other
before. So no marker is left, and none comes about (`unmarked_codeView`). Blanking more of it
changes nothing about that (`Blanking.unmarked`), which settles the bare view.

Masking a text again goes through the same literals, whose insides are spaces now and hold
no quote and no escape (`maskFrom_maskFrom`).
-/

namespace TradeScript

/-! ### Texts without comments -/

/-- No comment starts in the text: it has neither of the markers. -/
structure Unmarked (cs : List Char) : Prop where
  no_line : ¬ ['/', '/'] <:+: cs
  no_block : ¬ ['/', '*'] <:+: cs

theorem unmarked_nil : Unmarked [] := ⟨by simp, by simp⟩

theorem unmarked_cons_iff {c : Char} {cs : List Char} :
    Unmarked (c :: cs) ↔
      ¬ (c = '/' ∧ (cs.head? = some '/' ∨ cs.head? = some '*')) ∧ Unmarked cs := by
  have hnext (d : Char) : [d] <+: cs ↔ cs.head? = some d := by
    cases cs <;> simp [List.cons_prefix_cons, eq_comm]
  have hmarker (d : Char) : ['/', d] <:+: c :: cs ↔
      c = '/' ∧ cs.head? = some d ∨ ['/', d] <:+: cs := by
    rw [List.infix_cons_iff, List.cons_prefix_cons, hnext, eq_comm]
  refine ⟨fun h => ⟨fun hmark => ?_, ?_, ?_⟩, fun h => ⟨fun hoccurs => ?_, fun hoccurs => ?_⟩⟩
  · cases hmark.2 with
    | inl hhead => exact h.no_line ((hmarker '/').mpr (.inl ⟨hmark.1, hhead⟩))
    | inr hhead => exact h.no_block ((hmarker '*').mpr (.inl ⟨hmark.1, hhead⟩))
  · exact fun hoccurs => h.no_line ((hmarker '/').mpr (.inr hoccurs))
  · exact fun hoccurs => h.no_block ((hmarker '*').mpr (.inr hoccurs))
  · cases (hmarker '/').mp hoccurs with
    | inl hmark => exact h.1 ⟨hmark.1, .inl hmark.2⟩
    | inr hoccurs => exact h.2.no_line hoccurs
  · cases (hmarker '*').mp hoccurs with
    | inl hmark => exact h.1 ⟨hmark.1, .inr hmark.2⟩
    | inr hoccurs => exact h.2.no_block hoccurs

theorem Unmarked.spaces_append {cs : List Char} (h : Unmarked cs) (n : Nat) :
    Unmarked (List.replicate n ' ' ++ cs) := by
  induction n with
  | zero => exact h
  | succ n ih =>
      rw [List.replicate_succ, List.cons_append]
      exact unmarked_cons_iff.mpr ⟨fun hmarker => absurd hmarker.1 (by decide), ih⟩

theorem unmarked_blankAll (cs : List Char) : Unmarked (blankAll cs) := by
  induction cs with
  | nil => exact unmarked_nil
  | cons c cs ih =>
      rw [blankAll, List.flatMap_cons]
      exact ih.spaces_append c.utf8Size

/-- Blanking makes no marker: what it keeps side by side stood side by side before. -/
theorem Blanking.unmarked {raw view : List Char} (h : Blanking raw view) (hraw : Unmarked raw) :
    Unmarked view := by
  have hmarker {d : Char} (hd : ' ' ≠ d) (hoccurs : ['/', d] <:+: view) : ['/', d] <:+: raw := by
    obtain ⟨before, after, rfl⟩ := hoccurs
    obtain ⟨rawBefore, rawAfter, rfl, -⟩ := h.exists_token (List.cons_ne_nil _ _) (by simp [hd])
    exact ⟨rawBefore, rawAfter, rfl⟩
  exact ⟨mt (hmarker (by decide)) hraw.no_line, mt (hmarker (by decide)) hraw.no_block⟩

/-! ### Code views -/

/-- A character at the front of a view that is no space is at the front of the line. -/
theorem Blanking.head?_eq {raw view : List Char} (h : Blanking raw view) {c : Char} (hc : ' ' ≠ c)
    (hview : view.head? = some c) : raw.head? = some c := by
  obtain ⟨after, rfl⟩ := List.head?_eq_some_iff.mp hview
  have hcut : Blanking raw ([c] ++ after) := h
  obtain ⟨rest, rfl, -⟩ := hcut.of_token_append (by simp [hc])
  rfl

/-- No marker is left in a code view. -/
theorem unmarked_codeView (inBlock : Bool) (cs : List Char) :
    Unmarked (codeView inBlock cs).1 := by
  fun_induction codeView inBlock cs with
  | case1 => exact unmarked_nil
  | case2 rest r ih => exact ih.spaces_append 2
  | case3 c rest _ r ih => exact ih.spaces_append c.utf8Size
  | case4 rest => exact (unmarked_blankAll rest).spaces_append 2
  | case5 rest r ih => exact ih.spaces_append 2
  | case6 c rest hline hblock r ih =>
      refine unmarked_cons_iff.mpr ⟨fun hmarker => ?_, ih⟩
      obtain ⟨rfl, hnext⟩ := hmarker
      have hblanking := codeView_blanking false rest
      cases hnext with
      | inl hnext =>
          obtain ⟨more, rfl⟩ := List.head?_eq_some_iff.mp (hblanking.head?_eq (by decide) hnext)
          exact hline more rfl rfl
      | inr hnext =>
          obtain ⟨more, rfl⟩ := List.head?_eq_some_iff.mp (hblanking.head?_eq (by decide) hnext)
          exact hblock more rfl rfl

theorem codeView_false_cons {c : Char} {cs : List Char}
    (h : ¬ (c = '/' ∧ (cs.head? = some '/' ∨ cs.head? = some '*'))) :
    codeView false (c :: cs) = (c :: (codeView false cs).1, (codeView false cs).2) := by
  rw [codeView]
  · intro rest hc hcs
    exact h ⟨hc, .inl (hcs ▸ rfl)⟩
  · intro rest hc hcs
    exact h ⟨hc, .inr (hcs ▸ rfl)⟩

/-- Outside of block comments, the lines that are their own code views are those on which no
comment starts. -/
theorem codeView_eq_self_iff {cs : List Char} : codeView false cs = (cs, false) ↔ Unmarked cs := by
  refine ⟨fun h => ?_, fun h => ?_⟩
  · have hview := unmarked_codeView false cs
    rw [h] at hview
    exact hview
  · induction cs with
    | nil => rfl
    | cons c cs ih =>
        obtain ⟨hmarker, hcs⟩ := unmarked_cons_iff.mp h
        rw [codeView_false_cons hmarker, ih hcs]

/-! ### Masked texts -/

theorem maskFrom_some_cons {q c : Char} {rest : List Char} (h : c ≠ '\\') :
    maskFrom (some q) (c :: rest) =
      if c = q then c :: maskFrom none rest else blankOut c ++ maskFrom (some q) rest := by
  rw [maskFrom]
  · exact fun hc => absurd hc h
  · exact fun _ _ hc => absurd hc h

theorem maskFrom_some_spaces {q : Char} (hq : ' ' ≠ q) (n : Nat) (rest : List Char) :
    maskFrom (some q) (List.replicate n ' ' ++ rest) =
      List.replicate n ' ' ++ maskFrom (some q) rest := by
  induction n with
  | zero => rfl
  | succ n ih =>
      rw [List.replicate_succ, List.cons_append, maskFrom_some_cons (by decide), if_neg hq, ih]
      rfl

/-- A masked text is masked already. -/
theorem maskFrom_maskFrom {quote : Option Char} (hquote : ∀ q ∈ quote, q = '"' ∨ q = '\'')
    (cs : List Char) : maskFrom quote (maskFrom quote cs) = maskFrom quote cs := by
  have hspace {q : Char} (hq : q = '"' ∨ q = '\'') : ' ' ≠ q := by
    cases hq with
    | inl hq => simp [hq]
    | inr hq => simp [hq]
  have hescape {q : Char} (hq : q = '"' ∨ q = '\'') : q ≠ '\\' := by
    cases hq with
    | inl hq => simp [hq]
    | inr hq => simp [hq]
  fun_induction maskFrom quote cs with
  | case1 quote => cases quote <;> rfl
  | case2 c rest ih =>
      rw [maskFrom, ih]
      intro q hq
      split at hq
      · rename_i hc
        exact Option.some.inj hq ▸ hc
      · exact absurd hq (Option.not_mem_none q)
  | case3 q => exact maskFrom_some_spaces (hspace (hquote q rfl)) 1 []
  | case4 q e rest ih =>
      show maskFrom (some q) (List.replicate 1 ' ' ++ (blankOut e ++ _)) = _
      rw [maskFrom_some_spaces (hspace (hquote q rfl)), blankOut,
        maskFrom_some_spaces (hspace (hquote q rfl)), ih hquote]
      rfl
  | case5 q rest hlast hnext ih =>
      rw [maskFrom_some_cons (hescape (hquote q rfl)), if_pos rfl,
        ih fun q hq => absurd hq (Option.not_mem_none q)]
  | case6 q c rest hlast hnext hc ih =>
      rw [blankOut, maskFrom_some_spaces (hspace (hquote q rfl)), ih hquote]

theorem bareView_bareView (cs : List Char) : bareView (bareView cs) = bareView cs :=
  maskFrom_maskFrom (fun q hq => absurd hq (Option.not_mem_none q)) cs

/-- Each pass leaves its own views as they are: outside of block comments, the code view of a
code view is that view, and no block comment is open behind it; a bare view is its own bare
view; and the pass over comments leaves the bare view of a code view as it is, too. -/
theorem views_are_fixed (inBlock : Bool) (line text : List Char) :
    let code := (codeView inBlock line).1
    codeView false code = (code, false) ∧ bareView (bareView text) = bareView text ∧
      codeView false (bareView code) = (bareView code, false) := by
  intro code
  have hcode : Unmarked code := unmarked_codeView inBlock line
  have hbare : Unmarked (bareView code) := (bareView_blanking code).unmarked hcode
  exact ⟨codeView_eq_self_iff.mpr hcode, bareView_bareView text, codeView_eq_self_iff.mpr hbare⟩

end TradeScript
