import TradeScript.Document.Basic

/-!
# TradeScript.Proofs.View

Both views of a line come from it by *blanking*: every character is kept, or it
becomes as many spaces as it has bytes (`Blanking`). Blanking keeps byte
lengths, and two blankings in turn are one, so the bare view of a line is a
blanking of the line itself.

What makes offsets into a view useful is `Blanking.exists_token`: a token
without spaces that stands in the view stands in the line too, at the same byte
offset, whatever the blanking did around it.
-/

namespace TradeScript

open Text (byteLength byteLength_cons byteLength_append)

/-- `view` is `raw` with some of its characters blanked. -/
inductive Blanking : (raw view : List Char) → Prop where
  | nil : Blanking [] []
  | keep {raw view : List Char} (c : Char) : Blanking raw view → Blanking (c :: raw) (c :: view)
  | blank {raw view : List Char} (c : Char) :
      Blanking raw view → Blanking (c :: raw) (blankOut c ++ view)

/-- A piece without a character ends before that character does: the other side has it in
front too. -/
theorem exists_append_of_notMem {c : Char} {front behind piece rest : List Char}
    (h : front ++ c :: behind = piece ++ rest) (hc : c ∉ piece) :
    ∃ more, front = piece ++ more ∧ rest = more ++ c :: behind := by
  rcases List.append_eq_append_iff.mp h with ⟨cut, rfl, hcut⟩ | ⟨cut, rfl, hcut⟩
  · cases cut with
    | nil => exact ⟨[], by simp, by simpa using hcut.symm⟩
    | cons d cut =>
        rw [List.cons_append] at hcut
        obtain ⟨rfl, -⟩ := List.cons.inj hcut
        exact absurd (List.mem_append_right front List.mem_cons_self) hc
  · exact ⟨cut, rfl, hcut⟩

/-- A piece at the end without a character starts behind that character. -/
theorem exists_append_of_notMem_back {c : Char} {front behind rest piece : List Char}
    (h : front ++ c :: behind = rest ++ piece) (hc : c ∉ piece) :
    ∃ more, rest = front ++ c :: more ∧ behind = more ++ piece := by
  rcases List.append_eq_append_iff.mp h with ⟨cut, rfl, hcut⟩ | ⟨cut, -, rfl⟩
  · cases cut with
    | nil =>
        rw [List.nil_append] at hcut
        exact absurd (hcut ▸ List.mem_cons_self) hc
    | cons d cut =>
        obtain ⟨rfl, rfl⟩ := List.cons.inj hcut
        exact ⟨cut, rfl, rfl⟩
  · exact absurd (List.mem_append_right cut List.mem_cons_self) hc

/-! ### Blanked characters -/

theorem byteLength_replicate_space (n : Nat) : byteLength (List.replicate n ' ') = n := by
  induction n with
  | zero => rfl
  | succ n ih =>
      rw [List.replicate_succ, byteLength_cons, ih, show ' '.utf8Size = 1 from rfl, Nat.add_comm]

theorem byteLength_blankOut (c : Char) : byteLength (blankOut c) = c.utf8Size :=
  byteLength_replicate_space c.utf8Size

theorem eq_space_of_mem_blankOut {c d : Char} (h : d ∈ blankOut c) : d = ' ' :=
  List.eq_of_mem_replicate h

/-- A blanked character leaves at least one space. -/
theorem blankOut_eq_cons (c : Char) : ∃ spaces, blankOut c = ' ' :: spaces := by
  obtain ⟨n, hn⟩ := Nat.exists_eq_succ_of_ne_zero (Nat.ne_of_gt c.utf8Size_pos)
  exact ⟨List.replicate n ' ', by rw [blankOut, hn, List.replicate_succ]⟩

namespace Blanking

variable {raw view : List Char}

theorem byteLength_eq (h : Blanking raw view) : byteLength view = byteLength raw := by
  induction h with
  | nil => rfl
  | keep c _ ih => rw [byteLength_cons, byteLength_cons, ih]
  | blank c _ ih => rw [byteLength_append, byteLength_blankOut, byteLength_cons, ih]

/-- Spaces stay spaces, so a blanking keeps what another has blanked. -/
theorem of_spaces_append {n : Nat} {rest : List Char}
    (h : Blanking (List.replicate n ' ' ++ rest) view) :
    ∃ rest', view = List.replicate n ' ' ++ rest' ∧ Blanking rest rest' := by
  induction n generalizing view with
  | zero => exact ⟨view, rfl, h⟩
  | succ n ih =>
      rw [List.replicate_succ, List.cons_append] at h
      generalize hraw : ' ' :: (List.replicate n ' ' ++ rest) = raw at h
      cases h with
      | nil => simp at hraw
      | keep c h =>
          obtain ⟨rfl, rfl⟩ := List.cons.inj hraw
          obtain ⟨rest', rfl, hrest⟩ := ih h
          exact ⟨rest', rfl, hrest⟩
      | blank c h =>
          -- A space has one byte, so blanking it gives the space again.
          obtain ⟨rfl, rfl⟩ := List.cons.inj hraw
          obtain ⟨rest', rfl, hrest⟩ := ih h
          exact ⟨rest', rfl, hrest⟩

theorem trans {mid : List Char} (h : Blanking raw mid) (h' : Blanking mid view) :
    Blanking raw view := by
  induction h generalizing view with
  | nil => exact h'
  | keep c _ ih =>
      cases h' with
      | keep _ h' => exact .keep c (ih h')
      | blank _ h' => exact .blank c (ih h')
  | blank c _ ih =>
      obtain ⟨rest, rfl, hrest⟩ := of_spaces_append h'
      exact .blank c (ih hrest)

/-! ### Tokens -/

/-- What stands at the front of a view without spaces was kept. -/
theorem of_token_append {token after : List Char} (h : Blanking raw (token ++ after))
    (hs : ' ' ∉ token) : ∃ rest, raw = token ++ rest ∧ Blanking rest after := by
  induction token generalizing raw with
  | nil => exact ⟨raw, rfl, h⟩
  | cons t token ih =>
      rw [List.mem_cons, not_or] at hs
      generalize hview : t :: token ++ after = view at h
      cases h with
      | nil => simp at hview
      | keep c h =>
          rw [List.cons_append] at hview
          obtain ⟨rfl, rfl⟩ := List.cons.inj hview
          obtain ⟨rest, rfl, hrest⟩ := ih h hs.2
          exact ⟨rest, rfl, hrest⟩
      | blank c h =>
          -- A blanked character would start the token with a space.
          obtain ⟨spaces, hc⟩ := blankOut_eq_cons c
          rw [hc, List.cons_append, List.cons_append] at hview
          exact absurd (List.cons.inj hview).1.symm hs.1

/-- A character of a view that is no space starts a character of the line: the
blanking can be cut there. -/
theorem of_append_cons {before after : List Char} {t : Char}
    (h : Blanking raw (before ++ t :: after)) (ht : ' ' ≠ t) :
    ∃ rawBefore rawAfter, raw = rawBefore ++ rawAfter ∧ Blanking rawAfter (t :: after) ∧
      byteLength rawBefore = byteLength before := by
  generalize hview : before ++ t :: after = view at h
  induction h generalizing before with
  | nil => simp at hview
  | @keep raw view c h ih =>
      cases before with
      | nil =>
          rw [List.nil_append] at hview
          exact ⟨[], c :: raw, rfl, hview ▸ .keep c h, rfl⟩
      | cons b before =>
          rw [List.cons_append] at hview
          obtain ⟨rfl, hrest⟩ := List.cons.inj hview
          obtain ⟨rawBefore, rawAfter, rfl, hafter, hlen⟩ := ih hrest
          refine ⟨b :: rawBefore, rawAfter, rfl, hafter, ?_⟩
          rw [byteLength_cons, byteLength_cons, hlen]
  | @blank raw view c h ih =>
      -- The spaces of `c` end at or before `t`, since `t` is not one of them.
      rcases List.append_eq_append_iff.mp hview with ⟨more, hblank, hrest⟩ | ⟨more, rfl, hrest⟩
      · cases more with
        | nil =>
            rw [List.nil_append] at hrest
            obtain ⟨rawBefore, rawAfter, rfl, hafter, hlen⟩ := ih ((List.nil_append _).trans hrest)
            refine ⟨c :: rawBefore, rawAfter, rfl, hafter, ?_⟩
            rw [byteLength_cons, hlen, ← byteLength_blankOut, hblank, List.append_nil]
            rfl
        | cons m more =>
            rw [List.cons_append] at hrest
            obtain ⟨rfl, -⟩ := List.cons.inj hrest
            have hmem : t ∈ blankOut c := by rw [hblank]; simp
            exact absurd (eq_space_of_mem_blankOut hmem).symm ht
      · obtain ⟨rawBefore, rawAfter, rfl, hafter, hlen⟩ := ih hrest.symm
        refine ⟨c :: rawBefore, rawAfter, rfl, hafter, ?_⟩
        rw [byteLength_cons, hlen, byteLength_append, byteLength_blankOut]

/-- A token without spaces that stands in the view stands in the line, at the
same byte offset. -/
theorem exists_token {before token after : List Char}
    (h : Blanking raw (before ++ token ++ after)) (hne : token ≠ []) (hs : ' ' ∉ token) :
    ∃ rawBefore rawAfter, raw = rawBefore ++ token ++ rawAfter ∧
      byteLength rawBefore = byteLength before := by
  obtain ⟨t, more, rfl⟩ := List.exists_cons_of_ne_nil hne
  have ht : ' ' ≠ t := fun e => hs (e ▸ List.mem_cons_self)
  rw [List.append_assoc] at h
  obtain ⟨rawBefore, rest, rfl, hrest, hlen⟩ := of_append_cons h ht
  obtain ⟨rawAfter, rfl, -⟩ := of_token_append hrest hs
  exact ⟨rawBefore, rawAfter, (List.append_assoc ..).symm, hlen⟩

/-- A view has spaces and characters of its line only. -/
theorem eq_space_or_mem (h : Blanking raw view) {c : Char} (hc : c ∈ view) :
    c = ' ' ∨ c ∈ raw := by
  induction h with
  | nil => exact absurd hc List.not_mem_nil
  | keep d _ ih =>
      cases hc with
      | head => exact .inr List.mem_cons_self
      | tail _ hc => exact (ih hc).imp_right (List.mem_cons_of_mem d)
  | blank d _ ih =>
      cases List.mem_append.mp hc with
      | inl hc => exact .inl (eq_space_of_mem_blankOut hc)
      | inr hc => exact (ih hc).imp_right (List.mem_cons_of_mem d)

end Blanking

/-! ### The views are blankings -/

theorem blankAll_blanking (cs : List Char) : Blanking cs (blankAll cs) := by
  induction cs with
  | nil => exact .nil
  | cons c cs ih =>
      rw [blankAll, List.flatMap_cons]
      exact .blank c ih

theorem codeView_blanking (inBlock : Bool) (cs : List Char) :
    Blanking cs (codeView inBlock cs).1 := by
  fun_induction codeView inBlock cs with
  | case1 => exact .nil
  | case2 rest r ih => exact .blank '*' (.blank '/' ih)
  | case3 c rest _ r ih => exact .blank c ih
  | case4 rest => exact .blank '/' (.blank '/' (blankAll_blanking rest))
  | case5 rest r ih => exact .blank '/' (.blank '*' ih)
  | case6 c rest _ _ r ih => exact .keep c ih

/-- A character that is read by itself is no escape. -/
theorem ne_escape {c : Char} {rest : List Char} (hlast : c = '\\' → rest = [] → False)
    (hnext : ∀ e more, c = '\\' → rest = e :: more → False) : c ≠ '\\' := by
  intro hc
  cases rest with
  | nil => exact hlast hc rfl
  | cons e more => exact hnext e more hc rfl

theorem maskFrom_blanking (quote : Option Char) (cs : List Char) :
    Blanking cs (maskFrom quote cs) := by
  fun_induction maskFrom quote cs with
  | case1 => exact .nil
  | case2 c rest ih => exact .keep c ih
  | case3 q => exact .blank '\\' .nil
  | case4 q e rest ih => exact .blank '\\' (.blank e ih)
  | case5 q rest _ _ ih => exact .keep q ih
  | case6 q c rest _ _ _ ih => exact .blank c ih

theorem bareView_blanking (code : List Char) : Blanking code (bareView code) :=
  maskFrom_blanking none code

end TradeScript
