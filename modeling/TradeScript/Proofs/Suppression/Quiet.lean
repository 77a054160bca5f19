import Mathlib.Data.List.DropRight
import Mathlib.Data.Nat.Find
import TradeScript.Proofs.Suppression.Written
import TradeScript.Proofs.Table

/-!
# TradeScript.Proofs.Suppression.Quiet

What switching comments mean. On a line a tag is switched off if the line before
switches it off for the next line, or if some line up to this one switches it off and
none between the two switches it on again.

The spans of a text are computed line by line, from tags that are off at the moment
and spans that are over. `Tracks` says what both have to do with the switching comments
read so far; one line keeps it (`Tracks.step`), so all do (`Tracks.run`), as long as each
line and the one behind it have numbers of 32 bits.
-/

namespace TradeScript

namespace Suppression

/-! ### One switching comment -/

theorem says_some {action action' : Action} {tags : List String} {tag : String} :
    Says (some ⟨action, tags⟩) action' tag ↔ action = action' ∧ tag ∈ tags := by
  constructor
  · rintro ⟨_, h, hmem⟩
    obtain ⟨rfl, rfl⟩ := Switch.mk.inj (Option.some.inj h)
    exact ⟨rfl, hmem⟩
  · rintro ⟨rfl, hmem⟩
    exact ⟨tags, rfl, hmem⟩

theorem not_says_none {action : Action} {tag : String} : ¬ Says none action tag := by
  rintro ⟨_, h, -⟩
  exact absurd h (by simp)

/-- A switching comment does one thing only. -/
theorem Says.action_eq {switch : Option Switch} {action action' : Action} {tag tag' : String}
    (h : Says switch action tag) (h' : Says switch action' tag') : action = action' := by
  obtain ⟨tags, rfl, -⟩ := h
  exact (says_some.mp h').1

namespace State

/-- The tags that are off, as a table. -/
def off (state : State) : Table UInt32 :=
  ⟨state.active⟩

/-- The line since which a tag is off. -/
def since? (state : State) (tag : String) : Option UInt32 :=
  state.off.get? tag

/-- A span that is over holds the tag on the line. -/
def Past (state : State) (tag : String) (line : UInt32) : Prop :=
  ∃ span ∈ state.spans, span.tag = tag ∧ span.covers line = true

variable {state : State} {line : UInt32}

theorem covers_iff {tag : String} {first last number : UInt32} :
    (⟨tag, first, last⟩ : QuietSpan).covers number = true ↔ first ≤ number ∧ number ≤ last := by
  simp [QuietSpan.covers]

theorem past_append {first last : UInt32} {active : List (String × UInt32)} {name tag : String}
    {number : UInt32} :
    Past ⟨state.spans ++ [⟨name, first, last⟩], active⟩ tag number ↔
      state.Past tag number ∨ name = tag ∧ first ≤ number ∧ number ≤ last := by
  simp only [Past, List.mem_append, List.mem_singleton, or_and_right, exists_or, exists_eq_left,
    covers_iff]

/-! Switching off. -/

theorem off_disable (name : String) :
    (state.disable line name).off =
      if state.off.contains name then state.off else state.off.insert name line := by
  by_cases h : state.off.contains name = true
  · rw [if_pos h, disable]
    exact congrArg off (if_pos h)
  · rw [if_neg h, disable, Table.insert, if_neg h]
    exact congrArg off (if_neg h)

theorem since?_disable (name tag : String) :
    (state.disable line name).since? tag =
      if name = tag then (state.since? tag).or (some line) else state.since? tag := by
  rw [since?, off_disable]
  by_cases hname : name = tag
  · subst hname
    rw [if_pos rfl]
    cases hsince : state.since? name with
    | none =>
        have hon : ¬ state.off.contains name = true := by
          rw [Table.contains_eq_isSome, Option.not_isSome_iff_eq_none]
          exact hsince
        rw [if_neg hon, Table.get?_insert, if_pos rfl]
        rfl
    | some first =>
        have hoff : state.off.contains name = true := by
          rw [Table.contains_eq_isSome]
          exact Option.isSome_of_mem hsince
        rw [if_pos hoff]
        exact hsince
  · rw [if_neg hname]
    split
    · rfl
    · rw [Table.get?_insert, if_neg hname]
      rfl

theorem since?_foldl_disable (tags : List String) (tag : String) :
    (tags.foldl (·.disable line ·) state).since? tag =
      if tag ∈ tags then (state.since? tag).or (some line) else state.since? tag := by
  induction tags generalizing state with
  | nil => rfl
  | cons name tags ih =>
      rw [List.foldl_cons, ih, since?_disable]
      by_cases hname : name = tag
      · subst hname
        simp
      · simp [hname, Ne.symm hname]

theorem spans_foldl_disable (tags : List String) :
    (tags.foldl (·.disable line ·) state).spans = state.spans := by
  induction tags generalizing state with
  | nil => rfl
  | cons name tags ih =>
      rw [List.foldl_cons, ih, disable]
      split <;> rfl

/-! Switching on. -/

theorem since?_enable (name tag : String) :
    (state.enable line name).since? tag = if name = tag then none else state.since? tag := by
  have hfind : state.since? name = (state.active.find? fun a => a.1 == name).map Prod.snd := rfl
  unfold enable
  split
  · rename_i hnone
    rw [hnone] at hfind
    by_cases hname : name = tag
    · rw [if_pos hname, ← hname]
      exact hfind
    · rw [if_neg hname]
  · exact Table.get?_erase state.off name tag

theorem past_enable (name tag : String) (number : UInt32) :
    (state.enable line name).Past tag number ↔ state.Past tag number ∨
      name = tag ∧ ∃ first, state.since? tag = some first ∧ first ≤ number ∧ number ≤ line := by
  have hfind : state.since? name = (state.active.find? fun a => a.1 == name).map Prod.snd := rfl
  unfold enable
  split
  · rename_i hnone
    rw [hnone] at hfind
    refine ⟨Or.inl, ?_⟩
    rintro (h | ⟨rfl, first, hfirst, -⟩)
    · exact h
    · rw [hfind] at hfirst
      exact absurd hfirst (by simp)
  · rename_i a ha
    rw [ha] at hfind
    rw [past_append]
    refine or_congr_right (and_congr_right ?_)
    rintro rfl
    simp [hfind]

theorem since?_foldl_enable (tags : List String) (tag : String) :
    (tags.foldl (·.enable line ·) state).since? tag =
      if tag ∈ tags then none else state.since? tag := by
  induction tags generalizing state with
  | nil => rfl
  | cons name tags ih =>
      rw [List.foldl_cons, ih, since?_enable]
      by_cases hname : name = tag
      · subst hname
        simp
      · simp [hname, Ne.symm hname]

theorem past_foldl_enable (tags : List String) (tag : String) (number : UInt32) :
    (tags.foldl (·.enable line ·) state).Past tag number ↔ state.Past tag number ∨
      tag ∈ tags ∧ ∃ first, state.since? tag = some first ∧ first ≤ number ∧ number ≤ line := by
  induction tags generalizing state with
  | nil => simp
  | cons name tags ih =>
      rw [List.foldl_cons, ih, past_enable, since?_enable]
      by_cases hname : name = tag
      · subst hname
        simp
      · simp [hname, Ne.symm hname]

/-! Switching off for the next line. -/

theorem past_foldl_disableNext (tags : List String) (tag : String) (number : UInt32) :
    (tags.foldl (·.disableNext line ·) state).Past tag number ↔
      state.Past tag number ∨ tag ∈ tags ∧ number = .ofNatClamp (line.toNat + 1) := by
  induction tags generalizing state with
  | nil => simp
  | cons name tags ih =>
      have hone : ∀ next : UInt32, name = tag ∧ next ≤ number ∧ number ≤ next ↔
          tag = name ∧ number = next := by
        intro next
        constructor
        · rintro ⟨rfl, hge, hle⟩
          exact ⟨rfl, UInt32.le_antisymm hle hge⟩
        · rintro ⟨rfl, rfl⟩
          exact ⟨rfl, UInt32.le_refl _, UInt32.le_refl _⟩
      rw [List.foldl_cons, ih, disableNext, past_append, hone, List.mem_cons, or_and_right,
        or_assoc]

theorem active_foldl_disableNext (tags : List String) :
    (tags.foldl (·.disableNext line ·) state).active = state.active := by
  induction tags generalizing state with
  | nil => rfl
  | cons name tags ih => rw [List.foldl_cons, ih, disableNext]

/-! What a line does to one tag. -/

theorem since?_step (switch : Option Switch) (tag : String) (first : UInt32) :
    (state.step line switch).since? tag = some first ↔
      ¬ Says switch .enable tag ∧ (state.since? tag = some first ∨
        state.since? tag = none ∧ Says switch .disable tag ∧ first = line) := by
  match switch with
  | none => simp [step, not_says_none]
  | some ⟨.disable, tags⟩ =>
      simp only [step, since?_foldl_disable, says_some]
      by_cases htag : tag ∈ tags
      · cases state.since? tag <;> simp [htag, eq_comm]
      · simp [htag]
  | some ⟨.enable, tags⟩ =>
      simp only [step, since?_foldl_enable, says_some]
      by_cases htag : tag ∈ tags
      · simp [htag]
      · simp [htag]
  | some ⟨.disableNextLine, tags⟩ =>
      have hsince : (state.step line (some ⟨.disableNextLine, tags⟩)).since? tag =
          state.since? tag := by
        rw [since?, off, step, active_foldl_disableNext]
        rfl
      simp [hsince, says_some]

theorem past_step (switch : Option Switch) (tag : String) (number : UInt32) :
    (state.step line switch).Past tag number ↔ state.Past tag number ∨
      (Says switch .enable tag ∧
        ∃ first, state.since? tag = some first ∧ first ≤ number ∧ number ≤ line) ∨
      Says switch .disableNextLine tag ∧ number = .ofNatClamp (line.toNat + 1) := by
  match switch with
  | none => simp [step, not_says_none]
  | some ⟨.disable, tags⟩ =>
      have hpast : (state.step line (some ⟨.disable, tags⟩)).Past tag number ↔
          state.Past tag number := by
        rw [Past, step, spans_foldl_disable]
        rfl
      simp [hpast, says_some]
  | some ⟨.enable, tags⟩ => simp [step, past_foldl_enable, says_some]
  | some ⟨.disableNextLine, tags⟩ => simp [step, past_foldl_disableNext, says_some]

theorem nodup_names_step (h : state.off.names.Nodup) (switch : Option Switch) :
    (state.step line switch).off.names.Nodup := by
  match switch with
  | none => exact h
  | some ⟨.disable, tags⟩ =>
      refine List.foldlRecOn (motive := fun s : State => s.off.names.Nodup) tags _ h ?_
      intro state h tag _
      rw [off_disable]
      split
      · exact h
      · exact Table.nodup_names_insert h tag line
  | some ⟨.enable, tags⟩ =>
      refine List.foldlRecOn (motive := fun s : State => s.off.names.Nodup) tags _ h ?_
      intro state h tag _
      unfold enable
      split
      · exact h
      · exact Table.nodup_names_erase h tag
  | some ⟨.disableNextLine, tags⟩ =>
      rw [step, off, active_foldl_disableNext]
      exact h

end State

/-! ### Following the switching comments -/

/-- The line has a switching comment that does the action with the tag. -/
def SaysAt (switches : List (Option Switch)) (line : Nat) (action : Action) (tag : String) : Prop :=
  ∃ switch, switches[line]? = some switch ∧ Says switch action tag

/-- The state after the first `count` lines. A tag is off since a line that switched it
off and that nothing undid, the first such line if there are several. Spans that are over
are single lines, or go from where a tag was switched off to where it was switched on. -/
structure Tracks (switches : List (Option Switch)) (count : Nat) (state : State) : Prop where
  nodup : state.off.names.Nodup
  of_since : ∀ tag first, state.since? tag = some first → first.toNat < count ∧
    SaysAt switches first.toNat .disable tag ∧
      ∀ between, first.toNat < between → between < count → ¬ SaysAt switches between .enable tag
  exists_since : ∀ tag start, start < count → SaysAt switches start .disable tag →
    (∀ between, start < between → between < count → ¬ SaysAt switches between .enable tag) →
      ∃ first, first.toNat ≤ start ∧ state.since? tag = some first
  past_iff : ∀ tag line, state.Past tag line ↔
    (∃ before < count, line.toNat = before + 1 ∧ SaysAt switches before .disableNextLine tag) ∨
      ∃ start stop, start ≤ line.toNat ∧ line.toNat ≤ stop ∧ stop < count ∧
        SaysAt switches start .disable tag ∧ SaysAt switches stop .enable tag ∧
          ∀ between, start < between → between < stop → ¬ SaysAt switches between .enable tag

theorem saysAt_iff {switches : List (Option Switch)} {line : Nat} {switch : Option Switch}
    (h : switches[line]? = some switch) {action : Action} {tag : String} :
    SaysAt switches line action tag ↔ Says switch action tag := by
  simp [SaysAt, h]

theorem tracks_start (switches : List (Option Switch)) : Tracks switches 0 ⟨[], []⟩ where
  nodup := .nil
  of_since _ _ h := absurd h (by simp [State.since?, State.off, Table.get?])
  exists_since _ _ h := absurd h (Nat.not_lt_zero _)
  past_iff := by simp [State.Past]

namespace Tracks

variable {switches : List (Option Switch)} {count : Nat} {state : State}

theorem step (h : Tracks switches count state) {switch : Option Switch}
    (hline : switches[count]? = some switch) (hcount : count + 1 < UInt32.size) :
    Tracks switches (count + 1) (state.step (.ofNatClamp count) switch) := by
  have hhere : (UInt32.ofNatClamp count).toNat = count :=
    UInt32.toNat_ofNatClamp_of_lt (Nat.lt_of_succ_lt hcount)
  have hnext : ∀ line : UInt32,
      line = .ofNatClamp ((UInt32.ofNatClamp count).toNat + 1) ↔ line.toNat = count + 1 := by
    intro line
    rw [hhere, ← UInt32.toNat_inj, UInt32.toNat_ofNatClamp_of_lt hcount]
  refine ⟨State.nodup_names_step h.nodup switch, ?_, ?_, ?_⟩
  · intro tag first hfirst
    obtain ⟨hnot, hold | ⟨-, hdisable, rfl⟩⟩ := (State.since?_step ..).mp hfirst
    · obtain ⟨hlt, hfrom, hnone⟩ := h.of_since tag first hold
      refine ⟨by omega, hfrom, fun between hafter hbefore => ?_⟩
      rcases Nat.lt_or_eq_of_le (Nat.le_of_lt_succ hbefore) with hbefore | rfl
      · exact hnone between hafter hbefore
      · exact mt (saysAt_iff hline).mp hnot
    · rw [hhere]
      exact ⟨by omega, (saysAt_iff hline).mpr hdisable, by omega⟩
  · intro tag start hstart hdisable hnone
    simp only [State.since?_step]
    rcases Nat.lt_or_eq_of_le (Nat.le_of_lt_succ hstart) with hstart | rfl
    · have hnot := mt (saysAt_iff hline).mpr (hnone count hstart (Nat.lt_succ_self _))
      obtain ⟨first, hle, hsince⟩ := h.exists_since tag start hstart hdisable
        fun between hafter hbefore => hnone between hafter (Nat.lt_succ_of_lt hbefore)
      exact ⟨first, hle, hnot, Or.inl hsince⟩
    · have hdisable := (saysAt_iff hline).mp hdisable
      have hnot : ¬ Says switch .enable tag := fun henable =>
        absurd (hdisable.action_eq henable) (by decide)
      cases hsince : state.since? tag with
      | none => exact ⟨.ofNatClamp start, Nat.le_of_eq hhere, hnot, Or.inr ⟨rfl, hdisable, rfl⟩⟩
      | some first => exact ⟨first, Nat.le_of_lt (h.of_since tag first hsince).1, hnot, Or.inl rfl⟩
  · intro tag line
    rw [State.past_step, h.past_iff, hnext]
    constructor
    · rintro ((⟨before, hlt, hnext⟩ | ⟨start, stop, hstart, hstop, hlt, hspan⟩) |
        ⟨henable, first, hsince, hfirst, hle⟩ | ⟨hswitch, heq⟩)
      · exact Or.inl ⟨before, by omega, hnext⟩
      · exact Or.inr ⟨start, stop, hstart, hstop, by omega, hspan⟩
      · obtain ⟨-, hdisable, hnone⟩ := h.of_since tag first hsince
        rw [UInt32.le_iff_toNat_le] at hfirst hle
        rw [hhere] at hle
        exact Or.inr ⟨first.toNat, count, hfirst, hle, Nat.lt_succ_self _, hdisable,
          (saysAt_iff hline).mpr henable, hnone⟩
      · exact Or.inl ⟨count, Nat.lt_succ_self _, heq, (saysAt_iff hline).mpr hswitch⟩
    · rintro (⟨before, hlt, heq, hswitch⟩ |
        ⟨start, stop, hstart, hstop, hlt, hdisable, henable, hnone⟩)
      · rcases Nat.lt_or_eq_of_le (Nat.le_of_lt_succ hlt) with hlt | rfl
        · exact Or.inl (Or.inl ⟨before, hlt, heq, hswitch⟩)
        · exact Or.inr (Or.inr ⟨(saysAt_iff hline).mp hswitch, heq⟩)
      · rcases Nat.lt_or_eq_of_le (Nat.le_of_lt_succ hlt) with hlt | rfl
        · exact Or.inl (Or.inr ⟨start, stop, hstart, hstop, hlt, hdisable, henable, hnone⟩)
        · have hon := (saysAt_iff hline).mp henable
          -- The same line cannot switch the tag off and on, so it was off before.
          have hne : start ≠ stop := by
            rintro rfl
            exact absurd (((saysAt_iff hline).mp hdisable).action_eq hon) (by decide)
          obtain ⟨first, hle, hsince⟩ := h.exists_since tag start (by omega) hdisable hnone
          refine Or.inr (Or.inl ⟨hon, first, hsince, ?_, ?_⟩) <;> rw [UInt32.le_iff_toNat_le]
          · omega
          · rw [hhere]
            exact hstop

/-- Line after line, to the last one. -/
theorem run {before rest : List (Option Switch)}
    (h : Tracks (before ++ rest) before.length state)
    (hlength : (before ++ rest).length < UInt32.size) :
    Tracks (before ++ rest) (before ++ rest).length (state.run before.length rest) := by
  induction rest generalizing before state with
  | nil =>
      rw [List.append_nil] at h ⊢
      exact h
  | cons switch rest ih =>
      have hline : (before ++ switch :: rest)[before.length]? = some switch := by simp
      have hcount : before.length + 1 < UInt32.size := by
        rw [List.length_append, List.length_cons] at hlength
        omega
      have hstep := h.step hline hcount
      rw [List.append_cons] at hstep hlength ⊢
      have hbefore : before.length + 1 = (before ++ [switch]).length := by simp
      rw [State.run]
      rw [hbefore] at hstep ⊢
      exact ih hstep hlength

end Tracks

theorem SaysAt.lt_length {switches : List (Option Switch)} {line : Nat} {action : Action}
    {tag : String} (h : SaysAt switches line action tag) : line < switches.length := by
  obtain ⟨switch, hswitch, -⟩ := h
  exact (List.getElem?_eq_some_iff.mp hswitch).1

/-- The tag is off on the line: the line before says so, or one up to this line does
and none between them says the opposite. -/
def OffAt (switches : List (Option Switch)) (line : Nat) (tag : String) : Prop :=
  (∃ before, line = before + 1 ∧ SaysAt switches before .disableNextLine tag) ∨
    ∃ start ≤ line, SaysAt switches start .disable tag ∧
      ∀ between, start < between → between < line → ¬ SaysAt switches between .enable tag

open Classical in
/-- When all lines are read, a tag is off where a span holds it, and from where it has
been off since. -/
theorem Tracks.offAt_iff {switches : List (Option Switch)} {state : State}
    (h : Tracks switches switches.length state) (tag : String) (line : UInt32) :
    OffAt switches line.toNat tag ↔
      state.Past tag line ∨ ∃ first ≤ line, state.since? tag = some first := by
  rw [h.past_iff, OffAt]
  constructor
  · rintro (⟨before, heq, hnext⟩ | ⟨start, hstart, hdisable, hnone⟩)
    · exact Or.inl (Or.inl ⟨before, hnext.lt_length, heq, hnext⟩)
    · -- The span ends where the tag is first switched on behind `start`, if it is at all.
      by_cases hon : ∃ stop, start < stop ∧ SaysAt switches stop .enable tag
      · obtain ⟨hlt, henable⟩ := Nat.find_spec hon
        have hbetween : ∀ between, start < between → between < Nat.find hon →
            ¬ SaysAt switches between .enable tag :=
          fun between hafter hbefore hswitch => Nat.find_min hon hbefore ⟨hafter, hswitch⟩
        have hline : line.toNat ≤ Nat.find hon :=
          Nat.le_of_not_lt fun hbehind => hnone _ hlt hbehind henable
        exact Or.inl (Or.inr ⟨start, _, hstart, hline, henable.lt_length, hdisable, henable,
          hbetween⟩)
      · obtain ⟨first, hfirst, hsince⟩ := h.exists_since tag start hdisable.lt_length hdisable
          fun between hafter _ hswitch => hon ⟨between, hafter, hswitch⟩
        exact Or.inr ⟨first, UInt32.le_iff_toNat_le.mpr (Nat.le_trans hfirst hstart), hsince⟩
  · rintro ((⟨before, -, heq, hnext⟩ | ⟨start, stop, hstart, hstop, -, hdisable, -, hnone⟩) |
      ⟨first, hfirst, hsince⟩)
    · exact Or.inl ⟨before, heq, hnext⟩
    · exact Or.inr ⟨start, hstart, hdisable, fun between hafter hbefore =>
        hnone between hafter (by omega)⟩
    · obtain ⟨-, hdisable, hnone⟩ := h.of_since tag first hsince
      exact Or.inr ⟨first.toNat, UInt32.le_iff_toNat_le.mp hfirst, hdisable,
        fun between hafter _ hswitch => hnone between hafter hswitch.lt_length hswitch⟩

end Suppression

namespace Suppressions

open Suppression

theorem isQuiet_iff (s : Suppressions) (code : Code) (line : UInt32) :
    s.isQuiet code line = true ↔ ∃ tag, (tag = code.tag ∨ tag = allTag) ∧
      ∃ span ∈ s.spans, span.tag = tag ∧ span.covers line = true := by
  simp only [isQuiet, List.any_eq_true, Bool.and_eq_true, Bool.or_eq_true, beq_iff_eq]
  constructor
  · rintro ⟨span, hspan, htag, hcovers⟩
    exact ⟨span.tag, htag, span, hspan, rfl, hcovers⟩
  · rintro ⟨_, htag, span, hspan, rfl, hcovers⟩
    exact ⟨span, hspan, htag, hcovers⟩

theorem le_lastLine (line : UInt32) : line ≤ lastLine :=
  UInt32.le_iff_toNat_le.mpr (Nat.le_of_lt_succ line.toNat_lt_size)

theorem exists_span_ofText_iff {text : List Char} (hlength : (switches text).length < UInt32.size)
    (tag : String) (line : UInt32) :
    (∃ span ∈ (ofText text).spans, span.tag = tag ∧ span.covers line = true) ↔
      OffAt (switches text) line.toNat tag := by
  have htracks : Tracks (switches text) (switches text).length
      (State.run ⟨[], []⟩ 0 (switches text)) :=
    @Tracks.run _ [] (switches text) (tracks_start _) hlength
  rw [htracks.offAt_iff, ofText]
  generalize State.run ⟨[], []⟩ 0 (switches text) = final at htracks
  have hactive : ∀ first, (tag, first) ∈ final.active ↔ final.since? tag = some first :=
    fun _ => Table.mem_entries_iff htracks.nodup
  simp only [← hactive, List.mem_append, List.mem_map, or_and_right, exists_or]
  refine or_congr Iff.rfl ⟨?_, ?_⟩
  · rintro ⟨_, ⟨⟨_, first⟩, hmem, rfl⟩, rfl, hcovers⟩
    exact ⟨first, (State.covers_iff.mp hcovers).1, hmem⟩
  · rintro ⟨first, hfirst, hmem⟩
    exact ⟨_, ⟨_, hmem, rfl⟩, rfl, State.covers_iff.mpr ⟨hfirst, le_lastLine line⟩⟩

end Suppressions

/-! ### Texts -/

namespace Suppression

/-- The line of the text has a switching comment that does the action with the tag.
Carriage returns at the end of the line do not count. -/
def Switched (text : String) (number : Nat) (action : Action) (tag : String) : Prop :=
  ∃ line list, (Text.splitAt '\n' text.toList)[number]? = some line ∧
    IsSwitchOf (line.rdropWhile (· == '\r')) action list ∧ Lists list tag

theorem saysAt_switches_iff (text : String) (number : Nat) (action : Action) (tag : String) :
    SaysAt (switches text.toList) number action tag ↔ Switched text number action tag := by
  constructor
  · rintro ⟨_, hget, hswitch⟩
    rw [switches, List.getElem?_map, Option.map_eq_some_iff] at hget
    obtain ⟨line, hline, rfl⟩ := hget
    obtain ⟨list, hlist, htag⟩ := says_switch?_iff.mp hswitch
    exact ⟨line, list, hline, hlist, htag⟩
  · rintro ⟨line, list, hline, hlist, htag⟩
    refine ⟨_, ?_, says_switch?_iff.mpr ⟨list, hlist, htag⟩⟩
    rw [switches, List.getElem?_map, hline]
    rfl

end Suppression

open Suppression in
/-- A code is switched off on a line exactly if this holds of its tag or of `all`: the
line before switches the tag off for the next line, or some line up to this one switches
it off and no line strictly between the two switches it on. -/
theorem isQuiet_ofText_iff (text : String)
    (hlines : (Text.splitAt '\n' text.toList).length < UInt32.size - 1) (code : Code)
    (line : UInt32) :
    (Suppressions.ofText text.toList).isQuiet code line = true ↔
      ∃ tag, (tag = code.tag ∨ tag = allTag) ∧
        ((∃ before, line.toNat = before + 1 ∧ Switched text before .disableNextLine tag) ∨
          ∃ start ≤ line.toNat, Switched text start .disable tag ∧
            ∀ between, start < between → between < line.toNat →
              ¬ Switched text between .enable tag) := by
  have hlength : (switches text.toList).length < UInt32.size := by
    rw [switches, List.length_map]
    omega
  simp only [Suppressions.isQuiet_iff, Suppressions.exists_span_ofText_iff hlength, OffAt,
    saysAt_switches_iff]

open Suppression in
/-- A tag that is switched on again is still off on that line. -/
theorem isQuiet_ofText_up_to_enable :
    let text := "// mqlint-disable\n;\n// mqlint-enable all\n;"
    (Text.splitAt '\n' text.toList).length < UInt32.size - 1 ∧
      (∃ tag, (tag = Code.magicNumber.tag ∨ tag = allTag) ∧
        ((∃ before, (2 : UInt32).toNat = before + 1 ∧ Switched text before .disableNextLine tag) ∨
          ∃ start ≤ (2 : UInt32).toNat, Switched text start .disable tag ∧
            ∀ between, start < between → between < (2 : UInt32).toNat →
              ¬ Switched text between .enable tag)) ∧
      (Suppressions.ofText text.toList).isQuiet .magicNumber 3 = false := by
  intro text
  have hlines : (Text.splitAt '\n' text.toList).length < UInt32.size - 1 := by decide +kernel
  have hquiet : (Suppressions.ofText text.toList).isQuiet .magicNumber 2 = true := by
    decide +kernel
  exact ⟨hlines, (isQuiet_ofText_iff text hlines .magicNumber 2).mp hquiet, by decide +kernel⟩

end TradeScript
