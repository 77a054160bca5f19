import TradeScript.Proofs.Mismatch
import TradeScript.Proofs.Unreachable

/-!
# TradeScript.Proofs.Quotation

Where literals start and end. The scan that blanks their insides goes through a line
character by character, in one of three modes (`Mode`): outside of literals, inside one, or
inside one and right behind a backslash. A quote stays visible only where it takes the scan
into a literal or out of it (`maskFrom_eq_masked`).

A check that sees the bare line alone can tell the two apart. As long as a literal is open,
nothing but spaces comes behind the quote that opened it (`Tells`), so a quote with something
else before it opens a literal (`opens_of_tells`). From there to the next quote of the kind
the literal stays open (`within_behind`), and that quote closes it. This is how an error about
a text that is given to a number comes to cover one whole literal
(`mismatch_error_covers_literal`).
-/

namespace TradeScript

open Text (byteLength byteLength_append byteLength_cons isBlank unitLength)

/-- Where the scan for literals is. Inside a literal it knows the quote that opened it. -/
inductive Mode where
  | outside
  | inside (quote : Char)
  /-- Inside, right behind a backslash. -/
  | escaped (quote : Char)
  deriving DecidableEq

namespace Mode

/-- The mode behind one more character. -/
def next : Mode → Char → Mode
  | outside, c => if c = '"' ∨ c = '\'' then inside c else outside
  | inside q, c => if c = '\\' then escaped q else if c = q then outside else inside q
  | escaped q, _ => inside q

/-- The mode behind a text. -/
def behind (mode : Mode) (cs : List Char) : Mode :=
  cs.foldl next mode

@[simp] theorem behind_nil (mode : Mode) : mode.behind [] = mode := rfl

@[simp] theorem behind_cons (mode : Mode) (c : Char) (cs : List Char) :
    mode.behind (c :: cs) = (mode.next c).behind cs := rfl

theorem behind_append (mode : Mode) (front back : List Char) :
    mode.behind (front ++ back) = (mode.behind front).behind back :=
  List.foldl_append

/-- The literal that the quote opened is open. -/
def Within (q : Char) (mode : Mode) : Prop :=
  mode = inside q ∨ mode = escaped q

@[simp] theorem within_outside {q : Char} : ¬ Within q outside := by simp [Within]

@[simp] theorem within_inside {q q' : Char} : Within q (inside q') ↔ q' = q := by simp [Within]

@[simp] theorem within_escaped {q q' : Char} : Within q (escaped q') ↔ q' = q := by simp [Within]

theorem Within.unique {q q' : Char} {mode : Mode} (h : mode.Within q) (h' : mode.Within q') :
    q = q' := by
  cases mode with
  | outside => exact absurd h within_outside
  | inside _ => exact (within_inside.mp h).symm.trans (within_inside.mp h')
  | escaped _ => exact (within_escaped.mp h).symm.trans (within_escaped.mp h')

/-- A character is outside of literals or opens one, or it closes one, or it lies inside. -/
theorem next_cases (mode : Mode) (c : Char) :
    mode = outside ∧ (mode.next c = outside ∨ mode.next c = inside c) ∨
      mode = inside c ∧ mode.next c = outside ∨
      ∃ q, mode.Within q ∧ (mode.next c).Within q := by
  cases mode with
  | outside => by_cases hc : c = '"' ∨ c = '\'' <;> simp [next, hc]
  | inside q =>
      by_cases hescape : c = '\\'
      · exact .inr (.inr ⟨q, by simp, by simp [next, hescape]⟩)
      · by_cases hc : c = q
        · subst hc
          exact .inr (.inl ⟨rfl, by simp [next, hescape]⟩)
        · exact .inr (.inr ⟨q, by simp, by simp [next, hescape, hc]⟩)
  | escaped q => exact .inr (.inr ⟨q, by simp, by simp [next]⟩)

/-! ### Masking by modes -/

/-- What is seen of a character: it stays unless it lies inside a literal. -/
def shown (mode : Mode) (c : Char) : List Char :=
  if mode = outside ∨ mode.next c = outside then [c] else blankOut c

/-- A text with the insides of its literals blanked. -/
def masked : Mode → List Char → List Char
  | _, [] => []
  | mode, c :: cs => mode.shown c ++ masked (mode.next c) cs

/-- The mode at the start of a text that starts inside a literal, or outside of any. -/
def ofQuote : Option Char → Mode
  | none => outside
  | some q => inside q

/-- What the masking of literals does, it does by modes. -/
theorem maskFrom_eq_masked (quote : Option Char) (cs : List Char) :
    maskFrom quote cs = (ofQuote quote).masked cs := by
  fun_induction maskFrom quote cs with
  | case1 quote => rfl
  | case2 c rest ih =>
      have hnext : outside.next c = ofQuote (if c = '"' ∨ c = '\'' then some c else none) := by
        simp only [next]
        split <;> rfl
      rw [ih, ← hnext]
      rfl
  | case3 q => rfl
  | case4 q e rest ih =>
      rw [ih]
      rfl
  | case5 c rest hlast hnext ih =>
      simp [ofQuote, masked, shown, next, ne_escape hlast hnext, ih]
  | case6 q c rest hlast hnext hc ih =>
      simp [ofQuote, masked, shown, next, ne_escape hlast hnext, hc, ih]

theorem bareView_eq_masked (code : List Char) : bareView code = outside.masked code :=
  maskFrom_eq_masked none code

theorem masked_append (mode : Mode) (front back : List Char) :
    mode.masked (front ++ back) = mode.masked front ++ (mode.behind front).masked back := by
  induction front generalizing mode with
  | nil => rfl
  | cons c front ih => simp only [List.cons_append, masked, behind_cons, ih, List.append_assoc]

theorem byteLength_masked (mode : Mode) (cs : List Char) :
    byteLength (mode.masked cs) = byteLength cs := by
  induction cs generalizing mode with
  | nil => rfl
  | cons c cs ih =>
      have hshown : byteLength (mode.shown c) = c.utf8Size := by
        unfold shown
        split
        · simp
        · exact byteLength_blankOut c
      rw [masked, byteLength_append, hshown, ih, byteLength_cons]

/-- Seen is what lies outside of literals on one side of it; the rest is blanked. -/
theorem shown_cases (mode : Mode) (c : Char) :
    mode.shown c = [c] ∧ (mode = outside ∨ mode.next c = outside) ∨
      mode.shown c = blankOut c ∧ mode ≠ outside ∧ mode.next c ≠ outside := by
  by_cases h : mode = outside ∨ mode.next c = outside
  · exact .inl ⟨if_pos h, h⟩
  · exact .inr ⟨if_neg h, not_or.mp h⟩

/-- At a character that is seen and is no space, the text can be cut in two. -/
theorem exists_cut {mode : Mode} {cs front back : List Char} {c : Char} (hc : ' ' ≠ c)
    (h : mode.masked cs = front ++ c :: back) :
    ∃ before after, cs = before ++ c :: after ∧ mode.masked before = front ∧
      ((mode.behind before).next c).masked after = back ∧
      (mode.behind before = outside ∨ (mode.behind before).next c = outside) := by
  induction cs generalizing mode front with
  | nil => simp [masked] at h
  | cons d cs ih =>
      rw [masked] at h
      cases mode.shown_cases d with
      | inl hkept =>
          rw [hkept.1, List.singleton_append] at h
          cases front with
          | nil =>
              obtain ⟨rfl, rfl⟩ := List.cons.inj h
              exact ⟨[], cs, rfl, rfl, rfl, hkept.2⟩
          | cons first front =>
              obtain ⟨rfl, hrest⟩ := List.cons.inj h
              obtain ⟨before, after, rfl, hfront, hback, hseen⟩ := ih hrest
              refine ⟨d :: before, after, rfl, ?_, hback, hseen⟩
              rw [masked, hkept.1, hfront, List.singleton_append]
      | inr hblanked =>
          have hspaces : c ∉ mode.shown d := by
            rw [hblanked.1]
            exact fun hmem => hc (eq_space_of_mem_blankOut hmem).symm
          obtain ⟨more, rfl, hrest⟩ := exists_append_of_notMem h.symm hspaces
          obtain ⟨before, after, rfl, hfront, hback, hseen⟩ := ih hrest
          refine ⟨d :: before, after, rfl, ?_, hback, hseen⟩
          rw [masked, hfront]

/-! ### Open literals -/

/-- What is seen tells of an open literal: its quote is there, and only spaces behind it. -/
def Tells (seen : List Char) (mode : Mode) : Prop :=
  ∀ q, mode.Within q → ∃ front spaces, seen = front ++ q :: spaces ∧ ∀ c ∈ spaces, c = ' '

theorem tells_outside (seen : List Char) : Tells seen outside :=
  fun _ h => absurd h within_outside

/-- A literal that is open behind a character was open before it, or the character is its
quote. -/
theorem within_next_cases {mode : Mode} {c q : Char} (h : (mode.next c).Within q) :
    mode = outside ∧ q = c ∨ mode.Within q ∧ mode.shown c = blankOut c := by
  rcases mode.next_cases c with ⟨houtside, hnext⟩ | ⟨-, hnext⟩ | ⟨q', hopen, hstill⟩
  · cases hnext with
    | inl hnext => exact absurd (hnext ▸ h) within_outside
    | inr hnext =>
        rw [hnext, within_inside] at h
        exact .inl ⟨houtside, h.symm⟩
  · exact absurd (hnext ▸ h) within_outside
  · obtain rfl := h.unique hstill
    refine .inr ⟨hopen, if_neg (not_or.mpr ⟨fun hmode => ?_, fun hnext => ?_⟩)⟩
    · exact within_outside (hmode ▸ hopen)
    · exact within_outside (hnext ▸ h)

/-- One more character, and what is seen still tells of an open literal. -/
theorem Tells.next {seen : List Char} {mode : Mode} (h : Tells seen mode) (c : Char) :
    Tells (seen ++ mode.shown c) (mode.next c) := by
  intro q hq
  cases within_next_cases hq with
  | inl hopened =>
      obtain ⟨rfl, rfl⟩ := hopened
      exact ⟨seen, [], rfl, by simp⟩
  | inr hopen =>
      obtain ⟨front, spaces, rfl, hspaces⟩ := h q hopen.1
      refine ⟨front, spaces ++ blankOut c, by simp [hopen.2], fun d hd => ?_⟩
      cases List.mem_append.mp hd with
      | inl hd => exact hspaces d hd
      | inr hd => exact eq_space_of_mem_blankOut hd

theorem Tells.behind {seen : List Char} {mode : Mode} (h : Tells seen mode) (cs : List Char) :
    Tells (seen ++ mode.masked cs) (mode.behind cs) := by
  induction cs generalizing seen mode with
  | nil =>
      rw [masked, List.append_nil]
      exact h
  | cons c cs ih =>
      rw [masked, ← List.append_assoc]
      exact ih (h.next c)

/-- Behind something else than spaces, what is seen of a quote opens a literal. -/
theorem opens_of_tells {front before : List Char} {q : Char}
    (htells : Tells front (outside.behind before))
    (hfront : ∀ first spaces, front = first ++ q :: spaces → ∃ c ∈ spaces, c ≠ ' ')
    (hseen : outside.behind before = outside ∨ (outside.behind before).next q = outside) :
    outside.behind before = outside := by
  rcases (outside.behind before).next_cases q with ⟨houtside, -⟩ | ⟨hinside, -⟩ | ⟨_, -, hstill⟩
  · exact houtside
  · -- It would close a literal, with only spaces between the quotes.
    obtain ⟨first, spaces, hfirst, hspaces⟩ := htells q (.inl hinside)
    obtain ⟨c, hc, hne⟩ := hfront first spaces hfirst
    exact absurd (hspaces c hc) hne
  · cases hseen with
    | inl houtside => exact houtside
    | inr hnext => exact absurd (hnext ▸ hstill) within_outside

theorem within_next {mode : Mode} {q c : Char} (h : mode.Within q) (hq : q ∉ mode.shown c) :
    (mode.next c).Within q := by
  rcases mode.next_cases c with ⟨houtside, -⟩ | ⟨hinside, hnext⟩ | ⟨q', hopen, hstill⟩
  · exact absurd (houtside ▸ h) within_outside
  · have hkept : mode.shown c = [c] := if_pos (.inr hnext)
    rw [hinside, within_inside] at h
    rw [hkept, h] at hq
    exact absurd List.mem_cons_self hq
  · exact h.unique hopen ▸ hstill

/-- A literal stays open until its quote is seen. -/
theorem within_behind {mode : Mode} {q : Char} {cs : List Char} (h : mode.Within q)
    (hq : q ∉ mode.masked cs) : (mode.behind cs).Within q := by
  induction cs generalizing mode with
  | nil => exact h
  | cons c cs ih =>
      rw [masked, List.mem_append, not_or] at hq
      exact ih (within_next h hq.1) hq.2

end Mode

/-! ### Literals -/

open Mode (outside)

/-- A literal in double quotes stands in the text behind `before`: its first quote opens it,
it is open up to its second quote, and there it ends. -/
structure LiteralAt (code before inside after : List Char) : Prop where
  code_eq : code = before ++ '"' :: (inside ++ '"' :: after)
  opens : outside.behind before = outside
  stays_open : ∀ front, front <+: inside → (outside.behind (before ++ '"' :: front)).Within '"'
  closes : outside.behind (before ++ '"' :: (inside ++ ['"'])) = outside

/-- Two quotes that are seen with no other between them are those of one literal, if the
first has something else than spaces before it. -/
theorem exists_literalAt {code front mid back : List Char}
    (h : bareView code = front ++ '"' :: (mid ++ '"' :: back)) (hmid : '"' ∉ mid)
    (hfront : ∀ first spaces, front = first ++ '"' :: spaces → ∃ c ∈ spaces, c ≠ ' ') :
    ∃ before inside after, LiteralAt code before inside after ∧
      byteLength before = byteLength front ∧ byteLength inside = byteLength mid := by
  rw [Mode.bareView_eq_masked] at h
  -- The code is cut at the first quote, and what is behind it at the second.
  obtain ⟨before, rest, rfl, hbefore, hrest, hseen⟩ := Mode.exists_cut (by decide) h
  have htells : Mode.Tells front (outside.behind before) := by
    rw [← hbefore]
    exact (Mode.tells_outside []).behind before
  have hopens := Mode.opens_of_tells htells hfront hseen
  rw [hopens] at hrest
  obtain ⟨inside, after, rfl, hinside, -, hend⟩ := Mode.exists_cut (by decide) hrest
  have hbehind (cs : List Char) :
      outside.behind (before ++ '"' :: cs) = (Mode.inside '"').behind cs := by
    rw [Mode.behind_append, hopens]
    rfl
  have hstays : ∀ front, front <+: inside →
      (outside.behind (before ++ '"' :: front)).Within '"' := by
    intro front hfront
    obtain ⟨more, rfl⟩ := hfront
    rw [← hinside, Mode.masked_append, List.mem_append, not_or] at hmid
    rw [hbehind]
    exact Mode.within_behind (.inl rfl) hmid.1
  have hcloses : outside.behind (before ++ '"' :: (inside ++ ['"'])) = outside := by
    have hopen := hstays inside (List.prefix_refl inside)
    rw [hbehind] at hopen ⊢
    rw [Mode.behind_append]
    exact hend.resolve_left fun houtside => Mode.within_outside (houtside ▸ hopen)
  refine ⟨before, inside, after, ⟨rfl, hopens, hstays, hcloses⟩, ?_, ?_⟩
  · rw [← hbefore, Mode.byteLength_masked]
  · rw [← hinside, Mode.byteLength_masked]

/-- On the line as written the literal has the same quotes, and as much stands before, between
and behind them. -/
theorem LiteralAt.exists_raw {raw code before inside after : List Char}
    (h : LiteralAt code before inside after) (hblanking : Blanking raw code) :
    ∃ rawBefore rawInside rawAfter, raw = rawBefore ++ '"' :: (rawInside ++ '"' :: rawAfter) ∧
      byteLength rawBefore = byteLength before ∧ byteLength rawInside = byteLength inside := by
  have hquote {raw after : List Char} (h : Blanking raw (['"'] ++ after)) :
      ∃ rest, raw = '"' :: rest ∧ Blanking rest after :=
    h.of_token_append (by decide)
  rw [h.code_eq] at hblanking
  obtain ⟨rawBefore, _, rfl, hopen, hbefore⟩ := hblanking.of_append_cons (by decide)
  obtain ⟨_, rfl, hrest⟩ := hquote hopen
  obtain ⟨rawInside, _, rfl, hclose, hinside⟩ := hrest.of_append_cons (by decide)
  obtain ⟨rawAfter, rfl, -⟩ := hquote hclose
  exact ⟨rawBefore, rawInside, rawAfter, rfl, hbefore, hinside⟩

/-! ### Text for numbers -/

namespace Check

open Scan

variable {doc : Document} {line : Line} {number : Nat}

theorem textLiteral_eq_some {cs value rest : List Char} (h : textLiteral cs = some (value, rest)) :
    ∃ inside, value = '"' :: (inside ++ ['"']) ∧ '"' ∉ inside ∧ cs = value ++ rest := by
  obtain ⟨_, _, _, hopen, hrest, rfl⟩ := inTurn_cons_eq_some_iff.mp h
  obtain ⟨inside, _, _, hinside, hend, rfl⟩ := inTurn_cons_eq_some_iff.mp hrest
  obtain ⟨_, _, _, hclose, hnothing, rfl⟩ := inTurn_cons_eq_some_iff.mp hend
  obtain ⟨rfl, rfl⟩ := inTurn_nil_eq_some_iff.mp hnothing
  obtain ⟨rfl, rfl⟩ := exactly_eq_some_iff.mp hopen
  obtain ⟨rfl, hnone, -⟩ := manyOf_eq_some_iff.mp hinside
  obtain ⟨rfl, rfl⟩ := exactly_eq_some_iff.mp hclose
  refine ⟨inside, by simp, fun hquote => ?_, by simp⟩
  simpa using hnone '"' hquote

/-- Right before the value stands the sign of the assignment, and blanks. -/
theorem exists_equals_of_initialising {types : List String} {value : Reader}
    {previous : Option Char} {cs : List Char} {i : Initialisation}
    (h : initialising types value previous cs = some i) :
    ∃ front blanks, i.lead = front ++ '=' :: blanks ∧ ∀ c ∈ blanks, isBlank c = true := by
  obtain ⟨-, _, space, _, _, equals, _, _, -, -, -, hequals, -, hlead⟩ := initialising_eq_some h
  obtain ⟨left, right, hcs, -, hright⟩ := LiteralKind.of_read_equals hequals
  have hpiece : equals = left ++ '=' :: right := by
    have hread := inTurn_faithful (by simp) _ _ _ hequals
    rw [hcs, ← List.cons_append, ← List.append_assoc] at hread
    exact List.append_cancel_right hread
  exact ⟨i.type ++ space ++ i.name ++ left, right, by simp [hlead, hpiece], hright⟩

/-- The quotes of a value have something else than spaces before them. -/
theorem exists_ne_space_of_equals {front blanks first spaces : List Char}
    (hblanks : ∀ c ∈ blanks, isBlank c = true)
    (h : front ++ '=' :: blanks = first ++ '"' :: spaces) : ∃ c ∈ spaces, c ≠ ' ' := by
  have hquote : '"' ∉ '=' :: blanks := by
    intro hmem
    cases List.mem_cons.mp hmem with
    | inl heq => exact absurd heq (by decide)
    | inr hmem => exact absurd (hblanks _ hmem) (by decide)
  obtain ⟨more, -, rfl⟩ := exists_append_of_notMem_back h.symm hquote
  exact ⟨'=', by simp, by decide⟩

/-- A text for a number is reported from one quote of the bare line to the next. -/
theorem exists_quotes_of_textMismatch {d : Diagnostic}
    (h : mismatchOfLine doc line number textMismatch = some d) :
    ∃ front mid back, line.bare = front ++ '"' :: (mid ++ '"' :: back) ∧ '"' ∉ mid ∧
      (∀ first spaces, front = first ++ '"' :: spaces → ∃ c ∈ spaces, c ≠ ' ') ∧
      d.range = doc.span number (byteLength front)
        (byteLength front + byteLength ('"' :: (mid ++ ['"']))) := by
  simp only [mismatchOfLine, Option.bind_eq_bind, Option.bind_eq_some_iff, Option.some.injEq] at h
  obtain ⟨o, ho, f, -, rfl⟩ := h
  obtain ⟨before, rest, hbare, -, hoffset, hfound⟩ :=
    exists_match_of_mem_occurrences (List.mem_of_head? ho)
  obtain ⟨lead, blanks, hlead, hblanks⟩ := exists_equals_of_initialising hfound
  obtain ⟨value, back, rfl, hvalue⟩ := initialising_append hfound
  obtain ⟨mid, hquoted, hmid, rfl⟩ := textLiteral_eq_some hvalue
  refine ⟨before ++ o.found.lead, mid, back, ?_, hmid, fun first spaces hfirst => ?_, ?_⟩
  · simp [hbare, hquoted]
  · rw [hlead, ← List.append_assoc] at hfirst
    exact exists_ne_space_of_equals hblanks hfirst
  · rw [← hquoted, byteLength_append, ← hoffset]
    rfl

/-- Of all literals of the wrong type, only text is an error. -/
theorem eq_text_of_severity {kind : LiteralKind} {f : Finding} (hkind : f.literalKind? = some kind)
    (herror : f.severity = .error) : kind = .text := by
  cases f with
  | textForNumber _ _ => exact (Option.some.inj hkind).symm
  | numberForText _ _ | truthForOther _ _ | colorForOther _ _ => nomatch herror
  | _ => exact absurd hkind (by simp [Finding.literalKind?])

/-- The errors among the mismatches come from the check for text. -/
theorem exists_line_of_error {d : Diagnostic} (hd : d ∈ typeMismatches doc)
    (herror : d.severity = .error) :
    ∃ line number, (line, number) ∈ doc.numbered ∧
      mismatchOfLine doc line number textMismatch = some d := by
  obtain ⟨⟨line, number⟩, hline, hd⟩ := List.mem_flatMap.mp hd
  obtain ⟨m, hm, hd⟩ := List.mem_filterMap.mp hd
  obtain ⟨kind, rfl⟩ := LiteralKind.mem_mismatches_iff.mp hm
  have hreport := hd
  simp only [mismatchOfLine, Option.bind_eq_bind, Option.bind_eq_some_iff, Option.some.injEq]
    at hreport
  obtain ⟨o, -, f, hf, rfl⟩ := hreport
  obtain rfl := eq_text_of_severity (LiteralKind.literalKind?_of_finding hf) herror
  exact ⟨line, number, hline, hd⟩

end Check

/-- An error about a literal of the wrong type covers one whole literal in double quotes of the
line's code: it starts at the quote that opens the literal and ends behind the quote that
closes it, and between the two the literal is open all the time, whatever quotes and escapes it
has inside. The modes are those of the scan that makes the bare line. Columns are counted on
the line as written, where the same quotes stand at the same bytes. -/
theorem mismatch_error_covers_literal [Check.PatternEngine] (text : String)
    (hsize : byteLength text.toList < UInt32.size) (dialect : Dialect) (d : Diagnostic)
    (hd : d ∈ Check.all dialect (Document.ofText text.toList)) (hcode : d.code = .typeMismatch)
    (herror : d.severity = .error) :
    ∃ number line before inside after rawBefore rawInside rawAfter,
      (Document.ofText text.toList).lines[number]? = some line ∧
      line.bare = outside.masked line.code ∧ LiteralAt line.code before inside after ∧
      line.raw = rawBefore ++ '"' :: (rawInside ++ '"' :: rawAfter) ∧
      byteLength rawBefore = byteLength before ∧ byteLength rawInside = byteLength inside ∧
      d.range.Spans number (unitLength rawBefore)
        (unitLength (rawBefore ++ '"' :: (rawInside ++ ['"']))) := by
  have hmismatch := Check.mem_checkOf hd
  rw [hcode] at hmismatch
  obtain ⟨line, number, hline, hreport⟩ := Check.exists_line_of_error hmismatch herror
  have hget := Document.mem_numbered.mp hline
  have hmem := List.mem_of_getElem? hget
  obtain ⟨front, mid, back, hbare, hmid, hfront, hrange⟩ :=
    Check.exists_quotes_of_textMismatch hreport
  have hview : line.bare = bareView line.code := by
    obtain ⟨_, -, _, rfl⟩ := Document.exists_codeView_of_mem hmem
    rfl
  rw [hview] at hbare
  obtain ⟨before, inside, after, hliteral, hbefore, hinside⟩ := exists_literalAt hbare hmid hfront
  obtain ⟨rawBefore, rawInside, rawAfter, hraw, hrawBefore, hrawInside⟩ :=
    hliteral.exists_raw (Document.blanking_code hmem)
  refine ⟨number, line, before, inside, after, rawBefore, rawInside, rawAfter, hget,
    hview.trans (Mode.bareView_eq_masked _), hliteral, hraw, hrawBefore, hrawInside, ?_⟩
  have hlength : byteLength ('"' :: (rawInside ++ ['"'])) = byteLength ('"' :: (mid ++ ['"'])) := by
    rw [byteLength_cons, byteLength_append, hrawInside, hinside, ← byteLength_append,
      ← byteLength_cons]
  have hcut : line.raw = rawBefore ++ '"' :: (rawInside ++ ['"']) ++ rawAfter := by simp [hraw]
  rw [hrange, ← hbefore, ← hrawBefore, ← hlength]
  exact (Document.ofText_fits hsize).spans_of_raw hget hcut

/-- Behind a quote in a literal of the other kind, and with an escaped quote, a quote of the
other kind and an escaped backslash inside. -/
theorem mismatch_error_covers_escaped_quotes :
    let text := "'\"' int n = \"\\\"'é\\\\\";"
    let d : Diagnostic := ⟨⟨⟨0, 12⟩, ⟨0, 20⟩⟩, "Cannot assign string value to int variable 'n'",
      .error, .typeMismatch⟩
    d ∈ Check.all .mql5 (Document.ofText text.toList) ∧ d.code = .typeMismatch ∧
      d.severity = .error ∧
      ∃ line before inside after rawBefore rawInside rawAfter,
        (Document.ofText text.toList).lines[0]? = some line ∧
        LiteralAt line.code before inside after ∧
        line.raw = rawBefore ++ '"' :: (rawInside ++ '"' :: rawAfter) ∧
        byteLength rawBefore = byteLength before ∧ byteLength rawInside = byteLength inside ∧
        d.range.Spans 0 (unitLength rawBefore)
          (unitLength (rawBefore ++ '"' :: (rawInside ++ ['"']))) := by
  intro text d
  have hmismatch : d ∈ Check.typeMismatches (Document.ofText text.toList) := by decide +kernel
  have hd : d ∈ Check.all .mql5 (Document.ofText text.toList) := by
    simp only [Check.all, Check.semantic, List.mem_append]
    exact .inl (.inr (.inl (.inr hmismatch)))
  obtain ⟨number, line, before, inside, after, rawBefore, rawInside, rawAfter, hline, -, hliteral,
    hraw, hbefore, hinside, hrange⟩ :=
    mismatch_error_covers_literal text (by decide) .mql5 d hd rfl rfl
  obtain rfl : 0 = number := hrange.start_line
  exact ⟨hd, rfl, rfl, line, before, inside, after, rawBefore, rawInside, rawAfter, hline, hliteral,
    hraw, hbefore, hinside, hrange⟩

end TradeScript
