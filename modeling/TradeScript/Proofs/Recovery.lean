import Mathlib.Data.List.Pairwise
import TradeScript.Proofs.Ascending
import TradeScript.Proofs.WellNested

/-!
# TradeScript.Proofs.Recovery

What the bracket matcher makes of brackets that are not well nested. It passes over a
closing bracket that fits nothing, and keeps the open bracket that it was compared with.
So whatever it reports can be struck out, and what is left is well nested.

The matcher goes line by line and reports ranges. Here its run is seen as one run over
the brackets of the document, each with its place (`sortOut`, `brackets_eq`). What it
leaves out, the closing brackets out of place and the opening ones never closed, are
brackets of the document, each left out once (`dropped_perm`), and without them the stack
machine of well-nested words does not stop (`settle_sortOut`).

A bracket is known by its place and not by its range: only where lines and columns are
numbers of 32 bits have different brackets different ranges (`Fits.range_inj`).
-/

namespace TradeScript

namespace BracketMark

def isOpening : BracketMark → Bool
  | opening _ => true
  | closing _ => false

def isClosing : BracketMark → Bool
  | opening _ => false
  | closing _ => true

@[simp] theorem isOpening_opening (kind : Bracket) : (opening kind).isOpening = true := rfl

@[simp] theorem isOpening_closing (kind : Bracket) : (closing kind).isOpening = false := rfl

@[simp] theorem isClosing_opening (kind : Bracket) : (opening kind).isClosing = false := rfl

@[simp] theorem isClosing_closing (kind : Bracket) : (closing kind).isClosing = true := rfl

theorem isOpening_of_isClosing {m : BracketMark} (h : m.isClosing = true) :
    m.isOpening = false := by
  cases m with
  | opening kind => simp at h
  | closing kind => rfl

/-- What may be wrong with a bracket: a closing one meets nothing open, or a bracket of
another kind; an opening one is never closed. -/
inductive Fault : BracketMark → Finding → Prop where
  | unmatched (kind : Bracket) : Fault (closing kind) (.unmatchedBracket kind.closer)
  | mismatched (expected kind : Bracket) :
      Fault (closing kind) (.mismatchedBracket expected.closer kind.closer)
  | unclosed (kind : Bracket) : Fault (opening kind) (.unclosedBracket kind.opener)

theorem Fault.code_mem {m : BracketMark} {f : Finding} (h : m.Fault f)
    (hclosing : m.isClosing = true) : f.code ∈ [Code.unmatchedBracket, .mismatchedBracket] := by
  cases h with
  | unmatched kind => exact List.mem_cons_self
  | mismatched expected kind => exact List.mem_cons_of_mem _ List.mem_cons_self
  | unclosed kind => simp at hclosing

end BracketMark

/-! ### The brackets of a document -/

/-- A bracket of a document, with its line and byte column. -/
structure BracketSite where
  line : Nat
  column : Nat
  mark : BracketMark
  deriving Repr, DecidableEq

/-- Where an open bracket stands. -/
def OpenBracket.site (b : OpenBracket) : BracketSite :=
  ⟨b.line, b.column, .opening b.kind⟩

@[simp] theorem OpenBracket.mark_site (b : OpenBracket) : b.site.mark = .opening b.kind := rfl

/-- The range of a bracket: it has one byte. -/
def BracketSite.range (doc : Document) (s : BracketSite) : Range :=
  doc.span s.line s.column (s.column + 1)

/-- The brackets among the characters of a line, given with their byte columns. -/
def sitesOfLine (number : Nat) (chars : List (Nat × Char)) : List BracketSite :=
  chars.filterMap fun c => (BracketMark.ofChar? c.2).map (BracketSite.mk number c.1)

/-- The brackets of consecutive lines. -/
def sitesOfLines (lines : List (Line × Nat)) : List BracketSite :=
  lines.flatMap fun line => sitesOfLine line.2 (Text.withOffsets 0 line.1.bare)

/-- The brackets of the bare text of a document, in order. -/
def Document.bracketSites (doc : Document) : List BracketSite :=
  sitesOfLines doc.numbered

theorem sitesOfLine_cons_none {c : Char} (hc : BracketMark.ofChar? c = none) (number column : Nat)
    (rest : List (Nat × Char)) :
    sitesOfLine number ((column, c) :: rest) = sitesOfLine number rest := by
  simp only [sitesOfLine, List.filterMap_cons, hc, Option.map_none]

theorem sitesOfLine_cons_some {c : Char} {m : BracketMark} (hc : BracketMark.ofChar? c = some m)
    (number column : Nat) (rest : List (Nat × Char)) :
    sitesOfLine number ((column, c) :: rest) =
      ⟨number, column, m⟩ :: sitesOfLine number rest := by
  simp only [sitesOfLine, List.filterMap_cons, hc, Option.map_some]

theorem map_mark_sitesOfLine (number : Nat) (chars : List (Nat × Char)) :
    (sitesOfLine number chars).map BracketSite.mark = bracketMarks (chars.map Prod.snd) := by
  simp only [sitesOfLine, bracketMarks, List.map_filterMap, List.filterMap_map, Option.map_map]
  congr 1
  funext c
  simp only [Function.comp_def, Option.map_id']

/-- The brackets of a document are those of its bare text. -/
theorem Document.map_mark_bracketSites (doc : Document) :
    doc.bracketSites.map BracketSite.mark = bracketMarks doc.bareText := by
  rw [bracketMarks_bareText, bracketSites, sitesOfLines, List.map_flatMap]
  simp only [map_mark_sitesOfLine, Check.map_snd_withOffsets]

namespace Check

/-! ### One run over all brackets -/

/-- Match brackets against the open ones, the innermost of which comes first. The result
are the brackets out of place, each with what is found there, and the brackets open
afterwards. -/
def sortOut : List OpenBracket → List BracketSite →
    List (BracketSite × Finding) × List OpenBracket
  | pending, [] => ([], pending)
  | pending, site :: rest =>
      match site.mark with
      | .opening kind => sortOut (⟨kind, site.line, site.column⟩ :: pending) rest
      | .closing kind =>
          match pending with
          | [] =>
              let r := sortOut [] rest
              ((site, .unmatchedBracket kind.closer) :: r.1, r.2)
          | top :: below =>
              if top.kind = kind then sortOut below rest
              else
                let r := sortOut (top :: below) rest
                ((site, .mismatchedBracket top.kind.closer kind.closer) :: r.1, r.2)

/-- What is found at a bracket, as it is reported. -/
def reportAt (doc : Document) (x : BracketSite × Finding) : Diagnostic :=
  x.2.report (x.1.range doc)

/-- An open bracket, with what is found there in the end. -/
def leftOpen (b : OpenBracket) : BracketSite × Finding :=
  (b.site, .unclosedBracket b.kind.opener)

/-- The brackets that are reported, each with what is found there: those out of place, and
then those that stay open. -/
def bracketFindings (doc : Document) : List (BracketSite × Finding) :=
  (sortOut [] doc.bracketSites).1 ++ (sortOut [] doc.bracketSites).2.reverse.map leftOpen

theorem sortOut_append (pending : List OpenBracket) (front back : List BracketSite) :
    sortOut pending (front ++ back) =
      ((sortOut pending front).1 ++ (sortOut (sortOut pending front).2 back).1,
        (sortOut (sortOut pending front).2 back).2) := by
  fun_induction sortOut pending front with
  | case1 pending => rfl
  | case2 pending site rest kind hmark ih => simp only [List.cons_append, sortOut, hmark, ih]
  | case3 site rest kind hmark r ih => simp only [List.cons_append, sortOut, hmark, ih, r]
  | case4 site rest top below hmark ih =>
      simp only [List.cons_append, sortOut, hmark, if_true, ih]
  | case5 site rest kind hmark top below hne r ih =>
      simp only [List.cons_append, sortOut, hmark, if_neg hne, ih, r]

/-- On one line the matcher does what `sortOut` does. -/
theorem matchBrackets_eq_sortOut (doc : Document) (number : Nat) (pending : List OpenBracket)
    (chars : List (Nat × Char)) :
    ((matchBrackets number pending chars).1.map fun x =>
        x.2.report (doc.span number x.1 (x.1 + 1))) =
      (sortOut pending (sitesOfLine number chars)).1.map (reportAt doc) ∧
    (matchBrackets number pending chars).2 = (sortOut pending (sitesOfLine number chars)).2 := by
  fun_induction matchBrackets number pending chars with
  | case1 pending => exact ⟨rfl, rfl⟩
  | case2 pending column c rest hc ih =>
      rw [sitesOfLine_cons_none hc]
      exact ih
  | case3 pending column c rest kind hc ih =>
      rw [sitesOfLine_cons_some hc, sortOut]
      exact ih
  | case4 column c rest kind hc r ih =>
      have hchar : kind.closer = c := BracketMark.char_of_ofChar? hc
      simp only [sitesOfLine_cons_some hc, sortOut, List.map_cons, ← ih.1, ← ih.2, reportAt,
        BracketSite.range, hchar, and_self, r]
  | case5 column c rest top below hc ih =>
      simpa only [sitesOfLine_cons_some hc, sortOut, if_true] using ih
  | case6 column c rest kind hc top below hne r ih =>
      have hchar : kind.closer = c := BracketMark.char_of_ofChar? hc
      simp only [sitesOfLine_cons_some hc, sortOut, if_neg hne, List.map_cons, ← ih.1, ← ih.2,
        reportAt, BracketSite.range, hchar, and_self, r]

theorem bracketsOfLines_eq_sortOut (doc : Document) (pending : List OpenBracket)
    (lines : List (Line × Nat)) :
    (bracketsOfLines doc pending lines).1.flatten =
      (sortOut pending (sitesOfLines lines)).1.map (reportAt doc) ∧
    (bracketsOfLines doc pending lines).2 = (sortOut pending (sitesOfLines lines)).2 := by
  induction lines generalizing pending with
  | nil => exact ⟨rfl, rfl⟩
  | cons head rest ih =>
      obtain ⟨line, number⟩ := head
      obtain ⟨hreport, hopen⟩ :=
        matchBrackets_eq_sortOut doc number pending (Text.withOffsets 0 line.bare)
      obtain ⟨ihreport, ihopen⟩ := ih (bracketsOfLine doc pending line number).2
      have hsites : sitesOfLines ((line, number) :: rest) =
          sitesOfLine number (Text.withOffsets 0 line.bare) ++ sitesOfLines rest := rfl
      rw [hsites, sortOut_append, ← hopen]
      constructor
      · rw [bracketsOfLines, List.flatten_cons, ihreport, List.map_append, ← hreport]
        rfl
      · exact ihopen

/-- The matcher reports what is found at the brackets. -/
theorem brackets_eq (doc : Document) :
    brackets doc = (bracketFindings doc).map (reportAt doc) := by
  obtain ⟨hreport, hopen⟩ := bracketsOfLines_eq_sortOut doc [] doc.numbered
  rw [brackets, hreport, hopen, bracketFindings, List.map_append, List.map_map]
  rfl

/-! ### What becomes of a bracket -/

/-- A bracket is opened, or it is out of place, or it closes the innermost open one. -/
inductive Fate (pending : List OpenBracket) (site : BracketSite) (rest : List BracketSite) :
    Prop where
  | opened (b : OpenBracket) : b.site = site →
      sortOut pending (site :: rest) = sortOut (b :: pending) rest → Fate pending site rest
  | stray (f : Finding) : site.mark.isClosing = true → site.mark.Fault f →
      f.code = (if pending = [] then .unmatchedBracket else .mismatchedBracket) →
      sortOut pending (site :: rest) =
        ((site, f) :: (sortOut pending rest).1, (sortOut pending rest).2) →
      Fate pending site rest
  | closed (top : OpenBracket) (below : List OpenBracket) : pending = top :: below →
      site.mark = .closing top.kind → sortOut pending (site :: rest) = sortOut below rest →
      Fate pending site rest

theorem sortOut_cons (pending : List OpenBracket) (site : BracketSite) (rest : List BracketSite) :
    Fate pending site rest := by
  obtain ⟨line, column, mark⟩ := site
  cases mark with
  | opening kind => exact .opened ⟨kind, line, column⟩ rfl rfl
  | closing kind =>
      cases pending with
      | nil => exact .stray (.unmatchedBracket kind.closer) rfl (.unmatched kind) rfl rfl
      | cons top below =>
          by_cases hkind : top.kind = kind
          · subst hkind
            exact .closed top below rfl rfl (by simp only [sortOut, if_true])
          · exact .stray (.mismatchedBracket top.kind.closer kind.closer) rfl
              (.mismatched top.kind kind) rfl (by simp only [sortOut, if_neg hkind])

/-! ### What is left out -/

/-- The brackets that a run leaves out: those out of place, and those that stay open. -/
def dropped (pending : List OpenBracket) (sites : List BracketSite) : List BracketSite :=
  (sortOut pending sites).1.map Prod.fst ++ (sortOut pending sites).2.map OpenBracket.site

/-- What is out of place are closing brackets. -/
theorem of_mem_sortOut {pending : List OpenBracket} {sites : List BracketSite}
    {x : BracketSite × Finding} (h : x ∈ (sortOut pending sites).1) :
    x.1 ∈ sites ∧ x.1.mark.isClosing = true ∧ x.1.mark.Fault x.2 := by
  induction sites generalizing pending with
  | nil => simp [sortOut] at h
  | cons site rest ih =>
      have hlater : ∀ {pending}, x ∈ (sortOut pending rest).1 →
          x.1 ∈ site :: rest ∧ x.1.mark.isClosing = true ∧ x.1.mark.Fault x.2 :=
        fun h => ⟨List.mem_cons_of_mem _ (ih h).1, (ih h).2⟩
      cases sortOut_cons pending site rest with
      | opened b hb hrun =>
          rw [hrun] at h
          exact hlater h
      | stray f hmark hfault hcode hrun =>
          rw [hrun] at h
          cases List.mem_cons.mp h with
          | inl h =>
              subst h
              exact ⟨List.mem_cons_self, hmark, hfault⟩
          | inr h => exact hlater h
      | closed top below hpending hmark hrun =>
          rw [hrun] at h
          exact hlater h

/-- Every bracket, also of those open before, is left out once or is matched. -/
theorem dropped_perm (pending : List OpenBracket) (sites : List BracketSite) :
    ∃ matched, (pending.map OpenBracket.site ++ sites).Perm (dropped pending sites ++ matched) := by
  induction sites generalizing pending with
  | nil => exact ⟨[], .refl _⟩
  | cons site rest ih =>
      have hfirst : (pending.map OpenBracket.site ++ site :: rest).Perm
          (site :: (pending.map OpenBracket.site ++ rest)) := List.perm_middle
      unfold dropped
      cases sortOut_cons pending site rest with
      | opened b hb hrun =>
          obtain ⟨matched, hperm⟩ := ih (b :: pending)
          rw [List.map_cons, hb] at hperm
          rw [hrun]
          exact ⟨matched, hfirst.trans hperm⟩
      | stray f hmark hfault hcode hrun =>
          obtain ⟨matched, hperm⟩ := ih pending
          rw [hrun]
          exact ⟨matched, hfirst.trans (hperm.cons site)⟩
      | closed top below hpending hmark hrun =>
          subst hpending
          obtain ⟨matched, hperm⟩ := ih below
          rw [hrun]
          refine ⟨site :: top.site :: matched, hfirst.trans ?_⟩
          have hpair := (hperm.cons top.site).trans List.perm_middle.symm
          exact (hpair.cons site).trans List.perm_middle.symm

theorem mem_of_mem_dropped {pending : List OpenBracket} {sites : List BracketSite}
    {s : BracketSite} (h : s ∈ dropped pending sites) :
    s ∈ pending.map OpenBracket.site ++ sites := by
  obtain ⟨matched, hperm⟩ := dropped_perm pending sites
  exact hperm.mem_iff.mpr (List.mem_append_left matched h)

theorem dropped_nodup {pending : List OpenBracket} {sites : List BracketSite}
    (h : (pending.map OpenBracket.site ++ sites).Nodup) : (dropped pending sites).Nodup := by
  obtain ⟨matched, hperm⟩ := dropped_perm pending sites
  exact (List.nodup_append.mp (hperm.nodup_iff.mp h)).1

/-! ### What is kept -/

/-- Every opening bracket is closed or stays open, and every closing one closes one or is
out of place. -/
theorem length_sortOut (pending : List OpenBracket) (sites : List BracketSite) :
    pending.length + sites.countP (·.mark.isOpening) + (sortOut pending sites).1.length =
      sites.countP (·.mark.isClosing) + (sortOut pending sites).2.length := by
  induction sites generalizing pending with
  | nil => simp [sortOut]
  | cons site rest ih =>
      cases sortOut_cons pending site rest with
      | opened b hb hrun =>
          have hrest := ih (b :: pending)
          have hmark : site.mark = .opening b.kind := by rw [← hb, OpenBracket.mark_site]
          rw [List.length_cons] at hrest
          simp [hrun, hmark]
          omega
      | stray f hmark hfault hcode hrun =>
          have hrest := ih pending
          simp [hrun, hmark, BracketMark.isOpening_of_isClosing hmark]
          omega
      | closed top below hpending hmark hrun =>
          have hrest := ih below
          subst hpending
          simp [hrun, hmark]
          omega

/-- Keep what is matched, strike out what is out of place, and do either with what stays
open: then the stack machine runs to the end, and what it has open is what was kept of
that. -/
theorem settle_sortOut (keep : BracketSite → Bool) (pending : List OpenBracket)
    (sites : List BracketSite) (hnodup : (pending.map OpenBracket.site ++ sites).Nodup)
    (hstray : ∀ x ∈ (sortOut pending sites).1, keep x.1 = false)
    (hmatched : ∀ s ∈ pending.map OpenBracket.site ++ sites, s ∉ dropped pending sites →
      keep s = true) :
    settle ((pending.filter (keep ·.site)).map OpenBracket.kind)
        ((sites.filter keep).map BracketSite.mark) =
      some (((sortOut pending sites).2.filter (keep ·.site)).map OpenBracket.kind) := by
  -- The brackets are distinct, so what is said of one holds whatever later ones do.
  induction sites generalizing pending with
  | nil => rfl
  | cons site rest ih =>
      have hperm : (pending.map OpenBracket.site ++ site :: rest).Perm
          (site :: (pending.map OpenBracket.site ++ rest)) := List.perm_middle
      obtain ⟨hnew, hrest⟩ := List.nodup_cons.mp (hperm.nodup_iff.mp hnodup)
      unfold dropped at hmatched
      cases sortOut_cons pending site rest with
      | opened b hb hrun =>
          rw [hrun] at hstray hmatched ⊢
          have hbelow := ih (b :: pending) ?_ hstray ?_
          · subst hb
            rw [← hbelow]
            by_cases hkeep : keep b.site
            · simp only [List.filter_cons, hkeep, if_true, List.map_cons]
              rfl
            · simp only [List.filter_cons, hkeep, Bool.false_eq_true, if_false]
          · rw [List.map_cons, hb]
            exact List.nodup_cons.mpr ⟨hnew, hrest⟩
          · intro s hs
            rw [List.map_cons, hb] at hs
            exact hmatched s (hperm.mem_iff.mpr hs)
      | stray f hmark hfault hcode hrun =>
          rw [hrun] at hstray hmatched ⊢
          obtain ⟨hsite, hstray⟩ := List.forall_mem_cons.mp hstray
          simp only [List.filter_cons, hsite, Bool.false_eq_true, if_false]
          apply ih pending hrest hstray
          intro s hs hkept
          apply hmatched s (hperm.mem_iff.mpr (List.mem_cons_of_mem _ hs))
          intro hmem
          cases List.mem_cons.mp hmem with
          | inl h =>
              rw [h] at hs
              exact hnew hs
          | inr h => exact hkept h
      | closed top below hpending hmark hrun =>
          subst hpending
          rw [hrun] at hstray hmatched ⊢
          obtain ⟨htop, hbelow⟩ := List.nodup_cons.mp hrest
          have hkept : ∀ {s}, s ∉ below.map OpenBracket.site ++ rest → s ∉ dropped below rest :=
            fun hs hmem => hs (mem_of_mem_dropped hmem)
          have hsite : keep site = true := by
            apply hmatched site (by simp)
            exact hkept fun hmem => hnew (List.mem_cons_of_mem _ hmem)
          have hkeep : keep top.site = true := hmatched top.site (by simp) (hkept htop)
          simp only [List.filter_cons, hsite, hkeep, if_true, List.map_cons, hmark, settle]
          apply ih below hbelow hstray
          intro s hs
          apply hmatched
          exact hperm.mem_iff.mpr (List.mem_cons_of_mem _ (List.mem_cons_of_mem _ hs))

end Check

/-! ### Places and ranges of brackets -/

namespace Document

variable {doc : Document}

theorem exists_line_of_mem_bracketSites {s : BracketSite} (h : s ∈ doc.bracketSites) :
    ∃ line, (line, s.line) ∈ doc.numbered ∧
      (s.column, s.mark.char) ∈ Text.withOffsets 0 line.bare := by
  obtain ⟨⟨line, number⟩, hline, hs⟩ := List.mem_flatMap.mp h
  obtain ⟨c, hc, hs⟩ := List.mem_filterMap.mp hs
  obtain ⟨m, hm, rfl⟩ := Option.map_eq_some_iff.mp hs
  refine ⟨line, hline, ?_⟩
  rw [BracketMark.char_of_ofChar? hm]
  exact hc

/-- The brackets come line by line, and on a line from left to right. -/
theorem bracketSites_pairwise (doc : Document) :
    doc.bracketSites.Pairwise fun s t =>
      s.line < t.line ∨ s.line = t.line ∧ s.column < t.column := by
  refine List.pairwise_flatMap.mpr ⟨?_, doc.numbered_pairwise.imp ?_⟩
  · intro line _
    refine List.pairwise_filterMap.mpr ((Text.withOffsets_pairwise 0 line.1.bare).imp ?_)
    intro a b hlt s hs t ht
    obtain ⟨m, -, rfl⟩ := Option.map_eq_some_iff.mp hs
    obtain ⟨n, -, rfl⟩ := Option.map_eq_some_iff.mp ht
    exact .inr ⟨rfl, hlt⟩
  · intro a b hlt s hs t ht
    obtain ⟨c, -, hs⟩ := List.mem_filterMap.mp hs
    obtain ⟨d, -, ht⟩ := List.mem_filterMap.mp ht
    obtain ⟨m, -, rfl⟩ := Option.map_eq_some_iff.mp hs
    obtain ⟨n, -, rfl⟩ := Option.map_eq_some_iff.mp ht
    exact .inl hlt

theorem nodup_bracketSites (doc : Document) : doc.bracketSites.Nodup := by
  refine doc.bracketSites_pairwise.imp ?_
  intro s t hlt heq
  subst heq
  omega

/-- Different brackets of a document have different ranges, if it fits. -/
theorem Fits.range_inj (fits : doc.Fits) :
    ∀ s ∈ doc.bracketSites, ∀ t ∈ doc.bracketSites, s.range doc = t.range doc → s = t := by
  have hne : doc.bracketSites.Pairwise fun s t => s.range doc ≠ t.range doc := by
    refine doc.bracketSites_pairwise.imp_of_mem ?_
    intro s t hs ht hlt heq
    obtain ⟨line, hline, hchar⟩ := exists_line_of_mem_bracketSites hs
    obtain ⟨line', hline', -⟩ := exists_line_of_mem_bracketSites ht
    have hstart : (s.range doc).start < (t.range doc).start := by
      rcases hlt with hlt | ⟨hsame, hlt⟩
      · exact .inl (fits.line_lt hlt (lt_lineCount_of_mem hline'))
      · unfold BracketSite.range
        rw [← hsame]
        exact fits.span_start_lt hline (Check.visibleAt_of_bracket hchar) hlt _ _
    rw [heq] at hstart
    exact Position.not_lt_self _ hstart
  have : Std.Symm fun s t : BracketSite => s.range doc ≠ t.range doc := ⟨fun _ _ => Ne.symm⟩
  intro s hs t ht heq
  exact Classical.byContradiction fun h => hne.forall hs ht h heq

end Document

/-! ### What is reported -/

namespace Check

variable {doc : Document} {s : BracketSite}

/-- What is reported is left out, once each. -/
theorem bracketFindings_perm (doc : Document) :
    ((bracketFindings doc).map Prod.fst).Perm (dropped [] doc.bracketSites) := by
  rw [bracketFindings, List.map_append, List.map_map, dropped]
  exact ((List.reverse_perm _).map _).append_left _

theorem nodup_bracketFindings (doc : Document) : ((bracketFindings doc).map Prod.fst).Nodup :=
  (bracketFindings_perm doc).nodup_iff.mpr (dropped_nodup doc.nodup_bracketSites)

theorem of_mem_bracketFindings {x : BracketSite × Finding} (h : x ∈ bracketFindings doc) :
    x.1 ∈ doc.bracketSites ∧ x.1.mark.Fault x.2 := by
  have hsite : x.1 ∈ dropped [] doc.bracketSites :=
    (bracketFindings_perm doc).mem_iff.mp (List.mem_map_of_mem h)
  refine ⟨by simpa using mem_of_mem_dropped hsite, ?_⟩
  cases List.mem_append.mp h with
  | inl h => exact (of_mem_sortOut h).2.2
  | inr h =>
      obtain ⟨b, -, rfl⟩ := List.mem_map.mp h
      exact .unclosed b.kind

/-- A closing bracket is reported if it was found out of place. -/
theorem mem_bracketFindings_iff (hclosing : s.mark.isClosing = true) {f : Finding} :
    (s, f) ∈ bracketFindings doc ↔ (s, f) ∈ (sortOut [] doc.bracketSites).1 := by
  rw [bracketFindings, List.mem_append]
  refine or_iff_left ?_
  intro h
  obtain ⟨b, -, hb⟩ := List.mem_map.mp h
  obtain ⟨rfl, -⟩ := Prod.mk.inj hb
  simp at hclosing

/-- Without what is reported, the brackets are well nested. -/
theorem wellNested_unreported (doc : Document) :
    WellNested ((doc.bracketSites.filter fun s => s ∉ (bracketFindings doc).map Prod.fst).map
      BracketSite.mark) := by
  have hmem : ∀ {s}, s ∈ (bracketFindings doc).map Prod.fst ↔ s ∈ dropped [] doc.bracketSites :=
    (bracketFindings_perm doc).mem_iff
  have hsettle := settle_sortOut (fun s => decide (s ∉ (bracketFindings doc).map Prod.fst)) []
    doc.bracketSites doc.nodup_bracketSites ?_ ?_
  · rw [← settle_eq_nil_iff]
    refine hsettle.trans ?_
    rw [List.filter_eq_nil_iff.mpr]
    · rfl
    · intro b hb
      have hopen := hmem.mpr (List.mem_append_right _ (List.mem_map_of_mem hb))
      simpa using hopen
  · intro x hx
    have hstray := hmem.mpr (List.mem_append_left _ (List.mem_map_of_mem hx))
    exact decide_eq_false fun h => h hstray
  · intro s _ hkept
    exact decide_eq_true fun h => hkept (hmem.mp h)

/-- A closing bracket is reported as unmatched exactly if nothing is open before it. -/
theorem unmatched_iff {before after : List BracketSite}
    (hsites : doc.bracketSites = before ++ s :: after) (hclosing : s.mark.isClosing = true) :
    (∃ f, (s, f) ∈ bracketFindings doc ∧ f.code = .unmatchedBracket) ↔
      (sortOut [] before).2 = [] := by
  have hnodup := doc.nodup_bracketSites
  rw [hsites] at hnodup
  obtain ⟨hnew, -⟩ := List.nodup_cons.mp (List.perm_middle.nodup_iff.mp hnodup)
  -- The only report on this bracket comes from its own turn.
  have hown : ∀ {f}, (s, f) ∉ (sortOut [] before).1 := fun hf =>
    hnew (List.mem_append_left _ (of_mem_sortOut hf).1)
  have hlater : ∀ {pending f}, (s, f) ∉ (sortOut pending after).1 := fun hf =>
    hnew (List.mem_append_right _ (of_mem_sortOut hf).1)
  simp only [mem_bracketFindings_iff hclosing, hsites, sortOut_append]
  constructor
  · intro h
    obtain ⟨f, hf, hcode⟩ := h
    have hf := (List.mem_append.mp hf).resolve_left hown
    cases sortOut_cons (sortOut [] before).2 s after with
    | opened b hb hrun =>
        rw [hrun] at hf
        exact absurd hf hlater
    | stray g hmark hfault hg hrun =>
        rw [hrun] at hf
        have hfg := (List.mem_cons.mp hf).resolve_right hlater
        obtain rfl : f = g := (Prod.mk.inj hfg).2
        by_cases hempty : (sortOut [] before).2 = []
        · exact hempty
        · rw [if_neg hempty, hcode] at hg
          exact absurd hg (by decide)
    | closed top below hpending hmark hrun =>
        rw [hrun] at hf
        exact absurd hf hlater
  · intro hempty
    cases sortOut_cons (sortOut [] before).2 s after with
    | opened b hb hrun =>
        rw [← hb] at hclosing
        simp at hclosing
    | stray g hmark hfault hg hrun =>
        rw [if_pos hempty] at hg
        refine ⟨g, List.mem_append_right _ ?_, hg⟩
        rw [hrun]
        exact List.mem_cons_self
    | closed top below hpending hmark hrun => simp [hempty] at hpending

/-- Nothing is open before a bracket exactly if the brackets before it, without those out
of place, are well nested. -/
theorem nothing_open_iff {before after : List BracketSite}
    (hsites : doc.bracketSites = before ++ after) :
    (sortOut [] before).2 = [] ↔
      WellNested ((before.filter fun t => t.mark.isOpening ∨
        t ∉ (bracketFindings doc).map Prod.fst).map BracketSite.mark) := by
  have hnodup := doc.nodup_bracketSites
  rw [hsites] at hnodup
  obtain ⟨hbefore, -, happart⟩ := List.nodup_append.mp hnodup
  have hrun : (sortOut [] doc.bracketSites).1 = (sortOut [] before).1 ++
      (sortOut (sortOut [] before).2 after).1 := by
    rw [hsites, sortOut_append]
  have hsettle := settle_sortOut (fun t => decide (t.mark.isOpening ∨
    t ∉ (bracketFindings doc).map Prod.fst)) [] before hbefore ?_ ?_
  · have hopen : ((sortOut [] before).2.filter fun b => decide (b.site.mark.isOpening ∨
        b.site ∉ (bracketFindings doc).map Prod.fst)) = (sortOut [] before).2 := by
      apply List.filter_eq_self.mpr
      intro b _
      exact decide_eq_true (.inl rfl)
    rw [hopen] at hsettle
    rw [← settle_eq_nil_iff]
    constructor
    · intro h
      rw [h] at hsettle
      exact hsettle
    · intro h
      simpa using hsettle.symm.trans h
  · intro x hx
    have hclosing := (of_mem_sortOut hx).2.1
    have hreported : x.1 ∈ (bracketFindings doc).map Prod.fst := by
      refine List.mem_map_of_mem ((mem_bracketFindings_iff hclosing).mpr ?_)
      rw [hrun]
      exact List.mem_append_left _ hx
    simp [BracketMark.isOpening_of_isClosing hclosing, hreported]
  · intro t ht hkept
    have ht : t ∈ before := ht
    refine decide_eq_true (Classical.or_iff_not_imp_left.mpr fun hmark hreported => ?_)
    obtain ⟨⟨t, f⟩, hf, rfl⟩ := List.mem_map.mp hreported
    have hclosing : t.mark.isClosing = true := by
      cases hm : t.mark with
      | opening kind => simp [hm] at hmark
      | closing kind => rfl
    rw [mem_bracketFindings_iff hclosing, hrun] at hf
    cases List.mem_append.mp hf with
    | inl hf => exact hkept (List.mem_append_left _ (List.mem_map_of_mem hf))
    | inr hf => exact happart t ht t (of_mem_sortOut hf).1 rfl

/-! ### Counting -/

theorem countP_brackets (doc : Document) (p : Code → Bool) :
    (brackets doc).countP (fun d => p d.code) =
      (sortOut [] doc.bracketSites).1.countP (fun x => p x.2.code) +
        (sortOut [] doc.bracketSites).2.countP (fun _ => p .unclosedBracket) := by
  rw [brackets_eq, bracketFindings, List.countP_map, List.countP_append, List.countP_map,
    List.countP_reverse]
  rfl

theorem countP_unclosed (doc : Document) :
    (brackets doc).countP (fun d => d.code = .unclosedBracket) =
      (sortOut [] doc.bracketSites).2.length := by
  have hstray : (sortOut [] doc.bracketSites).1.countP
      (fun x => x.2.code = .unclosedBracket) = 0 := by
    rw [List.countP_eq_zero]
    intro x hx h
    obtain ⟨-, hclosing, hfault⟩ := of_mem_sortOut hx
    have hcode := hfault.code_mem hclosing
    rw [of_decide_eq_true h] at hcode
    simp at hcode
  rw [countP_brackets doc (fun code => code = .unclosedBracket), hstray, Nat.zero_add,
    List.countP_eq_length]
  intro b _
  rfl

theorem countP_stray (doc : Document) :
    (brackets doc).countP (fun d => d.code ∈ [.unmatchedBracket, .mismatchedBracket]) =
      (sortOut [] doc.bracketSites).1.length := by
  have hopen : (sortOut [] doc.bracketSites).2.countP
      (fun _ => Code.unclosedBracket ∈ [.unmatchedBracket, .mismatchedBracket]) = 0 := by
    rw [List.countP_eq_zero]
    intro b _
    decide
  rw [countP_brackets doc (fun code => code ∈ [.unmatchedBracket, .mismatchedBracket]), hopen,
    Nat.add_zero, List.countP_eq_length]
  intro x hx
  obtain ⟨-, hclosing, hfault⟩ := of_mem_sortOut hx
  exact decide_eq_true (hfault.code_mem hclosing)

end Check

/-- What is reported about brackets is found at brackets of the bare text, closing ones out
of place and opening ones that stay open, at each of them once. Strike them out: what is
left is well nested. A closing bracket is reported as unmatched exactly if no bracket
before it is still open, that is, if those before it are well nested without the closing
ones that are reported. And as many opening brackets are closed as closing ones close one.
If the document fits, the range of a report tells its bracket. -/
theorem brackets_recover (text : String) :
    let doc := Document.ofText text.toList
    let sites := doc.bracketSites
    let reports := Check.brackets doc
    sites.map BracketSite.mark = bracketMarks doc.bareText ∧
      (∃ found : List (BracketSite × Finding),
        reports = found.map (Check.reportAt doc) ∧
        (∀ x ∈ found, x.1 ∈ sites ∧ x.1.mark.Fault x.2) ∧
        (found.map Prod.fst).Nodup ∧
        WellNested ((sites.filter fun s => s ∉ found.map Prod.fst).map BracketSite.mark) ∧
        ∀ before s after, sites = before ++ s :: after → s.mark.isClosing = true →
          ((∃ f, (s, f) ∈ found ∧ f.code = .unmatchedBracket) ↔
            WellNested ((before.filter fun t => t.mark.isOpening ∨
              t ∉ found.map Prod.fst).map BracketSite.mark))) ∧
      ((bracketMarks doc.bareText).countP BracketMark.isOpening : Int) -
          reports.countP (fun d => d.code = .unclosedBracket) =
        (bracketMarks doc.bareText).countP BracketMark.isClosing -
          reports.countP (fun d => d.code ∈ [.unmatchedBracket, .mismatchedBracket]) ∧
      (doc.Fits → ∀ s ∈ sites, ∀ t ∈ sites, s.range doc = t.range doc → s = t) := by
  intro doc sites reports
  refine ⟨doc.map_mark_bracketSites, ⟨Check.bracketFindings doc, Check.brackets_eq doc,
    fun _ => Check.of_mem_bracketFindings, Check.nodup_bracketFindings doc,
    Check.wellNested_unreported doc, ?_⟩, ?_, Document.Fits.range_inj⟩
  · intro before s after hsites hclosing
    rw [Check.unmatched_iff hsites hclosing, Check.nothing_open_iff hsites]
  · have hlength := Check.length_sortOut [] doc.bracketSites
    rw [Check.countP_unclosed, Check.countP_stray, ← doc.map_mark_bracketSites, List.countP_map,
      List.countP_map]
    simp only [List.length_nil, Function.comp_def] at hlength ⊢
    omega

end TradeScript
