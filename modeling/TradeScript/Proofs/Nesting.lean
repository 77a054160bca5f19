import TradeScript.Check.Length
import TradeScript.Proofs.Place
import TradeScript.Proofs.Recovery
import TradeScript.Proofs.Word

/-!
# TradeScript.Proofs.Nesting

How deep a brace lies. The nesting check counts braces and never falls below zero, so its
depth is not the difference of the numbers of braces. It is the greatest such difference
over all stretches that end at the brace (`isPeak_depthAfter`): a stretch may leave
out whatever comes before it, and what the check forgets at zero is what it leaves out.

The bracket matcher keeps the open brackets themselves. As long as no closing bracket is
out of place, the depth is the number of braces among them (`count_settle`), also where
brackets are never closed.
-/

namespace TradeScript

open Text (byteLength)

namespace Check

/-! ### The depth after a text -/

/-- The depth after one more character. -/
def depthStep (depth : Nat) (c : Char) : Nat :=
  if c = '{' then depth + 1 else if c = '}' then depth - 1 else depth

/-- The depth after a text. -/
def depthAfter (depth : Nat) (cs : List Char) : Nat :=
  cs.foldl depthStep depth

@[simp] theorem depthAfter_nil (depth : Nat) : depthAfter depth [] = depth := rfl

@[simp] theorem depthAfter_cons (depth : Nat) (c : Char) (cs : List Char) :
    depthAfter depth (c :: cs) = depthAfter (depthStep depth c) cs := rfl

theorem depthAfter_append (depth : Nat) (front back : List Char) :
    depthAfter depth (front ++ back) = depthAfter (depthAfter depth front) back :=
  List.foldl_append

theorem deepBraces_snd (depth : Nat) (chars : List (Nat × Char)) :
    (deepBraces depth chars).2 = depthAfter depth (chars.map Prod.snd) := by
  induction chars generalizing depth with
  | nil => rfl
  | cons head rest ih =>
      obtain ⟨column, c⟩ := head
      simp only [deepBraces, List.map_cons, depthAfter_cons, depthStep]
      split
      · exact ih _
      · split
        · exact ih _
        · exact ih _

/-! ### Braces by what stands before them -/

/-- The opening braces of a text, each given by what stands before it. -/
def braceFronts : List Char → List (List Char)
  | [] => []
  | c :: cs => (if c = '{' then [[]] else []) ++ (braceFronts cs).map (c :: ·)

theorem mem_braceFronts_iff {front cs : List Char} :
    front ∈ braceFronts cs ↔ ∃ behind, cs = front ++ '{' :: behind := by
  induction cs generalizing front with
  | nil => simp [braceFronts]
  | cons c cs ih =>
      rw [braceFronts, List.mem_append, List.mem_map]
      cases front with
      | nil =>
          by_cases hc : c = '{'
          · simp [hc]
          · simp [hc]
      | cons first front =>
          have hhere : first :: front ∉ (if c = '{' then [[]] else []) := by
            split <;> simp
          rw [or_iff_right hhere]
          constructor
          · intro h
            obtain ⟨_, hfront, heq⟩ := h
            obtain ⟨rfl, rfl⟩ := List.cons.inj heq
            obtain ⟨behind, rfl⟩ := ih.mp hfront
            exact ⟨behind, rfl⟩
          · intro h
            obtain ⟨behind, hsplit⟩ := h
            obtain ⟨rfl, hrest⟩ := List.cons.inj hsplit
            exact ⟨front, ih.mpr ⟨behind, hrest⟩, rfl⟩

theorem braceFronts_append (front back : List Char) :
    braceFronts (front ++ back) = braceFronts front ++ (braceFronts back).map (front ++ ·) := by
  induction front with
  | nil => simp [braceFronts]
  | cons c front ih =>
      rw [List.cons_append, braceFronts, braceFronts, ih, List.map_append, List.map_map,
        List.append_assoc]
      rfl

theorem braceFronts_pairwise (cs : List Char) :
    (braceFronts cs).Pairwise fun a b => byteLength a < byteLength b := by
  induction cs with
  | nil => exact .nil
  | cons c cs ih =>
      have hlater : ((braceFronts cs).map (c :: ·)).Pairwise fun a b =>
          byteLength a < byteLength b := by
        refine List.pairwise_map.mpr (ih.imp ?_)
        intro a b hlt
        rw [Text.byteLength_cons, Text.byteLength_cons]
        omega
      refine List.pairwise_append.mpr ⟨by split <;> simp, hlater, ?_⟩
      intro a ha b hb
      obtain ⟨front, -, rfl⟩ := List.mem_map.mp hb
      have hempty : a = [] := by
        split at ha
        · exact List.mem_singleton.mp ha
        · exact absurd ha List.not_mem_nil
      rw [hempty, Text.byteLength_cons]
      exact Nat.add_pos_left (Char.utf8Size_pos c) _

/-- The braces that lie too deep, in a text that starts at a depth. -/
def deepFronts (depth : Nat) (cs : List Char) : List (List Char) :=
  (braceFronts cs).filter fun front => maxNesting < depthAfter depth front + 1

theorem deepFronts_append (depth : Nat) (front back : List Char) :
    deepFronts depth (front ++ back) =
      deepFronts depth front ++
        (deepFronts (depthAfter depth front) back).map (front ++ ·) := by
  simp only [deepFronts, braceFronts_append, List.filter_append, List.filter_map,
    Function.comp_def, depthAfter_append]

theorem deepFronts_newline (depth : Nat) (cs : List Char) :
    deepFronts depth ('\n' :: cs) = (deepFronts depth cs).map ('\n' :: ·) :=
  deepFronts_append depth ['\n'] cs

/-- The braces of a line that are found, by what stands before them. -/
theorem deepBraces_fst (depth offset : Nat) (cs : List Char) :
    (deepBraces depth (Text.withOffsets offset cs)).1 =
      (deepFronts depth cs).map fun front =>
        (offset + byteLength front, depthAfter depth front + 1) := by
  induction cs generalizing depth offset with
  | nil => rfl
  | cons c cs ih =>
      have hlater : (deepFronts depth (c :: cs)).map (fun front =>
            (offset + byteLength front, depthAfter depth front + 1)) =
          (deepFronts depth [c]).map (fun front =>
            (offset + byteLength front, depthAfter depth front + 1)) ++
          (deepBraces (depthStep depth c) (Text.withOffsets (offset + c.utf8Size) cs)).1 := by
        rw [← List.singleton_append, deepFronts_append, List.map_append, ih, List.map_map]
        simp only [Function.comp_def, List.singleton_append, Text.byteLength_cons, depthAfter_cons,
          depthAfter_nil, Nat.add_assoc]
      rw [hlater, Text.withOffsets, deepBraces, depthStep]
      by_cases hopen : c = '{'
      · by_cases hdeep : maxNesting ≤ depth <;>
          simp [hopen, hdeep, deepFronts, braceFronts, Nat.lt_succ_iff]
      · by_cases hclose : c = '}'
        · simp [hclose, deepFronts, braceFronts]
        · simp [hopen, hclose, deepFronts, braceFronts]

/-! ### The depth in a document -/

/-- The depth with which the nesting check comes to the line after the given ones. -/
def depthOfLines (depth : Nat) (lines : List (Line × Nat)) : Nat :=
  lines.foldl (fun depth line => (deepBraces depth (Text.withOffsets 0 line.1.bare)).2) depth

/-- The depth that the nesting check has right after `front` on the line after the given
ones. -/
def depthAt (above : List (Line × Nat)) (front : List Char) : Nat :=
  (deepBraces (depthOfLines 0 above) (Text.withOffsets 0 front)).2

theorem depthOfLines_cons (depth : Nat) (line : Line × Nat) (lines : List (Line × Nat)) :
    depthOfLines depth (line :: lines) = depthOfLines (depthAfter depth line.1.bare) lines := by
  rw [depthOfLines, List.foldl_cons, deepBraces_snd, map_snd_withOffsets]
  rfl

theorem depthOfLines_concat (depth : Nat) (lines : List (Line × Nat)) (line : Line × Nat) :
    depthOfLines depth (lines ++ [line]) = depthAfter (depthOfLines depth lines) line.1.bare := by
  rw [depthOfLines, List.foldl_append, List.foldl_cons, List.foldl_nil, deepBraces_snd,
    map_snd_withOffsets, depthOfLines]

/-- Newlines are no braces, so lines joined are as deep as lines one after the other. -/
theorem depthAfter_textBefore (depth : Nat) (above : List (Line × Nat)) (front : List Char) :
    depthAfter depth (Document.textBefore above front) =
      depthAfter (depthOfLines depth above) front := by
  induction above generalizing depth with
  | nil => rfl
  | cons line above ih =>
      have hbefore : Document.textBefore (line :: above) front =
          line.1.bare ++ '\n' :: Document.textBefore above front :=
        Text.joinWith_cons_of_ne_nil '\n' line.1.bare (by simp)
      have hnewline : ∀ depth, depthStep depth '\n' = depth := fun _ => rfl
      rw [hbefore, depthAfter_append, depthAfter_cons, hnewline, ih, depthOfLines_cons]

theorem depthAt_eq (above : List (Line × Nat)) (front : List Char) :
    depthAt above front = depthAfter 0 (Document.textBefore above front) := by
  rw [depthAt, deepBraces_snd, map_snd_withOffsets, depthAfter_textBefore]

theorem depthAt_brace (above : List (Line × Nat)) (front : List Char) :
    depthAt above (front ++ ['{']) = depthAfter 0 (Document.textBefore above front) + 1 := by
  rw [depthAt, deepBraces_snd, map_snd_withOffsets, depthAfter_append, depthAfter_textBefore]
  rfl

/-! ### The depth as a maximum -/

theorem braceBalance_eq_count (cs : List Char) :
    braceBalance cs = (cs.count '{' : Int) - cs.count '}' := by
  induction cs with
  | nil => rfl
  | cons c cs ih =>
      simp only [braceBalance, ih, List.count_cons]
      by_cases hopen : c = '{'
      · simp [hopen]
        omega
      · by_cases hclose : c = '}'
        · simp [hclose]
          omega
        · simp [hopen, hclose]

theorem braceBalance_append (front back : List Char) :
    braceBalance (front ++ back) = braceBalance front + braceBalance back := by
  simp only [braceBalance_eq_count, List.count_append]
  omega

/-- The level is the greatest number of opening braces less closing ones, over all
stretches that end where the text ends. -/
structure IsPeak (cs : List Char) (level : Nat) : Prop where
  reached : ∃ stretch, stretch ≠ [] ∧ stretch <:+ cs ∧
    (stretch.count '{' : Int) - stretch.count '}' = level
  le : ∀ stretch, stretch ≠ [] → stretch <:+ cs →
    (stretch.count '{' : Int) - stretch.count '}' ≤ level

theorem IsPeak.unique {cs : List Char} {level level' : Nat} (h : IsPeak cs level)
    (h' : IsPeak cs level') : level = level' := by
  obtain ⟨stretch, hne, hsuffix, hlevel⟩ := h.reached
  obtain ⟨stretch', hne', hsuffix', hlevel'⟩ := h'.reached
  have hle := h'.le stretch hne hsuffix
  have hle' := h.le stretch' hne' hsuffix'
  omega

/-- One character: the depth moves with the balance, or stays at zero. -/
theorem depthStep_cases (depth : Nat) (c : Char) (cs : List Char) :
    (depthStep depth c + braceBalance cs = depth + braceBalance (c :: cs) ∨
      depth = 0 ∧ depthStep depth c = 0 ∧ braceBalance (c :: cs) = braceBalance cs - 1) ∧
      braceBalance (c :: cs) ≤ depthStep depth c + braceBalance cs := by
  simp only [depthStep, braceBalance]
  split
  · omega
  · split
    · omega
    · omega

/-- Every stretch at the end has at most the depth as its balance, and so has the whole
text on top of the depth before it. -/
theorem braceBalance_le_depthAfter (depth : Nat) (cs : List Char) :
    depth + braceBalance cs ≤ depthAfter depth cs ∧
      ∀ stretch, stretch <:+ cs → braceBalance stretch ≤ depthAfter depth cs := by
  induction cs generalizing depth with
  | nil => simp [braceBalance]
  | cons c cs ih =>
      obtain ⟨hwhole, hstretch⟩ := ih (depthStep depth c)
      obtain ⟨hmoves, hle⟩ := depthStep_cases depth c cs
      rw [depthAfter_cons]
      constructor
      · omega
      · intro stretch hsuffix
        cases List.suffix_cons_iff.mp hsuffix with
        | inl h =>
            rw [h]
            omega
        | inr h => exact hstretch stretch h

/-- The depth is reached: by the whole text on top of the depth before it, or by a stretch
behind the last character at which the depth stayed at zero. -/
theorem depthAfter_reached (depth : Nat) (cs : List Char) :
    (depthAfter depth cs : Int) = depth + braceBalance cs ∨
      ∃ stretch, stretch <:+ cs ∧ braceBalance stretch = depthAfter depth cs := by
  induction cs generalizing depth with
  | nil => simp [braceBalance]
  | cons c cs ih =>
      rw [depthAfter_cons]
      cases ih (depthStep depth c) with
      | inl h =>
          cases (depthStep_cases depth c cs).1 with
          | inl hmoves => exact .inl (h.trans hmoves)
          | inr hstays => exact .inr ⟨cs, List.suffix_cons c cs, by omega⟩
      | inr h =>
          obtain ⟨stretch, hsuffix, hbalance⟩ := h
          exact .inr ⟨stretch, hsuffix.trans (List.suffix_cons c cs), hbalance⟩

/-- At an opening brace the depth is the greatest balance over all stretches that end with
it. -/
theorem isPeak_depthAfter (before : List Char) :
    IsPeak (before ++ ['{']) (depthAfter 0 before + 1) := by
  have hbrace : ∀ cs, braceBalance (cs ++ ['{']) = braceBalance cs + 1 := fun cs =>
    braceBalance_append cs ['{']
  constructor
  · obtain ⟨stretch, hsuffix, hbalance⟩ : ∃ stretch, stretch <:+ before ∧
        braceBalance stretch = depthAfter 0 before := by
      cases depthAfter_reached 0 before with
      | inl h => exact ⟨before, List.suffix_refl _, by omega⟩
      | inr h => exact h
    refine ⟨stretch ++ ['{'], by simp, ?_, ?_⟩
    · exact List.suffix_concat_iff.mpr (.inr ⟨stretch, rfl, hsuffix⟩)
    · rw [← braceBalance_eq_count, hbrace, hbalance]
      rfl
  · intro stretch hne hsuffix
    cases List.suffix_concat_iff.mp hsuffix with
    | inl h => exact absurd h hne
    | inr h =>
        obtain ⟨front, rfl, hfront⟩ := h
        have hle := (braceBalance_le_depthAfter 0 before).2 front hfront
        rw [← braceBalance_eq_count, hbrace]
        omega

end Check

/-! ### Reports on braces -/

namespace Document

variable {doc : Document}

/-- The range of a character by its line is its range in the bare text. -/
theorem WellFormed.spanAt_textBefore (wf : doc.WellFormed) {c : Char}
    {above : List (Line × Nat)} {number : Nat} {front : List Char}
    (h : doc.StandsAt c above number front) :
    doc.spanAt (byteLength (textBefore above front)) (byteLength (textBefore above front) + 1) =
      doc.span number (byteLength front) (byteLength front + 1) := by
  rw [spanAt_eq_span, wf.placeOf_textBefore h, Nat.add_sub_cancel_left]

end Document

namespace Check

variable {doc : Document}

/-- A brace of the bare text that lies too deep, as it is reported. -/
def reportDeep (doc : Document) (before : List Char) : Diagnostic :=
  (Finding.deepNesting (depthAfter 0 before + 1)).report
    (doc.spanAt (byteLength before) (byteLength before + 1))

/-- The braces of a line are reported at their places in the bare text. -/
theorem map_deepBraces_eq_map (wf : doc.WellFormed) {above rest : List (Line × Nat)} {line : Line}
    {number : Nat} (hlines : doc.numbered = above ++ (line, number) :: rest) :
    ((deepBraces (depthOfLines 0 above) (Text.withOffsets 0 line.bare)).1.map fun b =>
        (Finding.deepNesting b.2).report (doc.span number b.1 (b.1 + 1))) =
      (deepFronts (depthOfLines 0 above) line.bare).map fun front =>
        reportDeep doc (Document.textBefore above front) := by
  rw [deepBraces_fst, List.map_map]
  refine List.map_congr_left fun front hfront => ?_
  obtain ⟨behind, hbare⟩ := mem_braceFronts_iff.mp (List.mem_filter.mp hfront).1
  have hstands : doc.StandsAt '{' above number front := ⟨line, rest, behind, hlines, hbare⟩
  rw [reportDeep, wf.spanAt_textBefore hstands, depthAfter_textBefore]
  simp only [Function.comp_def, Nat.zero_add]

/-- Lines that come behind others are reported on by what stands before each brace in the
bare text. -/
theorem nestingFrom_eq_map (wf : doc.WellFormed) (above : List (Line × Nat))
    {rest : List (Line × Nat)} (hrest : rest ≠ []) (hlines : doc.numbered = above ++ rest) :
    nestingFrom doc (depthOfLines 0 above) rest =
      (deepFronts (depthOfLines 0 above) (Text.joinWith '\n' (rest.map (·.1.bare)))).map
        fun front => reportDeep doc (Document.textBefore above front) := by
  induction rest generalizing above with
  | nil => exact absurd rfl hrest
  | cons head rest ih =>
      obtain ⟨line, number⟩ := head
      rw [nestingFrom, map_deepBraces_eq_map wf hlines, deepBraces_snd, map_snd_withOffsets]
      by_cases hempty : rest = []
      · subst hempty
        rw [nestingFrom, List.append_nil]
        rfl
      · have hlater := ih (above ++ [(line, number)]) hempty (by simp [hlines])
        rw [depthOfLines_concat] at hlater
        rw [hlater, List.map_cons, Text.joinWith_cons_of_ne_nil '\n' _ (by simp [hempty]),
          deepFronts_append, deepFronts_newline, List.map_append, List.map_map, List.map_map]
        congr 1
        refine List.map_congr_left fun front _ => ?_
        rw [Document.textBefore_concat]
        rfl

/-- What is reported are the braces of the bare text that lie too deep, in order. -/
theorem nesting_eq_map (wf : doc.WellFormed) :
    nesting doc = (deepFronts 0 doc.bareText).map (reportDeep doc) := by
  have hlines : doc.numbered ≠ [] := by
    intro h
    apply wf.lines_ne_nil
    rw [doc.lines_eq_map_numbered, h, List.map_nil]
  rw [nesting, Document.bareText_eq]
  exact nestingFrom_eq_map wf [] hlines rfl

/-- What is reported, by the lines of the braces. -/
theorem mem_nesting_iff (wf : doc.WellFormed) (d : Diagnostic) :
    d ∈ nesting doc ↔
      ∃ above number front, doc.StandsAt '{' above number front ∧
        maxNesting < depthAt above (front ++ ['{']) ∧
        d = (Finding.deepNesting (depthAt above (front ++ ['{']))).report
          (doc.span number (byteLength front) (byteLength front + 1)) := by
  simp only [nesting_eq_map wf, List.mem_map, deepFronts, List.mem_filter, mem_braceFronts_iff,
    decide_eq_true_eq, depthAt_brace, reportDeep]
  constructor
  · intro h
    obtain ⟨before, ⟨⟨after, hbare⟩, hlt⟩, rfl⟩ := h
    obtain ⟨above, number, front, hstands, rfl⟩ := Document.exists_standsAt hbare (by decide)
    refine ⟨above, number, front, hstands, hlt, ?_⟩
    rw [wf.spanAt_textBefore hstands]
  · intro h
    obtain ⟨above, number, front, hstands, hlt, rfl⟩ := h
    refine ⟨_, ⟨hstands.bareText_eq, hlt⟩, ?_⟩
    rw [wf.spanAt_textBefore hstands]

end Check

/-- The braces of the bare text that are reported are those for which some stretch of the
text that ends with them has more than four opening braces more than closing ones, each of
them once and in the order of the text. The level in the message is the greatest such
difference. A brace is given by what stands before it. -/
theorem nesting_reports_peaks (text : String) :
    let doc := Document.ofText text.toList
    ∃ braces : List (List Char × Nat),
      Check.nesting doc = (braces.map fun brace =>
        (Finding.deepNesting brace.2).report
          (doc.spanAt (byteLength brace.1) (byteLength brace.1 + 1))) ∧
      braces.Pairwise (fun a b => byteLength a.1 < byteLength b.1) ∧
      ∀ before level, (before, level) ∈ braces ↔
        (∃ after, doc.bareText = before ++ '{' :: after) ∧
          Check.IsPeak (before ++ ['{']) level ∧ 4 < level := by
  intro doc
  have wf : doc.WellFormed := Document.ofText_wellFormed text.toList
  refine ⟨(Check.deepFronts 0 doc.bareText).map fun before =>
    (before, Check.depthAfter 0 before + 1), ?_, ?_, ?_⟩
  · rw [Check.nesting_eq_map wf, List.map_map]
    rfl
  · exact List.pairwise_map.mpr ((Check.braceFronts_pairwise doc.bareText).filter _)
  · intro before level
    simp only [List.mem_map, Check.deepFronts, List.mem_filter, Check.mem_braceFronts_iff,
      decide_eq_true_eq]
    constructor
    · intro h
      obtain ⟨_, ⟨hbrace, hlt⟩, heq⟩ := h
      obtain ⟨rfl, rfl⟩ := Prod.mk.inj heq
      exact ⟨hbrace, Check.isPeak_depthAfter _, hlt⟩
    · intro h
      obtain ⟨hbrace, hpeak, hlt⟩ := h
      obtain rfl := hpeak.unique (Check.isPeak_depthAfter before)
      exact ⟨before, ⟨hbrace, hlt⟩, rfl⟩

/-! ### The depth and the open brackets -/

namespace Check

variable {doc : Document} {above : List (Line × Nat)} {number : Nat} {front : List Char}

/-- The brackets that the matcher has open right after `front` on the line after the given
ones. -/
def openAt (doc : Document) (above : List (Line × Nat)) (number : Nat) (front : List Char) :
    List OpenBracket :=
  (matchBrackets number (bracketsOfLines doc [] above).2 (Text.withOffsets 0 front)).2

/-- A brace goes on top of what is open before it. -/
theorem openAt_brace (doc : Document) (above : List (Line × Nat)) (number : Nat)
    (front : List Char) :
    openAt doc above number (front ++ ['{']) =
      ⟨.curly, number, byteLength front⟩ :: openAt doc above number front := by
  have hsites : sitesOfLine number (Text.withOffsets 0 (front ++ ['{'])) =
      sitesOfLine number (Text.withOffsets 0 front) ++
        [⟨number, byteLength front, .opening .curly⟩] := by
    rw [Text.withOffsets_append, sitesOfLine, List.filterMap_append, Nat.zero_add]
    rfl
  rw [openAt, openAt, (matchBrackets_eq_sortOut doc _ _ _).2, hsites, sortOut_append,
    (matchBrackets_eq_sortOut doc _ _ _).2]
  rfl

theorem depthStep_of_ofChar?_none {c : Char} (h : BracketMark.ofChar? c = none) (depth : Nat) :
    depthStep depth c = depth := by
  have hopen : c ≠ '{' := fun hc => by simp [hc, BracketMark.ofChar?] at h
  have hclose : c ≠ '}' := fun hc => by simp [hc, BracketMark.ofChar?] at h
  rw [depthStep, if_neg hopen, if_neg hclose]

/-- Only braces count, in the number of open braces as in the depth. -/
theorem depthStep_opener (kind : Bracket) (pending : List Bracket) :
    depthStep (pending.count .curly) kind.opener = (kind :: pending).count .curly := by
  cases kind <;> simp [depthStep, Bracket.opener]

theorem depthStep_closer (kind : Bracket) (pending : List Bracket) :
    depthStep ((kind :: pending).count .curly) kind.closer = pending.count .curly := by
  cases kind <;> simp [depthStep, Bracket.closer]

/-- As long as every closing bracket closes one of its kind, the depth is the number of
open braces. -/
theorem count_settle {pending stack : List Bracket} {cs : List Char}
    (h : settle pending (bracketMarks cs) = some stack) :
    depthAfter (pending.count .curly) cs = stack.count .curly := by
  induction cs generalizing pending with
  | nil =>
      obtain rfl := Option.some.inj h
      rfl
  | cons c cs ih =>
      rw [depthAfter_cons]
      cases hc : BracketMark.ofChar? c with
      | none =>
          rw [bracketMarks, List.filterMap_cons_none hc] at h
          rw [depthStep_of_ofChar?_none hc]
          exact ih h
      | some mark =>
          rw [bracketMarks, List.filterMap_cons_some hc] at h
          rw [← BracketMark.char_of_ofChar? hc]
          cases mark with
          | opening kind =>
              rw [settle] at h
              rw [BracketMark.char, depthStep_opener]
              exact ih h
          | closing kind =>
              cases pending with
              | nil => simp [settle] at h
              | cons top below =>
                  by_cases hkind : top = kind
                  · rw [settle, if_pos hkind] at h
                    rw [BracketMark.char, hkind, depthStep_closer]
                    exact ih h
                  · rw [settle, if_neg hkind] at h
                    simp at h

/-- Where the stack machine comes to, it has open what the matcher has. -/
theorem eq_openAt_of_settle {stack : List Bracket} (doc : Document) (number : Nat)
    (h : settle [] (bracketMarks (Document.textBefore above front)) = some stack) :
    stack = (openAt doc above number front).map OpenBracket.kind := by
  have hlines := settle_bracketsOfLines doc [] above
  have hfront := settle_matchBrackets number (bracketsOfLines doc [] above).2
    (Text.withOffsets 0 front)
  rw [map_snd_withOffsets] at hfront
  rw [Document.textBefore, bracketMarks_joinWith, List.flatMap_append, List.flatMap_map,
    List.flatMap_singleton, settle_append] at h
  rw [List.map_nil] at hlines
  rw [hlines] at h
  split at h
  · rw [Option.bind_some, hfront] at h
    split at h
    · exact (Option.some.inj h).symm
    · simp at h
  · simp at h

theorem bracketsOfLines_eq_nil
    (h : ∀ d ∈ brackets doc, d.code ≠ .unmatchedBracket ∧ d.code ≠ .mismatchedBracket) :
    (bracketsOfLines doc [] doc.numbered).1.flatten = [] := by
  rw [(bracketsOfLines_eq_sortOut doc [] doc.numbered).1, List.map_eq_nil_iff,
    List.eq_nil_iff_forall_not_mem]
  intro x hx
  have hreport : reportAt doc x ∈ brackets doc := by
    rw [brackets_eq]
    exact List.mem_map_of_mem (List.mem_append_left _ hx)
  obtain ⟨hunmatched, hmismatched⟩ := h _ hreport
  obtain ⟨-, hclosing, hfault⟩ := of_mem_sortOut hx
  have hcode := hfault.code_mem hclosing
  simp only [List.mem_cons, List.not_mem_nil, or_false] at hcode
  exact hcode.elim hunmatched hmismatched

/-- A document without closing brackets out of place: at every brace the depth is the
number of open braces. -/
theorem depthAt_eq_countP (hlines : (bracketsOfLines doc [] doc.numbered).1.flatten = [])
    (hstands : doc.StandsAt '{' above number front) :
    depthAt above (front ++ ['{']) =
      (openAt doc above number (front ++ ['{'])).countP (·.kind = .curly) := by
  obtain ⟨after, hbare⟩ := hstands.bareText_eq
  have hsettle := settle_bracketsOfLines doc [] doc.numbered
  rw [if_pos hlines, ← doc.bracketMarks_bareText, hbare, List.append_cons,
    ← Document.textBefore_append, bracketMarks, List.filterMap_append, List.map_nil,
    settle_append] at hsettle
  obtain ⟨stack, hstack, -⟩ := Option.bind_eq_some_iff.mp hsettle
  have hopen := eq_openAt_of_settle doc number hstack
  rw [depthAt_eq, show (0 : Nat) = ([] : List Bracket).count .curly from rfl, count_settle hstack,
    hopen, List.count, List.countP_map]
  rfl

end Check

/-- In a text without unmatched and mismatched brackets, the depth of a brace is the number
of braces that are open right after it was opened, itself included. What is reported are
the braces for which this number is greater than four, with the number as the level. -/
theorem nesting_counts_open_braces (text : String)
    (h : ∀ d ∈ Check.brackets (Document.ofText text.toList),
      d.code ≠ .unmatchedBracket ∧ d.code ≠ .mismatchedBracket) :
    let doc := Document.ofText text.toList
    (∀ above number front, doc.StandsAt '{' above number front →
        Check.openAt doc above number (front ++ ['{']) =
          ⟨.curly, number, byteLength front⟩ :: Check.openAt doc above number front ∧
        Check.depthAt above (front ++ ['{']) =
          (Check.openAt doc above number (front ++ ['{'])).countP (·.kind = .curly)) ∧
      ∀ d, d ∈ Check.nesting doc ↔
        ∃ above number front level, doc.StandsAt '{' above number front ∧
          level = (Check.openAt doc above number (front ++ ['{'])).countP (·.kind = .curly) ∧
          4 < level ∧
          d = (Finding.deepNesting level).report
            (doc.span number (byteLength front) (byteLength front + 1)) := by
  intro doc
  have hlines := Check.bracketsOfLines_eq_nil h
  constructor
  · intro above number front hstands
    exact ⟨Check.openAt_brace doc above number front, Check.depthAt_eq_countP hlines hstands⟩
  · intro d
    rw [Check.mem_nesting_iff (Document.ofText_wellFormed _)]
    constructor
    · intro hd
      obtain ⟨above, number, front, hstands, hlt, rfl⟩ := hd
      exact ⟨above, number, front, _, hstands, Check.depthAt_eq_countP hlines hstands, hlt, rfl⟩
    · intro hd
      obtain ⟨above, number, front, level, hstands, rfl, hlt, rfl⟩ := hd
      rw [← Check.depthAt_eq_countP hlines hstands] at hlt ⊢
      exact ⟨above, number, front, hstands, hlt, rfl⟩

/-- A text with brackets that are never closed: the fifth open brace is reported. -/
theorem nesting_counts_unclosed_braces :
    let doc := Document.ofText "\x7b(\n\x7b\x7b[\x7b\x7b".toList
    (∀ d ∈ Check.brackets doc, d.code ≠ .unmatchedBracket ∧ d.code ≠ .mismatchedBracket) ∧
      doc.StandsAt '{' (doc.numbered.take 1) 1 ['{', '{', '[', '{'] ∧
      (Finding.deepNesting 5).report (doc.span 1 4 5) ∈ Check.nesting doc := by
  intro doc
  have h : ∀ d ∈ Check.brackets doc,
      d.code ≠ .unmatchedBracket ∧ d.code ≠ .mismatchedBracket := by
    decide +kernel
  have hstands : doc.StandsAt '{' (doc.numbered.take 1) 1 ['{', '{', '[', '{'] :=
    ⟨⟨"\x7b\x7b[\x7b\x7b".toList, "\x7b\x7b[\x7b\x7b".toList, "\x7b\x7b[\x7b\x7b".toList⟩, [], [],
      by decide +kernel, by decide +kernel⟩
  refine ⟨h, hstands, ?_⟩
  apply ((nesting_counts_open_braces _ h).2 _).mpr
  exact ⟨_, _, _, 5, hstands, by decide +kernel, by decide, rfl⟩

end TradeScript
