import TradeScript.Proofs.LineEnding
import TradeScript.Proofs.Location

/-!
# TradeScript.Proofs.Region

Comments do not know about lines. The code views of a text are made line by line,
with a flag for a block comment that is still open; here they are shown to be what
one scan over the whole text gives, with newlines in it (`Region.scan`).

The scan is an automaton with three states. Only at a newline do its states and the
flag have to agree (`Region.scan_append`): inside a line the scan may be in a line
comment, which the flag does not tell apart from code, but a line comment and code
go on alike at the end of a line.
-/

namespace TradeScript

/-- Where a scan over a text stands. -/
inductive Region where
  | code
  /-- Behind `//`, up to the next newline. -/
  | lineComment
  /-- Behind `/*`, up to the next `*/`. -/
  | blockComment
  deriving Repr, DecidableEq

namespace Region

/-- Blank the comments of a text, starting in a region. The two characters of a marker
are taken together, and newlines stay. -/
def scan : Region → List Char → List Char
  | _, [] => []
  | code, '/' :: '/' :: rest => ' ' :: ' ' :: scan lineComment rest
  | code, '/' :: '*' :: rest => ' ' :: ' ' :: scan blockComment rest
  | code, c :: rest => c :: scan code rest
  | lineComment, '\n' :: rest => '\n' :: scan code rest
  | lineComment, c :: rest => blankOut c ++ scan lineComment rest
  | blockComment, '*' :: '/' :: rest => ' ' :: ' ' :: scan code rest
  | blockComment, '\n' :: rest => '\n' :: scan blockComment rest
  | blockComment, c :: rest => blankOut c ++ scan blockComment rest

/-- The region at the start of a line, by the flag. -/
def ofFlag : Bool → Region
  | true => blockComment
  | false => code

/-! ### One line -/

/-- The rest of a text, from the end of a line on. -/
inductive AtLineEnd : List Char → Prop where
  | done : AtLineEnd []
  | newline (rest : List Char) : AtLineEnd ('\n' :: rest)

variable {line after : List Char}

/-- A line comment goes on to the end of its line, and there it is as good as code. -/
theorem scan_lineComment (hline : '\n' ∉ line) (hafter : AtLineEnd after) :
    lineComment.scan (line ++ after) = blankAll line ++ code.scan after := by
  induction line with
  | nil =>
      cases hafter with
      | done => rfl
      | newline rest => simp [scan, blankAll]
  | cons c cs ih =>
      obtain ⟨hc, hcs⟩ : '\n' ≠ c ∧ '\n' ∉ cs := by simpa using hline
      have hstep : lineComment.scan (c :: (cs ++ after)) =
          blankOut c ++ lineComment.scan (cs ++ after) := by
        rw [scan]
        exact hc.symm
      simp only [List.cons_append, hstep, ih hcs, blankAll, List.flatMap_cons, List.append_assoc]

/-- No marker stands across the end of a line: a character that starts none on the line
starts none in the text either. -/
theorem no_marker_across {c first second : Char} (hafter : AtLineEnd after)
    (hsecond : second ≠ '\n') (h : ∀ more, c = first → line = second :: more → False) :
    ∀ more, c = first → line ++ after = second :: more → False := by
  intro more hc heq
  cases line with
  | nil =>
      cases hafter with
      | done => simp at heq
      | newline rest => exact hsecond (List.cons.inj heq).1.symm
  | cons d ds =>
      obtain ⟨rfl, -⟩ := List.cons.inj heq
      exact h ds hc rfl

/-- A scan of a line gives its code view, and goes on behind it as the flag says. -/
theorem scan_append (inBlock : Bool) (hline : '\n' ∉ line) (hafter : AtLineEnd after) :
    (ofFlag inBlock).scan (line ++ after) =
      (codeView inBlock line).1 ++ (ofFlag (codeView inBlock line).2).scan after := by
  fun_induction codeView inBlock line with
  | case1 => rfl
  | case2 rest r ih =>
      have hrest : '\n' ∉ rest := by simpa using hline
      simp only [ofFlag, List.cons_append, scan]
      exact congrArg (' ' :: ' ' :: ·) (ih hrest)
  | case3 c rest hmarker r ih =>
      obtain ⟨hc, hrest⟩ : '\n' ≠ c ∧ '\n' ∉ rest := by simpa using hline
      have hstep : blockComment.scan (c :: (rest ++ after)) =
          blankOut c ++ blockComment.scan (rest ++ after) := by
        rw [scan]
        · exact no_marker_across hafter (by decide) hmarker
        · exact hc.symm
      show blockComment.scan (c :: (rest ++ after)) = _
      rw [hstep, List.append_assoc]
      exact congrArg (blankOut c ++ ·) (ih hrest)
  | case4 rest =>
      -- The flag is that of code, whatever the scan is in behind the marker.
      have hrest : '\n' ∉ rest := by simpa using hline
      simp only [ofFlag, List.cons_append, scan, scan_lineComment hrest hafter]
  | case5 rest r ih =>
      have hrest : '\n' ∉ rest := by simpa using hline
      simp only [ofFlag, List.cons_append, scan]
      exact congrArg (' ' :: ' ' :: ·) (ih hrest)
  | case6 c rest hline₂ hblock r ih =>
      have hrest : '\n' ∉ rest := by
        intro h
        exact hline (List.mem_cons_of_mem c h)
      have hstep : code.scan (c :: (rest ++ after)) = c :: code.scan (rest ++ after) := by
        rw [scan]
        · exact no_marker_across hafter (by decide) hline₂
        · exact no_marker_across hafter (by decide) hblock
      show code.scan (c :: (rest ++ after)) = _
      rw [hstep]
      exact congrArg (c :: ·) (ih hrest)

/-! ### All lines -/

/-- A scan of lines with newlines between them gives their code views, with newlines
between them. -/
theorem scan_joinWith (inBlock : Bool) {lines : List (List Char)}
    (hlines : ∀ line ∈ lines, '\n' ∉ line) :
    (ofFlag inBlock).scan (Text.joinWith '\n' lines) =
      Text.joinWith '\n' ((codeViews inBlock lines).map Prod.fst) := by
  induction lines generalizing inBlock with
  | nil => cases inBlock <;> rfl
  | cons line rest ih =>
      have hline := hlines line List.mem_cons_self
      cases rest with
      | nil =>
          have hscan := scan_append inBlock hline .done
          simpa [Text.joinWith, codeViews, scan] using hscan
      | cons next rest =>
          have hrest : ∀ line ∈ next :: rest, '\n' ∉ line :=
            fun l hl => hlines l (List.mem_cons_of_mem _ hl)
          -- Both code and a block comment go on behind a newline as they are.
          have hnewline : ∀ (flag : Bool) (cs : List Char),
              (ofFlag flag).scan ('\n' :: cs) = '\n' :: (ofFlag flag).scan cs := by
            intro flag cs
            cases flag <;> simp [ofFlag, scan]
          rw [Text.joinWith, scan_append inBlock hline (.newline _), hnewline, ih _ hrest]
          rfl

end Region

/-! ### The code views of a text -/

section

variable {lines : List (List Char)}

theorem newline_not_mem_codeViews {inBlock : Bool} (hlines : ∀ line ∈ lines, '\n' ∉ line) :
    ∀ view ∈ (codeViews inBlock lines).map Prod.fst, '\n' ∉ view := by
  induction lines generalizing inBlock with
  | nil => simp [codeViews]
  | cons line rest ih =>
      intro view hview hmem
      rw [codeViews, List.map_cons] at hview
      cases hview with
      | head =>
          cases (codeView_blanking inBlock line).eq_space_or_mem hmem with
          | inl h => exact absurd h (by decide)
          | inr h => exact hlines line List.mem_cons_self h
      | tail _ hview =>
          exact ih (fun l hl => hlines l (List.mem_cons_of_mem _ hl)) view hview hmem

/-- The code views of lines are the lines of one scan over all of them. -/
theorem map_codeViews_eq_splitAt_scan (inBlock : Bool) (hne : lines ≠ [])
    (hlines : ∀ line ∈ lines, '\n' ∉ line) :
    (codeViews inBlock lines).map Prod.fst =
      Text.splitAt '\n' ((Region.ofFlag inBlock).scan (Text.joinWith '\n' lines)) := by
  rw [Region.scan_joinWith inBlock hlines, Text.splitAt_joinWith]
  · cases lines with
    | nil => exact absurd rfl hne
    | cons line rest => simp [codeViews]
  · exact newline_not_mem_codeViews hlines

theorem map_code_zipWith_codeViews (inBlock : Bool) (raws : List (List Char)) :
    (raws.zipWith (fun raw view => Line.ofCode raw view.1) (codeViews inBlock raws)).map Line.code =
      (codeViews inBlock raws).map Prod.fst := by
  induction raws generalizing inBlock with
  | nil => rfl
  | cons raw raws ih =>
      simp only [codeViews, List.zipWith_cons_cons, List.map_cons, ih]
      rfl

end

/-- Going through a text line by line, with a flag for an open block comment, gives the
code views that one scan over the whole text gives. It does so for the lines as the text
is cut at newlines, and for those of the document, which have lost a carriage return at
their ends. -/
theorem code_views_eq_one_scan (text : List Char) :
    (codeViews false (Text.splitAt '\n' text)).map Prod.fst =
        Text.splitAt '\n' (Region.code.scan text) ∧
      (Document.ofText text).lines.map Line.code =
        Text.splitAt '\n' (Region.code.scan (Text.joinWith '\n' (rawLines text))) := by
  constructor
  · have hviews := map_codeViews_eq_splitAt_scan false (Text.splitAt_ne_nil '\n' text)
      fun _ => Text.not_mem_of_mem_splitAt
    rwa [Text.joinWith_splitAt] at hviews
  · have hne : rawLines text ≠ [] := by simp [rawLines, Text.splitAt_ne_nil]
    have hraws : ∀ raw ∈ rawLines text, '\n' ∉ raw := by
      intro raw hraw hmem
      obtain ⟨piece, hpiece, rfl⟩ := List.mem_map.mp hraw
      obtain ⟨rest, hrest⟩ := exists_dropReturn_append piece
      exact Text.not_mem_of_mem_splitAt hpiece (hrest ▸ List.mem_append_left rest hmem)
    rw [Document.ofText, map_code_zipWith_codeViews]
    exact map_codeViews_eq_splitAt_scan false hne hraws

/-- Markers that share characters, and markers that a newline keeps apart. -/
example :
    Region.code.scan "a/*/b*//c//*\nd/\n/e/*é\n*/f".toList =
      "a      /c   \nd/\n/e    \n  f".toList := by decide

end TradeScript
