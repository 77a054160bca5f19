import TradeScript.Proofs.Location
import TradeScript.Report

/-!
# TradeScript.Proofs.LineEnding

Lines may end in a newline or in a carriage return and a newline. A text without
carriage returns gives the same report either way.

A text is cut into lines twice, by the document and by the search for switching
comments, and each drops carriage returns in its own way: the one at the end of a
line, or all of them there. Written with carriage returns, the text has the same
lines, each but the last with one return behind it (`splitAt_withReturns`). Both
ways drop that one, and neither checks nor switching comments see the text itself.
-/

namespace TradeScript

/-- The text with a carriage return before every newline. -/
def withReturns (text : List Char) : List Char :=
  text.flatMap fun c => if c = '\n' then ['\r', '\n'] else [c]

/-- Lines of which each but the last has a carriage return at its end. -/
def returned : List (List Char) → List (List Char)
  | [] => []
  | [line] => [line]
  | line :: next :: rest => (line ++ ['\r']) :: returned (next :: rest)

/-! ### Cutting into lines -/

namespace Text

theorem splitAt_cons_self (sep : Char) (cs : List Char) :
    splitAt sep (sep :: cs) = [] :: splitAt sep cs := by
  rw [splitAt, if_pos rfl]

theorem splitAt_cons_of_ne {sep c : Char} {cs p : List Char} {ps : List (List Char)} (hc : c ≠ sep)
    (h : splitAt sep cs = p :: ps) : splitAt sep (c :: cs) = (c :: p) :: ps := by
  rw [splitAt, if_neg hc, h]

theorem exists_cons_of_splitAt (sep : Char) (cs : List Char) :
    ∃ p ps, splitAt sep cs = p :: ps :=
  List.exists_cons_of_ne_nil (splitAt_ne_nil sep cs)

/-- The pieces hold characters of the text only. -/
theorem mem_of_mem_splitAt {sep c : Char} {cs piece : List Char} (hpiece : piece ∈ splitAt sep cs)
    (hc : c ∈ piece) : c ∈ cs := by
  induction cs generalizing piece with
  | nil =>
      rw [splitAt, List.mem_singleton] at hpiece
      exact hpiece ▸ hc
  | cons d ds ih =>
      by_cases hd : d = sep
      · subst hd
        rw [splitAt_cons_self] at hpiece
        rcases List.mem_cons.mp hpiece with rfl | hpiece
        · exact absurd hc List.not_mem_nil
        · exact List.mem_cons_of_mem _ (ih hpiece hc)
      · obtain ⟨p, ps, hds⟩ := exists_cons_of_splitAt sep ds
        rw [splitAt_cons_of_ne hd hds] at hpiece
        rw [hds] at ih
        rcases List.mem_cons.mp hpiece with rfl | hpiece
        · rcases List.mem_cons.mp hc with rfl | hc
          · exact List.mem_cons_self
          · exact List.mem_cons_of_mem _ (ih List.mem_cons_self hc)
        · exact List.mem_cons_of_mem _ (ih (List.mem_cons_of_mem _ hpiece) hc)

/-- No piece holds the separator. -/
theorem not_mem_of_mem_splitAt {sep : Char} {cs piece : List Char} (h : piece ∈ splitAt sep cs) :
    sep ∉ piece := by
  induction cs generalizing piece with
  | nil =>
      simp only [splitAt, List.mem_singleton] at h
      simp [h]
  | cons c cs ih =>
      obtain ⟨p, ps, hcs⟩ := exists_cons_of_splitAt sep cs
      rw [hcs] at ih
      by_cases hc : c = sep
      · subst hc
        rw [splitAt_cons_self, hcs] at h
        cases h with
        | head => simp
        | tail _ h => exact ih h
      · rw [splitAt_cons_of_ne hc hcs] at h
        cases h with
        | head => simpa [Ne.symm hc] using ih List.mem_cons_self
        | tail _ h => exact ih (List.mem_cons_of_mem _ h)

/-- Pieces without the separator are found again when they are joined and cut. -/
theorem splitAt_joinWith {sep : Char} {pieces : List (List Char)} (hne : pieces ≠ [])
    (h : ∀ piece ∈ pieces, sep ∉ piece) : splitAt sep (joinWith sep pieces) = pieces := by
  induction pieces with
  | nil => exact absurd rfl hne
  | cons piece rest ih =>
      have hpiece := h piece List.mem_cons_self
      have hrest : ∀ p ∈ rest, sep ∉ p := fun p hp => h p (List.mem_cons_of_mem _ hp)
      clear h hne
      induction piece with
      | nil =>
          cases rest with
          | nil => rfl
          | cons next rest =>
              rw [joinWith, List.nil_append, splitAt_cons_self, ih (by simp) hrest]
      | cons c cs ihpiece =>
          obtain ⟨hc, hcs⟩ : sep ≠ c ∧ sep ∉ cs := by simpa using hpiece
          rw [joinWith_cons_cons]
          exact splitAt_cons_of_ne hc.symm (ihpiece hcs)

end Text

theorem returned_cons_cons (c : Char) (line : List Char) (rest : List (List Char)) :
    ∃ first more, returned (line :: rest) = first :: more ∧
      returned ((c :: line) :: rest) = (c :: first) :: more := by
  cases rest with
  | nil => exact ⟨line, [], rfl, rfl⟩
  | cons next rest => exact ⟨line ++ ['\r'], returned (next :: rest), rfl, rfl⟩

theorem splitAt_withReturns (text : List Char) :
    Text.splitAt '\n' (withReturns text) = returned (Text.splitAt '\n' text) := by
  induction text with
  | nil => rfl
  | cons c cs ih =>
      obtain ⟨line, rest, hcs⟩ := Text.exists_cons_of_splitAt '\n' cs
      rw [hcs] at ih
      by_cases hc : c = '\n'
      · subst hc
        have hsplit :
            Text.splitAt '\n' ('\n' :: withReturns cs) = [] :: returned (line :: rest) := by
          rw [Text.splitAt_cons_self, ih]
        rw [Text.splitAt_cons_self, hcs]
        exact Text.splitAt_cons_of_ne (by decide) hsplit
      · have hwith : withReturns (c :: cs) = c :: withReturns cs := by
          rw [withReturns, List.flatMap_cons, if_neg hc]
          rfl
        obtain ⟨first, more, hfirst, hcons⟩ := returned_cons_cons c line rest
        rw [hwith, Text.splitAt_cons_of_ne hc hcs, hcons]
        exact Text.splitAt_cons_of_ne hc (ih.trans hfirst)

/-- What does not see a carriage return at the end of a line is the same for both. -/
theorem map_returned {α : Type} {f : List Char → α} {lines : List (List Char)}
    (hf : ∀ line ∈ lines, f (line ++ ['\r']) = f line) : (returned lines).map f = lines.map f := by
  fun_induction returned lines with
  | case1 => rfl
  | case2 => rfl
  | case3 line next rest ih =>
      rw [List.map_cons, List.map_cons, hf line List.mem_cons_self,
        ih fun line hline => hf line (List.mem_cons_of_mem _ hline)]

/-! ### The two ways to drop a carriage return -/

theorem dropReturn_concat (line : List Char) : dropReturn (line ++ ['\r']) = line := by
  induction line with
  | nil => rfl
  | cons c cs ih =>
      -- The return is not all that is left behind `c`.
      have hlast : c = '\r' → cs ++ ['\r'] ≠ [] := fun _ => by simp
      rw [List.cons_append, dropReturn.eq_3 _ _ hlast, ih]

theorem dropReturn_of_not_mem {line : List Char} (h : '\r' ∉ line) : dropReturn line = line := by
  fun_induction dropReturn line with
  | case1 => rfl
  | case2 => simp at h
  | case3 c cs _ ih => rw [ih fun hcs => h (List.mem_cons_of_mem _ hcs)]

theorem rawLines_withReturns {text : List Char} (h : '\r' ∉ text) :
    rawLines (withReturns text) = rawLines text := by
  rw [rawLines, splitAt_withReturns, map_returned, rawLines]
  intro line hline
  rw [dropReturn_concat, dropReturn_of_not_mem fun hr => h (Text.mem_of_mem_splitAt hline hr)]

theorem switches_withReturns (text : List Char) :
    Suppression.switches (withReturns text) = Suppression.switches text := by
  rw [Suppression.switches, splitAt_withReturns, map_returned, Suppression.switches]
  intro line _
  rw [List.reverse_concat, List.dropWhile_cons]
  rfl

/-! ### The report -/

/-- Writing a text without carriage returns with one before every newline does not
change its report. -/
theorem check_withReturns [Check.PatternEngine] (text : String) (dialect : Dialect)
    (settings : RunSettings)
    (h : '\r' ∉ text.toList) :
    check (String.ofList (withReturns text.toList)) dialect settings =
      check text dialect settings := by
  have hdoc : Document.ofText (withReturns text.toList) = Document.ofText text.toList := by
    rw [Document.ofText, rawLines_withReturns h, Document.ofText]
  have hquiet :
      Suppressions.ofText (withReturns text.toList) = Suppressions.ofText text.toList := by
    rw [Suppressions.ofText, switches_withReturns, Suppressions.ofText]
  have hfound :
      unsuppressed dialect (withReturns text.toList) = unsuppressed dialect text.toList := by
    rw [unsuppressed, hdoc, hquiet, unsuppressed]
  rw [check, String.toList_ofList, hfound, check]

/-- A text with a switching comment, a comment over two lines and findings at the
ends of lines. -/
theorem check_withReturns_switched :
    let text := "x = 42 // mqlint-disable-next-line magic-number\nint y = 99 /* é\n*/ zz\n"
    '\r' ∉ text.toList ∧ (check text .mql5 {}).totalFound = 7 ∧
      check (String.ofList (withReturns text.toList)) .mql5 {} = check text .mql5 {} := by
  intro text
  have hplain : '\r' ∉ text.toList := by decide +kernel
  exact ⟨hplain, by decide +kernel, check_withReturns text .mql5 {} hplain⟩

end TradeScript
