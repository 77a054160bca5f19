import TradeScript.Proofs.Variable

/-!
# TradeScript.Proofs.Unused

Where unused variables are reported. A variable is unused if its name is one word of the
bare text and no other (`mentions`), and it is reported where its name is declared last.
That need not be the same place. The patterns of declarations read a name as far as ASCII
letters, digits and underscores go, and do not ask whether the word ends there. A letter
beyond ASCII cuts the name short (`CutShort`): what is declared is then no word of its own,
but it counts as a declaration of the name that was read.

This is the only way in which the two places differ (`start_eq_iff_not_cutShort`).
-/

namespace TradeScript

namespace Check

open Scan
open Text (byteLength byteLength_append isWord)

/-! ### Mentions of a name -/

/-- The words of a text that are the name. -/
def mentions (text : List Char) (name : String) : List (Occurrence Found) :=
  (occurrences identifierWord text).filter fun w => w.name == name

theorem useCount_eq_length_mentions (text : List Char) (name : String) :
    useCount (wordsOf text) name = (mentions text name).length := by
  rw [useCount, wordsOf, List.countP_map, mentions, List.countP_eq_length_filter]
  rfl

theorem mem_mentions_iff {text name : List Char} {w : Occurrence Found} :
    w ∈ mentions text (String.ofList name) ↔ ∃ before after, WordAt text before name after ∧
      w = ⟨before.reverse, byteLength before, ⟨[], name, []⟩⟩ := by
  rw [mentions, List.mem_filter, mem_occurrences_identifierWord_iff, beq_iff_eq]
  constructor
  · intro h
    obtain ⟨⟨before, name', after, hword, rfl⟩, hname⟩ := h
    obtain rfl : name' = name := String.ofList_injective hname
    exact ⟨before, after, hword, rfl⟩
  · intro h
    obtain ⟨before, after, hword, rfl⟩ := h
    exact ⟨⟨before, name, after, hword, rfl⟩, rfl⟩

/-! ### Names that are cut short -/

/-- The text goes on with a letter, or another word character, beyond ASCII. -/
def CutShort (after : List Char) : Prop :=
  ∃ c rest, after = c :: rest ∧ isWord c = true ∧ 0x80 ≤ c.toNat

/-- Behind a name that was read as far as it goes, the word ends, or the name is cut
short. -/
theorem closesWord_iff_not_cutShort {after : List Char}
    (hends : ∀ c ∈ after.head?, isNamePart c = false) :
    closesWord after = true ↔ ¬ CutShort after := by
  cases after with
  | nil => simp [closesWord, CutShort]
  | cons c rest =>
      have hpart := hends c rfl
      cases hword : isWord c with
      | false => simp [closesWord, CutShort, hword]
      | true =>
          have hbeyond : 0x80 ≤ c.toNat := by
            apply Nat.le_of_not_lt
            intro hascii
            rw [Text.isWord_of_ascii hascii] at hword
            exact Bool.false_ne_true (hpart.symm.trans hword)
          simp [closesWord, CutShort, hword, hbeyond]

/-- The name of a declaration is read where a word may start, and as far as it goes. -/
theorem exists_name_of_mem_usableDeclarations {text : List Char} {o : Occurrence Found}
    (h : o ∈ usableDeclarations text) :
    ∃ before after, text = before ++ (o.found.name ++ after) ∧ o.start = byteLength before ∧
      opensWord before.getLast? = true ∧ isIdentifier o.found.name = true ∧
      ∀ c ∈ after.head?, isNamePart c = false := by
  obtain ⟨lead, hlead, hopens, ho⟩ := exists_lead_of_mem_usableDeclarations h
  obtain ⟨before, cs, after, -, htext, hstart, hbefore, hread, -⟩ :=
    exists_identifier_of_mem_occurrences hlead ho
  obtain ⟨rfl, hname, hends⟩ := identifier_eq_some_iff.mp hread
  exact ⟨before, after, htext, hstart, hbefore hopens, hname, hends⟩

/-! ### Reports -/

variable {doc : Document} {o w : Occurrence Found}

/-- A declaration and the one mention of its name stand at the same place, unless the
declared name is cut short. -/
theorem start_eq_iff_not_cutShort (ho : o ∈ usableDeclarations doc.bareText)
    (hw : mentions doc.bareText o.name = [w]) :
    o.start = w.start ↔ ¬ CutShort (Text.dropBytes o.stop doc.bareText) := by
  obtain ⟨before, after, htext, hstart, hopens, hname, hends⟩ :=
    exists_name_of_mem_usableDeclarations ho
  have hstop : o.stop = byteLength (before ++ o.found.name) := by
    rw [Occurrence.stop, hstart, byteLength_append]
  have hbehind : Text.dropBytes o.stop doc.bareText = after := by
    rw [hstop, htext, ← List.append_assoc, Text.dropBytes_append]
  have hmem : w ∈ mentions doc.bareText o.name := by simp [hw]
  rw [hbehind, ← closesWord_iff_not_cutShort hends]
  constructor
  · intro hsame
    obtain ⟨front, rest, hword, rfl⟩ := mem_mentions_iff.mp hmem
    exact hword.closes_at htext (hsame.symm.trans hstart)
  · intro hcloses
    have hword : WordAt doc.bareText before o.found.name after := ⟨htext, hopens, hname, hcloses⟩
    -- What is declared is a word, so it is the one mention.
    have hdeclared : ⟨before.reverse, byteLength before, ⟨[], o.found.name, []⟩⟩ ∈
        mentions doc.bareText o.name := mem_mentions_iff.mpr ⟨before, after, hword, rfl⟩
    rw [hw, List.mem_singleton] at hdeclared
    rw [← hdeclared, hstart]
    rfl

/-- Where they stand at the same place, they are the same stretch of the text. -/
theorem stop_eq_of_start_eq (hw : w ∈ mentions doc.bareText o.name) (h : o.start = w.start) :
    o.stop = w.stop := by
  obtain ⟨front, rest, hword, rfl⟩ := mem_mentions_iff.mp hw
  rw [Occurrence.stop, h]
  rfl

/-- In a document that fits, they have the same range only at the same place. -/
theorem start_eq_of_spanAt_eq (fits : doc.Fits) (ho : o ∈ usableDeclarations doc.bareText)
    (hw : w ∈ mentions doc.bareText o.name)
    (h : doc.spanAt o.start o.stop = doc.spanAt w.start w.stop) : o.start = w.start :=
  fits.spanAt_start_inj (visibleAt_start_of_mem_usableDeclarations ho)
    (visibleAt_start_of_mem_occurrences nothing_faithful (List.mem_filter.mp hw).1)
    (congrArg Range.start h)

end Check

/-- An unused variable is one whose name is a word of the bare text exactly once. It is
reported at its last declaration, and that is the one word with the name, unless the
declared name is cut short by a letter beyond ASCII. In a document that fits, the range of
the report is the range of that word in the same cases. -/
theorem unused_reported_at_mention_iff (text : String) :
    let doc := Document.ofText text.toList
    ∀ d, d ∈ Check.unusedVariables doc ↔
      ∃ o w, Check.IsLast (Check.usableDeclarations doc.bareText) o ∧
        Check.mentions doc.bareText o.name = [w] ∧
        d = (Finding.unusedVariable o.name).report (doc.spanAt o.start o.stop) ∧
        (o.start = w.start ∧ o.stop = w.stop ↔
          ¬ Check.CutShort (Text.dropBytes o.stop doc.bareText)) ∧
        (doc.Fits → (d.range = doc.spanAt w.start w.stop ↔
          ¬ Check.CutShort (Text.dropBytes o.stop doc.bareText))) := by
  intro doc d
  rw [Check.mem_unusedVariables_iff]
  constructor
  · intro h
    obtain ⟨o, hlast, honce, rfl⟩ := h
    rw [Check.useCount_eq_length_mentions] at honce
    obtain ⟨w, hw⟩ := List.length_eq_one_iff.mp honce
    have hmem : w ∈ Check.mentions doc.bareText o.name := by simp [hw]
    have hplace : o.start = w.start ∧ o.stop = w.stop ↔ o.start = w.start :=
      and_iff_left_of_imp (Check.stop_eq_of_start_eq hmem)
    refine ⟨o, w, hlast, hw, rfl, ?_⟩
    rw [← Check.start_eq_iff_not_cutShort hlast.mem hw]
    refine ⟨hplace, fun fits => ⟨?_, fun hstart => ?_⟩⟩
    · exact Check.start_eq_of_spanAt_eq fits hlast.mem hmem
    · show doc.spanAt o.start o.stop = _
      rw [hstart, Check.stop_eq_of_start_eq hmem hstart]
  · intro h
    obtain ⟨o, w, hlast, hw, rfl, -⟩ := h
    refine ⟨o, hlast, ?_, rfl⟩
    rw [Check.useCount_eq_length_mentions, hw]
    rfl

/-- The second declaration is one of another name, but it is taken for one of the first and
moves the report to a place where no word has the name. -/
theorem unused_reported_at_cut_name :
    let doc := Document.ofText "int foo; int fooé;".toList
    let range : Range := ⟨⟨0, 13⟩, ⟨0, 16⟩⟩
    (Finding.unusedVariable "foo").report range ∈ Check.unusedVariables doc ∧
      (Check.mentions doc.bareText "foo").map (fun w => doc.spanAt w.start w.stop) =
        [⟨⟨0, 4⟩, ⟨0, 7⟩⟩] := by
  decide +kernel

end TradeScript
