import TradeScript.Proofs.Ascending
import TradeScript.Proofs.Header
import TradeScript.Proofs.Nesting

/-!
# TradeScript.Proofs.Extent

Where functions start and end. The check for long functions goes through the lines once and
remembers one first line and one balance of braces. Every line of the shape of a declaration
overwrites both, and between functions the balance is kept, whatever it is.

What the check remembers before a line is the function that is open there
(`Tracks`): its first line is the last one of the shape of a declaration, and on no line
since then have its braces balanced. So a function is found exactly if it ends before the
next such line (`mem_functionsFrom_iff`).

That loses functions. A line inside a body that looks like a declaration, such as the
construction of a local object, takes the place of the function it stands in. The function
cannot have ended before (`HasBody.le_of_isFunction`), so it is not found.
-/

namespace TradeScript

/-! ### Stretches of lines -/

namespace Document

variable {doc : Document} {first mid stop number : Nat}

/-- The bare view of a line; empty past the last line. -/
def bareLine (doc : Document) (number : Nat) : List Char :=
  ((doc.lines.map Line.bare)[number]?).getD []

/-- The bare text of the lines from `first` up to, and without, `stop`. -/
def stretch (doc : Document) (first stop : Nat) : List Char :=
  Text.joinWith '\n' (((doc.lines.map Line.bare).drop first).take (stop - first))

theorem bareLine_of_mem {line : Line} (h : (line, number) ∈ doc.numbered) :
    doc.bareLine number = line.bare := by
  rw [bareLine, List.getElem?_map, mem_numbered.mp h]
  rfl

theorem bareLine_of_le (h : doc.lineCount ≤ number) : doc.bareLine number = [] := by
  rw [bareLine, List.getElem?_eq_none (by simpa [lineCount] using h)]
  rfl

theorem stretch_line (h : number < doc.lineCount) :
    doc.stretch number (number + 1) = doc.bareLine number := by
  have hlt : number < (doc.lines.map Line.bare).length := by simpa [lineCount] using h
  rw [stretch, Nat.add_sub_cancel_left, List.drop_eq_getElem_cons hlt, bareLine,
    List.getElem?_eq_getElem hlt]
  rfl

theorem stretch_split (hfirst : first < mid) (hmid : mid < stop) (hstop : stop ≤ doc.lineCount) :
    doc.stretch first stop = doc.stretch first mid ++ '\n' :: doc.stretch mid stop := by
  have hlength : (doc.lines.map Line.bare).length = doc.lineCount := List.length_map _
  have hcount : stop - first = mid - first + (stop - mid) := by omega
  have hdrop : first + (mid - first) = mid := by omega
  rw [stretch, hcount, List.take_add, List.drop_drop, hdrop, Text.joinWith_append]
  · rfl
  · apply List.ne_nil_of_length_pos
    rw [List.length_take, List.length_drop, hlength]
    omega
  · apply List.ne_nil_of_length_pos
    rw [List.length_take, List.length_drop, hlength]
    omega

end Document

namespace Check

variable {doc : Document} {first last number : Nat}

/-! ### Functions -/

/-- Line `last` has a closing brace, and the braces of the lines from `first` to `last`,
counted together, balance. -/
def BalancesAt (doc : Document) (first last : Nat) : Prop :=
  '}' ∈ doc.bareLine last ∧
    (doc.stretch first (last + 1)).count '{' = (doc.stretch first (last + 1)).count '}'

/-- Line `number` belongs to the function that starts on line `first`: of the lines from the
one to the other only the first has the shape of a declaration, and the braces balance on
none of them before the last. -/
structure Reaches (doc : Document) (first number : Nat) : Prop where
  le : first ≤ number
  header : IsHeader (doc.bareLine first)
  alone : ∀ n, first < n → n ≤ number → ¬ IsHeader (doc.bareLine n)
  unbalanced : ∀ n, first ≤ n → n < number → ¬ BalancesAt doc first n

/-- A function that starts on line `first` and ends on line `last`. -/
structure IsFunction (doc : Document) (first last : Nat) : Prop extends
    Reaches doc first last where
  balances : BalancesAt doc first last

/-- The function that starts on line `first` goes on behind the line before `number`. -/
def IsOpen (doc : Document) (first number : Nat) : Prop :=
  ∃ n, number = n + 1 ∧ Reaches doc first n ∧ ¬ BalancesAt doc first n

/-- A line of the shape of a declaration starts a function, whatever is open before it. Any
other line belongs to the function that is open. -/
theorem reaches_iff :
    Reaches doc first number ↔
      IsHeader (doc.bareLine number) ∧ first = number ∨
        ¬ IsHeader (doc.bareLine number) ∧ IsOpen doc first number := by
  constructor
  · intro h
    by_cases heq : first = number
    · exact .inl ⟨heq ▸ h.header, heq⟩
    · have hlt : first < number := Nat.lt_of_le_of_ne h.le heq
      obtain ⟨n, rfl⟩ : ∃ n, number = n + 1 := Nat.exists_eq_succ_of_ne_zero (by omega)
      have hle : first ≤ n := Nat.le_of_lt_succ hlt
      have hunbalanced := h.unbalanced n hle (Nat.lt_succ_self n)
      refine .inr ⟨h.alone _ hlt (Nat.le_refl _), n, rfl, ⟨hle, h.header, ?_, ?_⟩, hunbalanced⟩
      · exact fun m hm hm' => h.alone m hm (Nat.le_succ_of_le hm')
      · exact fun m hm hm' => h.unbalanced m hm (Nat.lt_succ_of_lt hm')
  · intro h
    cases h with
    | inl h =>
        obtain ⟨hheader, rfl⟩ := h
        exact ⟨Nat.le_refl _, hheader, fun n hn hn' => by omega, fun n hn hn' => by omega⟩
    | inr h =>
        obtain ⟨hplain, n, rfl, hreaches, hunbalanced⟩ := h
        refine ⟨Nat.le_succ_of_le hreaches.le, hreaches.header, fun m hm hm' => ?_,
          fun m hm hm' => ?_⟩
        · cases Nat.lt_or_eq_of_le hm' with
          | inl hlt => exact hreaches.alone m hm (Nat.le_of_lt_succ hlt)
          | inr heq => exact heq ▸ hplain
        · cases Nat.lt_or_eq_of_le (Nat.le_of_lt_succ hm') with
          | inl hlt => exact hreaches.unbalanced m hm hlt
          | inr heq => exact heq ▸ hunbalanced

theorem isOpen_succ_iff :
    IsOpen doc first (number + 1) ↔
      Reaches doc first number ∧ ¬ BalancesAt doc first number := by
  constructor
  · intro h
    obtain ⟨n, hn, h⟩ := h
    obtain rfl := Nat.succ.inj hn
    exact h
  · exact fun h => ⟨number, rfl, h⟩

/-! ### What the check remembers -/

/-- Before line `number` the check remembers the function that is open, and the balance of
its braces. If none is open, the balance means nothing. -/
structure Tracks (doc : Document) (number : Nat) (start : Option Nat) (depth : Int) : Prop where
  start_iff : ∀ first, start = some first ↔ IsOpen doc first number
  depth_eq : ∀ first, start = some first → depth = braceBalance (doc.stretch first number)

theorem tracks_zero (doc : Document) : Tracks doc 0 none 0 where
  start_iff first := by simp [IsOpen]
  depth_eq first h := by simp at h

/-- The balance of a stretch grows line by line. -/
theorem braceBalance_stretch_succ (hfirst : first < number) (h : number < doc.lineCount) :
    braceBalance (doc.stretch first (number + 1)) =
      braceBalance (doc.stretch first number) + braceBalance (doc.bareLine number) := by
  rw [Document.stretch_split hfirst (Nat.lt_succ_self number) h, braceBalance_append,
    Document.stretch_line h]
  simp [braceBalance]

variable {start : Option Nat} {depth : Int} {line : Line}

/-- The first line and the balance with which the check judges a line are those of the
function that the line belongs to. -/
theorem Tracks.judges (h : Tracks doc number start depth) (hline : (line, number) ∈ doc.numbered) :
    (∀ first, (if startsFunction line.bare then some number else start) = some first ↔
      Reaches doc first number) ∧
    ∀ first, (if startsFunction line.bare then some number else start) = some first →
      (if startsFunction line.bare then 0 else depth) + braceBalance line.bare =
        braceBalance (doc.stretch first (number + 1)) := by
  have hlt := Document.lt_lineCount_of_mem hline
  rw [← Document.bareLine_of_mem hline]
  by_cases hheader : IsHeader (doc.bareLine number)
  · rw [if_pos (startsFunction_iff.mpr hheader), if_pos (startsFunction_iff.mpr hheader)]
    constructor
    · intro first
      rw [reaches_iff]
      simp [hheader, eq_comm]
    · intro first hfirst
      obtain rfl := Option.some.inj hfirst
      rw [Document.stretch_line hlt, Int.zero_add]
  · rw [if_neg (mt startsFunction_iff.mp hheader), if_neg (mt startsFunction_iff.mp hheader)]
    constructor
    · intro first
      rw [reaches_iff, h.start_iff]
      simp [hheader]
    · intro first hfirst
      obtain ⟨n, rfl, hreaches, -⟩ := (h.start_iff first).mp hfirst
      rw [h.depth_eq first hfirst,
        braceBalance_stretch_succ (Nat.lt_succ_of_le hreaches.le) hlt]

theorem balancesAt_iff (hline : (line, number) ∈ doc.numbered) :
    BalancesAt doc first number ↔
      braceBalance (doc.stretch first (number + 1)) = 0 ∧ '}' ∈ line.bare := by
  rw [BalancesAt, Document.bareLine_of_mem hline, braceBalance_eq_count, And.comm]
  refine and_congr_left fun _ => ?_
  omega

/-- Behind a line the check remembers the function that the line belongs to, unless it has
ended there. -/
theorem tracks_succ {next : Option Nat}
    (hstart : ∀ first, start = some first ↔ Reaches doc first number)
    (hdepth : ∀ first, start = some first → depth = braceBalance (doc.stretch first (number + 1)))
    (hnext : ∀ first, next = some first ↔ start = some first ∧ ¬ BalancesAt doc first number) :
    Tracks doc (number + 1) next depth where
  start_iff first := by rw [hnext, hstart, isOpen_succ_iff]
  depth_eq first h := hdepth first ((hnext first).mp h).1

/-! ### The functions that are found -/

theorem lineCount_le_of_drop_eq_nil (h : doc.numbered.drop number = []) :
    doc.lineCount ≤ number := by
  simpa [Document.numbered, Document.lineCount] using List.drop_eq_nil_iff.mp h

theorem numbered_drop_eq_cons {rest : List (Line × Nat)} {n : Nat}
    (h : doc.numbered.drop number = (line, n) :: rest) :
    n = number ∧ (line, number) ∈ doc.numbered ∧ rest = doc.numbered.drop (number + 1) := by
  have hlt : number < doc.numbered.length := by
    have hlength := congrArg List.length h
    rw [List.length_drop, List.length_cons] at hlength
    omega
  rw [List.drop_eq_getElem_cons hlt] at h
  obtain ⟨hhead, rfl⟩ := List.cons.inj h
  have hmem : (line, n) ∈ doc.numbered := hhead ▸ List.getElem_mem hlt
  have hn : number = n := by
    have hsnd := congrArg Prod.snd hhead
    simpa [Document.numbered] using hsnd
  subst hn
  exact ⟨rfl, hmem, rfl⟩

/-- A function ends on line `number` or behind it. -/
theorem le_and_isFunction_iff {last : Nat} :
    (number ≤ last ∧ IsFunction doc first last) ↔
      (Reaches doc first number ∧ BalancesAt doc first number ∧ last = number) ∨
        (number + 1 ≤ last ∧ IsFunction doc first last) := by
  constructor
  · intro h
    obtain ⟨hle, hfunction⟩ := h
    cases Nat.lt_or_eq_of_le hle with
    | inl hlt => exact .inr ⟨hlt, hfunction⟩
    | inr heq =>
        subst heq
        exact .inl ⟨hfunction.toReaches, hfunction.balances, rfl⟩
  · intro h
    cases h with
    | inl h =>
        obtain ⟨hreaches, hbalances, rfl⟩ := h
        exact ⟨Nat.le_refl _, hreaches, hbalances⟩
    | inr h => exact ⟨Nat.le_of_succ_le h.1, h.2⟩

/-- From a line on, the check finds the functions that end there or later. -/
theorem mem_functionsFrom_iff {lines : List (Line × Nat)} {last : Nat}
    (h : Tracks doc number start depth) (hlines : doc.numbered.drop number = lines) :
    (first, last) ∈ functionsFrom start depth lines ↔
      number ≤ last ∧ IsFunction doc first last := by
  induction lines generalizing number start depth with
  | nil =>
      simp only [functionsFrom, List.not_mem_nil, false_iff]
      intro hfound
      obtain ⟨hle, hfunction⟩ := hfound
      have hcount := lineCount_le_of_drop_eq_nil hlines
      have hbrace := hfunction.balances.1
      rw [Document.bareLine_of_le (Nat.le_trans hcount hle)] at hbrace
      exact absurd hbrace List.not_mem_nil
  | cons head rest ih =>
      obtain ⟨line, n⟩ := head
      obtain ⟨rfl, hline, rfl⟩ := numbered_drop_eq_cons hlines
      obtain ⟨hstart, hdepth⟩ := h.judges hline
      rw [le_and_isFunction_iff]
      simp only [functionsFrom]
      generalize (if startsFunction line.bare then some n else start) = start' at hstart hdepth ⊢
      generalize (if startsFunction line.bare then 0 else depth) + braceBalance line.bare = depth'
        at hdepth ⊢
      cases start' with
      | none =>
          have hnone : ∀ first, ¬ Reaches doc first n := fun first hreaches =>
            absurd ((hstart first).mpr hreaches) (by simp)
          rw [ih (tracks_succ hstart hdepth (by simp)) rfl]
          simp [hnone]
      | some f =>
          have honly : ∀ first, Reaches doc first n → first = f := fun first hreaches =>
            (Option.some.inj ((hstart first).mpr hreaches)).symm
          have hends : depth' = 0 ∧ '}' ∈ line.bare ↔ BalancesAt doc f n := by
            rw [balancesAt_iff hline, hdepth f rfl]
          by_cases hbalances : BalancesAt doc f n
          · have hnext : Tracks doc (n + 1) none depth' := by
              refine tracks_succ hstart hdepth fun first => ?_
              simp only [Option.some.injEq, reduceCtorEq, false_iff, not_and]
              exact fun hfirst => hfirst ▸ not_not_intro hbalances
            simp only [if_pos (hends.mpr hbalances), List.mem_cons, Prod.mk.injEq, ih hnext rfl]
            refine or_congr_left ⟨fun hfound => ?_, fun hfound => ?_⟩
            · obtain ⟨rfl, hlast⟩ := hfound
              exact ⟨(hstart first).mp rfl, hbalances, hlast⟩
            · obtain ⟨hreaches, -, hlast⟩ := hfound
              obtain rfl := honly first hreaches
              exact ⟨rfl, hlast⟩
          · have hnext : Tracks doc (n + 1) (some f) depth' := by
              refine tracks_succ hstart hdepth fun first => ?_
              simp only [Option.some.injEq, iff_self_and]
              exact fun hfirst => hfirst ▸ hbalances
            simp only [if_neg (mt hends.mp hbalances), ih hnext rfl]
            refine ⟨.inr, fun hfound => hfound.resolve_left fun hfound => ?_⟩
            obtain ⟨hreaches, hbalances', -⟩ := hfound
            exact hbalances (honly first hreaches ▸ hbalances')

theorem mem_functionsFrom_numbered_iff {last : Nat} :
    (first, last) ∈ functionsFrom none 0 doc.numbered ↔ IsFunction doc first last := by
  rw [mem_functionsFrom_iff (tracks_zero doc) List.drop_zero]
  simp

theorem mem_longFunctions_iff {d : Diagnostic} :
    d ∈ longFunctions doc ↔
      ∃ first last, IsFunction doc first last ∧ maxFunctionLines < lineSpan first last ∧
        d = (Finding.longFunction (lineSpan first last)).report (doc.fullLine first) := by
  simp only [longFunctions, List.mem_map, List.mem_filter, decide_eq_true_eq, Prod.exists,
    mem_functionsFrom_numbered_iff]
  constructor
  · intro h
    obtain ⟨first, last, ⟨hfunction, hlong⟩, rfl⟩ := h
    exact ⟨first, last, hfunction, hlong, rfl⟩
  · intro h
    obtain ⟨first, last, hfunction, hlong, rfl⟩ := h
    exact ⟨first, last, ⟨hfunction, hlong⟩, rfl⟩

/-- Lines are counted up to the greatest number of 32 bits. -/
theorem lineSpan_eq {last : Nat} (h : first ≤ last) :
    lineSpan first last = min last (UInt32.size - 1) - min first (UInt32.size - 1) + 1 := by
  rw [lineSpan, UInt32.toNat_sub_of_le _ _ (ofNatClamp_mono h), toNat_ofNatClamp, toNat_ofNatClamp]

end Check

/-! ### Reports -/

namespace Check

variable {doc : Document} {first last : Nat} {head body behind : List Char}

/-- The lines from `first` to `last` begin with one of the shape of a declaration, and their
first opening brace is closed on the last of them: `head` stands before that brace, `body`
between it and the one that closes it, and `behind` after that one. -/
structure HasBody (doc : Document) (first last : Nat) (head body behind : List Char) : Prop where
  lt : last < doc.lineCount
  header : IsHeader (doc.bareLine first)
  eq : doc.stretch first (last + 1) = head ++ '{' :: (body ++ '}' :: behind)
  first_brace : '{' ∉ head
  nested : ∀ n ≤ body.length, (body.take n).count '}' ≤ (body.take n).count '{'
  balanced : body.count '{' = body.count '}'
  last_line : '\n' ∉ behind

theorem mem_stretch_of_mem_bareLine {c : Char} (hle : first ≤ last) (hlt : last < doc.lineCount)
    (h : c ∈ doc.bareLine last) : c ∈ doc.stretch first (last + 1) := by
  rw [← Document.stretch_line hlt] at h
  cases Nat.lt_or_eq_of_le hle with
  | inl hfirst =>
      rw [Document.stretch_split hfirst (Nat.lt_succ_self last) hlt]
      exact List.mem_append_right _ (List.mem_cons_of_mem _ h)
  | inr heq => exact heq ▸ h

/-- Once the first brace is open, the braces balance nowhere before it is closed. -/
theorem count_ne_count_of_prefix (hopen : '{' ∉ head) (hclean : '}' ∉ head)
    (hnested : ∀ n ≤ body.length, (body.take n).count '}' ≤ (body.take n).count '{')
    {p more : List Char} (hp : head ++ '{' :: body = p ++ more) (hbrace : '}' ∈ p) :
    p.count '{' ≠ p.count '}' := by
  cases List.append_eq_append_iff.mp hp with
  | inl h =>
      obtain ⟨tail, rfl, htail⟩ := h
      cases tail with
      | nil =>
          rw [List.append_nil] at hbrace
          exact absurd hbrace hclean
      | cons c front =>
          rw [List.cons_append] at htail
          obtain ⟨rfl, hbody⟩ := List.cons.inj htail
          have hle := hnested front.length (by simp [hbody])
          rw [hbody, List.take_left] at hle
          have hone : ('{' :: front).count '{' = front.count '{' + 1 := List.count_cons_self
          have hnone : ('{' :: front).count '}' = front.count '}' :=
            List.count_cons_of_ne (by decide)
          rw [List.count_append, List.count_append, List.count_eq_zero.mpr hopen,
            List.count_eq_zero.mpr hclean, hone, hnone]
          omega
  | inr h =>
      obtain ⟨tail, rfl, -⟩ := h
      exact absurd (List.mem_append_left _ hbrace) hclean

namespace HasBody

theorem stretch_eq (h : HasBody doc first last head body behind) :
    doc.stretch first (last + 1) = (head ++ '{' :: body) ++ '}' :: behind := by
  rw [h.eq, List.append_assoc, List.cons_append]

theorem newline_not_mem (h : HasBody doc first last head body behind) : '\n' ∉ '}' :: behind := by
  simpa using h.last_line

theorem not_balancesAt (h : HasBody doc first last head body behind) (hclean : '}' ∉ head)
    {n : Nat} (hfirst : first ≤ n) (hlast : n < last) : ¬ BalancesAt doc first n := by
  intro hbalances
  have hsplit := h.stretch_eq
  rw [Document.stretch_split (Nat.lt_succ_of_le hfirst) (Nat.succ_lt_succ hlast) h.lt] at hsplit
  obtain ⟨more, hfront, -⟩ := exists_append_of_notMem_back hsplit h.newline_not_mem
  have hbrace := mem_stretch_of_mem_bareLine hfirst (Nat.lt_trans hlast h.lt) hbalances.1
  exact count_ne_count_of_prefix h.first_brace hclean h.nested hfront hbrace hbalances.2

/-- The brace that closes the body stands on the last line. -/
theorem brace_mem (h : HasBody doc first last head body behind) (hle : first ≤ last) :
    '}' ∈ doc.bareLine last := by
  have hsplit := h.stretch_eq
  cases Nat.lt_or_eq_of_le hle with
  | inl hlt =>
      rw [Document.stretch_split hlt (Nat.lt_succ_self last) h.lt, Document.stretch_line h.lt]
        at hsplit
      obtain ⟨more, -, hline⟩ := exists_append_of_notMem_back hsplit h.newline_not_mem
      rw [hline]
      simp
  | inr heq =>
      subst heq
      rw [Document.stretch_line h.lt] at hsplit
      rw [hsplit]
      simp

theorem balancesAt_iff (h : HasBody doc first last head body behind) (hclean : '}' ∉ head)
    (hle : first ≤ last) :
    BalancesAt doc first last ↔ behind.count '{' = behind.count '}' := by
  have hbalanced := h.balanced
  rw [BalancesAt, and_iff_right (h.brace_mem hle), h.eq]
  simp only [List.count_append, List.count_cons, List.count_eq_zero.mpr h.first_brace,
    List.count_eq_zero.mpr hclean]
  simp
  omega

theorem le_of_isFunction (h : HasBody doc first last head body behind) (hclean : '}' ∉ head)
    {stop : Nat} (hfunction : IsFunction doc first stop) : last ≤ stop := by
  apply Nat.le_of_not_lt
  intro hlt
  exact h.not_balancesAt hclean hfunction.le hlt hfunction.balances

end HasBody

/-- Where the braces balance for the first time, the function ends. -/
theorem exists_isFunction_of_balancesAt {stop : Nat} (hheader : IsHeader (doc.bareLine first))
    (hle : first ≤ stop) (hbalances : BalancesAt doc first stop)
    (halone : ∀ n, first < n → n ≤ stop → ¬ IsHeader (doc.bareLine n)) :
    ∃ last, IsFunction doc first last := by
  induction stop using Nat.strongRecOn with
  | ind stop ih =>
      by_cases hearlier : ∃ n, first ≤ n ∧ n < stop ∧ BalancesAt doc first n
      · obtain ⟨n, hfirst, hlt, hn⟩ := hearlier
        exact ih n hlt hfirst hn fun m hm hm' => halone m hm (Nat.le_trans hm' (Nat.le_of_lt hlt))
      · exact ⟨stop, ⟨hle, hheader, halone, fun n hn hn' hbal => hearlier ⟨n, hn, hn', hbal⟩⟩,
          hbalances⟩

end Check

/-- The line of a report tells the function, if its lines have numbers of 32 bits. -/
theorem Check.eq_of_fullLine_eq {doc : Document} {first first' last : Nat} (hlt : first < last)
    (hsize : last < UInt32.size) (h : doc.fullLine first' = doc.fullLine first) :
    first' = first := by
  have hline : UInt32.ofNatClamp first' = .ofNatClamp first :=
    congrArg (fun range : Range => range.start.line) h
  have hnat := congrArg UInt32.toNat hline
  rw [toNat_ofNatClamp, toNat_ofNatClamp] at hnat
  omega

/-- A function whose first brace is closed more than fifty lines behind its first line is
reported exactly if no line up to its end has the shape of a declaration again. It ends where
that brace is closed, if the braces behind it on the line balance, and otherwise on a later
line, where all braces balance, if there is one. -/
theorem long_function_reported_iff (text : String) (first last : Nat)
    (head body behind : List Char)
    (hbody : Check.HasBody (Document.ofText text.toList) first last head body behind)
    (hlong : 50 < last - first + 1) (hsize : last < UInt32.size) (hclean : '}' ∉ head) :
    let doc := Document.ofText text.toList
    ((∃ d ∈ Check.longFunctions doc, d.range = doc.fullLine first) ↔
      ∃ stop, last ≤ stop ∧ Check.BalancesAt doc first stop ∧
        ∀ n, first < n → n ≤ stop → ¬ Check.IsHeader (doc.bareLine n)) ∧
    (behind.count '{' = behind.count '}' →
      ((Finding.longFunction (last - first + 1)).report (doc.fullLine first) ∈
          Check.longFunctions doc ↔
        ∀ n, first < n → n ≤ last → ¬ Check.IsHeader (doc.bareLine n))) := by
  intro doc
  have hlt : first < last := by omega
  have hle := Nat.le_of_lt hlt
  refine ⟨⟨fun h => ?_, fun h => ?_⟩, fun hbehind => ⟨fun h => ?_, fun halone => ?_⟩⟩
  · obtain ⟨d, hd, hrange⟩ := h
    obtain ⟨first', stop, hfunction, -, rfl⟩ := Check.mem_longFunctions_iff.mp hd
    obtain rfl := Check.eq_of_fullLine_eq hlt hsize hrange
    exact ⟨stop, hbody.le_of_isFunction hclean hfunction, hfunction.balances, hfunction.alone⟩
  · obtain ⟨stop, hstop, hbalances, halone⟩ := h
    obtain ⟨last', hfunction⟩ := Check.exists_isFunction_of_balancesAt hbody.header
      (Nat.le_trans hle hstop) hbalances halone
    have hlast := hbody.le_of_isFunction hclean hfunction
    refine ⟨_, Check.mem_longFunctions_iff.mpr ⟨first, last', hfunction, ?_, rfl⟩, rfl⟩
    rw [Check.lineSpan_eq hfunction.le, Check.maxFunctionLines]
    omega
  · obtain ⟨first', last', hfunction, -, hreport⟩ := Check.mem_longFunctions_iff.mp h
    obtain rfl := Check.eq_of_fullLine_eq hlt hsize (congrArg Diagnostic.range hreport).symm
    have hlast := hbody.le_of_isFunction hclean hfunction
    exact fun n hn hn' => hfunction.alone n hn (Nat.le_trans hn' hlast)
  · have hbalances := (hbody.balancesAt_iff hclean hle).mpr hbehind
    have hlines : Check.lineSpan first last = last - first + 1 := by
      rw [Check.lineSpan_eq hle]
      omega
    refine Check.mem_longFunctions_iff.mpr ⟨first, last, ⟨⟨hle, hbody.header, halone, ?_⟩,
      hbalances⟩, hlines ▸ hlong, hlines ▸ rfl⟩
    exact fun n hn hn' => hbody.not_balancesAt hclean hn hn'

/-- A body with a block in it, and something behind the brace that closes it. -/
theorem long_function_reported_with_block :
    let text := "int f()\n\x7b\x7b\x7d" ++ String.ofList (List.replicate 49 '\n') ++ "\x7d;"
    let doc := Document.ofText text.toList
    Check.HasBody doc 0 50 "int f()\n".toList (['{', '}'] ++ List.replicate 49 '\n') [';'] ∧
      (Finding.longFunction 51).report (doc.fullLine 0) ∈ Check.longFunctions doc := by
  intro text doc
  have hbody : Check.HasBody doc 0 50 "int f()\n".toList (['{', '}'] ++ List.replicate 49 '\n')
      [';'] :=
    ⟨by decide +kernel, Check.startsFunction_iff.mp (by decide +kernel), by decide +kernel,
      by decide, by decide +kernel, by decide, by decide⟩
  have halone : ∀ n ≤ 50, 0 < n → Check.startsFunction (doc.bareLine n) = false := by
    decide +kernel
  refine ⟨hbody, ((long_function_reported_iff text 0 50 _ _ _ hbody (by decide) (by decide)
    (by decide)).2 (by decide)).mpr fun n hn hn' hheader => ?_⟩
  have hplain := halone n hn' hn
  rw [Check.startsFunction_iff.mpr hheader] at hplain
  exact absurd hplain.symm Bool.false_ne_true

/-- A local object that is constructed with arguments looks like the declaration of a
function, and takes the place of the function it stands in. -/
theorem long_function_missed :
    let text := "void f() \x7b\nA b(c);" ++ String.ofList (List.replicate 49 '\n') ++ "\x7d"
    let doc := Document.ofText text.toList
    let head := "void f() ".toList
    let body := "\nA b(c);".toList ++ List.replicate 49 '\n'
    Check.HasBody doc 0 50 head body [] ∧ head.count '\n' ≤ 1 ∧ 50 < 50 - 0 + 1 ∧
      ∀ d ∈ Check.longFunctions doc, d.range ≠ doc.fullLine 0 :=
  ⟨⟨by decide +kernel, Check.startsFunction_iff.mp (by decide +kernel), by decide +kernel,
    by decide, by decide +kernel, by decide, by decide⟩, by decide, by decide, by decide +kernel⟩

end TradeScript
