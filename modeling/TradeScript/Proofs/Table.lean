import Mathlib.Data.Set.Card
import TradeScript.Table

/-!
# TradeScript.Proofs.Table

The names in a table. Entering and taking out keep every name single, and then the
table is determined by reading it: its entries are the names with a value
(`Table.mem_entries_iff`), and there are as many of them (`Table.encard_isSome_get?`).
-/

namespace TradeScript

namespace Table

variable {α : Type} {table : Table α}

/-- The names in a table. -/
def names (table : Table α) : List String :=
  table.entries.map Prod.fst

theorem mem_names {name : String} : name ∈ table.names ↔ (table.get? name).isSome := by
  rw [← contains_eq_isSome]
  simp [names, contains]

/-- Entering a name, as a change of the entries. -/
theorem entries_insert (table : Table α) (name : String) (value : α) :
    (table.insert name value).entries =
      if table.entries.any fun e => e.1 == name then
        table.entries.map fun e => if e.1 == name then (name, value) else e
      else table.entries ++ [(name, value)] := by
  rw [insert, apply_ite entries]
  rfl

/-- Entering a name keeps every name single. -/
theorem nodup_names_insert (h : table.names.Nodup) (name : String) (value : α) :
    (table.insert name value).names.Nodup := by
  unfold insert
  split
  · have hsame : (Prod.fst ∘ fun e : String × α => if e.1 == name then (name, value) else e) =
        Prod.fst := by
      funext e
      by_cases he : e.1 = name <;> simp [he]
    rw [names, List.map_map, hsame]
    exact h
  · rename_i habsent
    have hnot : name ∉ table.names := by
      rw [mem_names, ← contains_eq_isSome]
      exact habsent
    rw [names, List.map_append]
    refine List.nodup_append.mpr ⟨h, by simp, ?_⟩
    rintro _ hmem other hother rfl
    obtain rfl : _ = name := by simpa using hother
    exact hnot hmem

theorem nodup_names_erase (h : table.names.Nodup) (name : String) :
    (table.erase name).names.Nodup :=
  h.sublist (List.filter_sublist.map _)

theorem nodup_names_insertAll (h : table.names.Nodup) (entries : List (String × α)) :
    (table.insertAll entries).names.Nodup := by
  induction entries generalizing table with
  | nil => exact h
  | cons e rest ih => exact ih (nodup_names_insert h e.1 e.2)

/-- A table that holds each name once holds what is read from it. -/
theorem mem_entries_iff (h : table.names.Nodup) {name : String} {value : α} :
    (name, value) ∈ table.entries ↔ table.get? name = some value := by
  obtain ⟨entries⟩ := table
  induction entries with
  | nil => simp [get?]
  | cons e rest ih =>
      obtain ⟨other, first⟩ := e
      obtain ⟨hnot, hrest⟩ := List.nodup_cons.mp h
      by_cases hname : other = name
      · subst hname
        have hbehind : (other, value) ∉ rest := fun hmem => hnot (List.mem_map.mpr ⟨_, hmem, rfl⟩)
        simp [get?, hbehind, eq_comm]
      · have hne : (name, value) ≠ (other, first) := fun heq => hname (Prod.mk.inj heq).1.symm
        have hskip : (other == name) = false := beq_eq_false_iff_ne.mpr hname
        rw [List.mem_cons, or_iff_right hne, ih hrest, get?, get?, List.find?_cons, hskip]

/-- Entering what a table holds already changes nothing. -/
theorem insert_eq_self (h : table.names.Nodup) {name : String} {value : α}
    (hget : table.get? name = some value) : table.insert name value = table := by
  have hcontains : table.contains name = true := by
    rw [contains_eq_isSome, hget]
    rfl
  have hsame : ∀ e ∈ table.entries, (if e.1 == name then (name, value) else e) = e := by
    intro e he
    split
    · rename_i hname
      obtain ⟨other, first⟩ := e
      obtain rfl : other = name := eq_of_beq hname
      obtain rfl : first = value := Option.some.inj (((mem_entries_iff h).mp he).symm.trans hget)
      rfl
    · rfl
  rw [insert, if_pos hcontains, List.map_congr_left hsame, List.map_id']

/-- Reading after entering several names: the value entered last counts. -/
theorem get?_insertAll (table : Table α) (entries : List (String × α)) (name : String) :
    (table.insertAll entries).get? name =
      ((entries.reverse.find? fun e => e.1 == name).map Prod.snd).or (table.get? name) := by
  induction entries generalizing table with
  | nil => rfl
  | cons e rest ih =>
      have hhere : (table.insert e.1 e.2).get? name =
          (([e].find? fun e => e.1 == name).map Prod.snd).or (table.get? name) := by
        rw [get?_insert]
        by_cases he : e.1 = name <;> simp [he]
      rw [List.reverse_cons, List.find?_append, Option.map_or, Option.or_assoc, ← hhere]
      exact ih (table.insert e.1 e.2)

/-- A table holds the names that were entered. -/
theorem contains_insertAll_empty {entries : List (String × α)} {name : String} :
    (empty.insertAll entries).contains name = true ↔ ∃ e ∈ entries, e.1 = name := by
  rw [contains_eq_isSome, get?_insertAll, get?_empty, Option.or_none, Option.isSome_map,
    List.find?_isSome]
  simp

/-- A table holds what was entered last for each name. -/
theorem mem_entries_insertAll_empty {entries : List (String × α)} {name : String} {value : α} :
    (name, value) ∈ (empty.insertAll entries).entries ↔
      ∃ front back, entries = front ++ (name, value) :: back ∧ ∀ e ∈ back, e.1 ≠ name := by
  have hempty : (empty : Table α).names.Nodup := List.nodup_nil
  rw [mem_entries_iff (nodup_names_insertAll hempty entries), get?_insertAll, get?_empty,
    Option.or_none, Option.map_eq_some_iff]
  constructor
  · rintro ⟨e, hfind, rfl⟩
    obtain ⟨hname, back, front, hsplit, hback⟩ := List.find?_eq_some_iff_append.mp hfind
    obtain rfl : e.1 = name := eq_of_beq hname
    refine ⟨front.reverse, back.reverse, ?_, fun other hother => ?_⟩
    · rw [← List.reverse_reverse entries, hsplit]
      simp
    · simpa using hback other (List.mem_reverse.mp hother)
  · rintro ⟨front, back, rfl, hback⟩
    refine ⟨(name, value), List.find?_eq_some_iff_append.mpr ⟨beq_self_eq_true name, ?_⟩, rfl⟩
    refine ⟨back.reverse, front.reverse, by simp, fun other hother => ?_⟩
    simpa using hback other (List.mem_reverse.mp hother)

/-- A table that holds each name once has as many entries as names with a value. -/
theorem encard_isSome_get? (h : table.names.Nodup) :
    {name | (table.get? name).isSome}.encard = table.size := by
  have hnames : {name | (table.get? name).isSome} = ↑table.names.toFinset := by
    ext name
    simp [mem_names]
  rw [hnames, Set.encard_coe_eq_coe_finsetCard, List.toFinset_card_of_nodup h, names,
    List.length_map, size]

end Table

end TradeScript
