/-!
# TradeScript.Table

Tables from names to values, in the order in which the names were first entered.
A table holds each name once.
-/

namespace TradeScript

/-- A table, as its entries in order. -/
structure Table (α : Type) where
  entries : List (String × α)
  deriving Repr, DecidableEq

namespace Table

variable {α : Type}

/-- The table without entries. -/
def empty : Table α :=
  ⟨[]⟩

/-- Is the name in the table? -/
def contains (table : Table α) (name : String) : Bool :=
  table.entries.any fun e => e.1 == name

/-- The value of a name. -/
def get? (table : Table α) (name : String) : Option α :=
  (table.entries.find? fun e => e.1 == name).map Prod.snd

/-- Enter a name. A name that is there keeps its place and gets the new value. -/
def insert (table : Table α) (name : String) (value : α) : Table α :=
  if table.contains name then
    ⟨table.entries.map fun e => if e.1 == name then (name, value) else e⟩
  else ⟨table.entries ++ [(name, value)]⟩

/-- Enter several names, one after the other. -/
def insertAll (table : Table α) (entries : List (String × α)) : Table α :=
  entries.foldl (fun t e => t.insert e.1 e.2) table

/-- Take a name out. -/
def erase (table : Table α) (name : String) : Table α :=
  ⟨table.entries.filter fun e => !(e.1 == name)⟩

/-- The number of names. -/
def size (table : Table α) : Nat :=
  table.entries.length

@[simp] theorem get?_empty (name : String) : (empty : Table α).get? name = none := rfl

theorem contains_eq_isSome (table : Table α) (name : String) :
    table.contains name = (table.get? name).isSome := by
  simp only [contains, get?, Option.isSome_map]
  induction table.entries with
  | nil => rfl
  | cons e rest ih => by_cases h : e.1 = name <;> simp_all

theorem find?_map_set (entries : List (String × α)) (name other : String) (value : α) :
    ((entries.map fun e => if e.1 == name then (name, value) else e).find?
        fun e => e.1 == other).map Prod.snd =
      if name = other then (entries.find? fun e => e.1 == name).map fun _ => value
      else (entries.find? fun e => e.1 == other).map Prod.snd := by
  induction entries with
  | nil => by_cases h : name = other <;> simp [h]
  | cons e rest ih =>
      by_cases he : e.1 = name <;> by_cases ho : name = other <;>
        by_cases hx : e.1 = other <;> simp_all

/-- Reading after entering a name: that name has the new value, all others are
as before. -/
theorem get?_insert (table : Table α) (name other : String) (value : α) :
    (table.insert name value).get? other =
      if name = other then some value else table.get? other := by
  unfold insert
  split
  · rename_i h
    rw [contains_eq_isSome] at h
    simp only [get?, find?_map_set]
    split
    · obtain ⟨v, hv⟩ := Option.isSome_iff_exists.mp h
      simp only [get?, Option.map_eq_some_iff] at hv
      obtain ⟨e, he, -⟩ := hv
      simp [he]
    · rfl
  · rename_i h
    rw [contains_eq_isSome] at h
    simp only [Bool.not_eq_true, Option.isSome_eq_false_iff, Option.isNone_iff_eq_none] at h
    simp only [get?, List.find?_append, List.find?_cons, List.find?_nil]
    by_cases ho : name = other
    · subst ho
      simp only [get?, Option.map_eq_none_iff] at h
      simp [h]
    · have hb : (name == other) = false := by simp [ho]
      simp [hb, ho]

/-- Reading after taking a name out. -/
theorem get?_erase (table : Table α) (name other : String) :
    (table.erase name).get? other = if name = other then none else table.get? other := by
  simp only [get?, erase, List.find?_filter]
  split
  · rename_i h
    simp only [Option.map_eq_none_iff, List.find?_eq_none]
    intro e _
    simp [h]
  · rename_i h
    congr 2
    funext e
    by_cases he : e.1 = other
    · subst he
      simp [Ne.symm h]
    · simp [he]

theorem mem_entries_insert {table : Table α} {name : String} {value : α} {e : String × α}
    (h : e ∈ (table.insert name value).entries) : e ∈ table.entries ∨ e = (name, value) := by
  unfold insert at h
  split at h
  · obtain ⟨e', he', rfl⟩ := List.mem_map.mp h
    split
    · exact Or.inr rfl
    · exact Or.inl he'
  · rcases List.mem_append.mp h with h | h
    · exact Or.inl h
    · exact Or.inr (List.mem_singleton.mp h)

/-- What a table holds after entering several names was there or was entered. -/
theorem mem_entries_insertAll {table : Table α} {entries : List (String × α)} {e : String × α}
    (h : e ∈ (table.insertAll entries).entries) : e ∈ table.entries ∨ e ∈ entries := by
  induction entries generalizing table with
  | nil => exact Or.inl h
  | cons first rest ih =>
      rcases ih h with h | h
      · rcases mem_entries_insert h with h | rfl
        · exact Or.inl h
        · exact Or.inr List.mem_cons_self
      · exact Or.inr (List.mem_cons_of_mem _ h)

end Table

end TradeScript
