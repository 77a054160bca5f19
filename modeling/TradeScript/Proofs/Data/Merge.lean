import TradeScript.Data.Basic
import TradeScript.Proofs.Table

/-!
# TradeScript.Proofs.Data.Merge

Merging records key by key. A record is read by `Data.lookup`, and merging one into
another changes what is read in one way only (`lookup_mergeEntries`): a key that the
second record has gets its value merged with what the first has for it. All other keys
stay as they are. This needs every key of the second record to be there once, which is
how records are built (`nodup_keys_put`).

Several values for one thing, one after the other, come to their fold under `Data.merge`
(`Data.joined`). The last one stands as it is, unless it is a map and the one before it
is a map too.
-/

namespace TradeScript.Data

/-! ### Keys -/

/-- The keys of a record. -/
def keys (entries : List (String × Data)) : List String :=
  entries.map Prod.fst

theorem nodup_keys_put {entries : List (String × Data)} (h : (keys entries).Nodup) (key : String)
    (d : Data) : (keys (put entries key d)).Nodup := by
  have htable : (⟨entries⟩ : Table Data).names.Nodup := h
  rw [put, ← Table.entries_insert ⟨entries⟩]
  exact Table.nodup_names_insert htable key d

/-- A map that is read has each key once. -/
theorem nodup_keys_of_record {read entries : List (String × Data)}
    (h : record read = .map entries) : (keys entries).Nodup := by
  obtain rfl : _ = entries := Data.map.inj h
  exact List.foldlRecOn (motive := fun es => (keys es).Nodup) read _ List.nodup_nil
    fun _ hes e _ => nodup_keys_put hes e.1 e.2

theorem nodup_keys_mergeEntries {lower : List (String × Data)} (h : (keys lower).Nodup)
    (entries : List (String × Data)) : (keys (mergeEntries lower entries)).Nodup := by
  induction entries generalizing lower with
  | nil => simpa [mergeEntries] using h
  | cons e rest ih =>
      rw [mergeEntries]
      exact ih (nodup_keys_put h _ _)

/-! ### Reading -/

@[simp] theorem lookup_nil (key : String) : lookup [] key = none := rfl

theorem lookup_cons (e : String × Data) (entries : List (String × Data)) (key : String) :
    lookup (e :: entries) key =
      (lookup entries key).or (if e.1 = key then some e.2 else none) := by
  by_cases h : e.1 = key
  · simp [lookup, List.find?_append, h]
  · simp [lookup, List.find?_append, h]

theorem lookup_eq_none {entries : List (String × Data)} {key : String} (h : key ∉ keys entries) :
    lookup entries key = none := by
  simp only [lookup, Option.map_eq_none_iff, List.find?_eq_none, beq_iff_eq, List.mem_reverse]
  intro e he hkey
  exact h (List.mem_map.mpr ⟨e, he, hkey⟩)

/-- Reading after writing: that key has the new value, all others are as before. -/
theorem lookup_put (entries : List (String × Data)) (key other : String) (d : Data) :
    lookup (put entries key d) other = if key = other then some d else lookup entries other := by
  cases h : entries.any fun e => e.1 == key with
  | true =>
      obtain ⟨e, he, hkey⟩ := List.any_eq_true.mp h
      have hfound : (entries.reverse.find? fun e => e.1 == key).isSome := by
        rw [List.find?_isSome]
        exact ⟨e, List.mem_reverse.mpr he, hkey⟩
      obtain ⟨found, hfound⟩ := Option.isSome_iff_exists.mp hfound
      simp only [put, h, if_true, lookup, ← List.map_reverse, Table.find?_map_set, hfound,
        Option.map_some]
  | false =>
      by_cases hother : key = other
      · subst hother
        simp [put, h, lookup]
      · simp [put, h, lookup, hother]

/-! ### Merging records -/

/-- A value merged into nothing stays as it is. -/
theorem null_merge (d : Data) : merge .null d = d := by
  cases d <;> simp [merge]

/-- What merging a record into another one does to a key. -/
theorem lookup_mergeEntries {entries : List (String × Data)} (h : (keys entries).Nodup)
    (lower : List (String × Data)) (key : String) :
    lookup (mergeEntries lower entries) key =
      match lookup entries key with
      | some d => some (merge ((lookup lower key).getD .null) d)
      | none => lookup lower key := by
  induction entries generalizing lower with
  | nil => simp [mergeEntries]
  | cons e rest ih =>
      obtain ⟨name, d⟩ := e
      obtain ⟨hname, hrest⟩ := List.nodup_cons.mp h
      have hjoined : (match lookup lower name with
          | some old => merge old d
          | none => d) = merge ((lookup lower name).getD .null) d := by
        cases lookup lower name with
        | some old => rfl
        | none => exact (null_merge d).symm
      rw [mergeEntries, ih hrest, lookup_cons, lookup_put]
      by_cases hkey : name = key
      · subst hkey
        simp only [lookup_eq_none hname, Option.none_or, if_true]
        exact congrArg some hjoined
      · simp [hkey]

/-! ### Several values for one thing -/

/-- What is said about one thing, each value overruling what was said before it, only that
maps are joined. -/
def joined (values : List Data) : Data :=
  values.foldl merge .null

/-- Is it a map? -/
def isMap : Data → Bool
  | .map _ => true
  | _ => false

theorem joined_concat (before : List Data) (d : Data) :
    joined (before ++ [d]) = (joined before).merge d := by
  simp [joined, List.foldl_append]

/-- A value overrules what was said before it, unless both are maps. -/
theorem merge_eq_of_not_isMap {low d : Data} (h : low.isMap = false ∨ d.isMap = false) :
    low.merge d = d := by
  cases d with
  | map entries =>
      cases low with
      | map lower => simp [isMap] at h
      | _ => simp [merge]
  | _ => simp [merge]

theorem isMap_merge (low d : Data) : (low.merge d).isMap = d.isMap := by
  cases d with
  | map entries =>
      cases low with
      | map lower => simp [merge, isMap]
      | _ => simp [merge, isMap]
  | _ => simp [merge, isMap]

/-- What values come to is a map if the last one is. -/
theorem isMap_joined (values : List Data) : (joined values).isMap = values.getLast?.any isMap := by
  cases values using List.reverseRecOn with
  | nil => rfl
  | append_singleton before last _ =>
      rw [joined_concat, isMap_merge, List.getLast?_concat]
      rfl

/-- The last value stands as it is, unless it and the one before it are maps. -/
theorem joined_concat_eq {before : List Data} {last : Data}
    (h : (last.isMap && before.getLast?.any isMap) = false) : joined (before ++ [last]) = last := by
  rw [joined_concat]
  refine merge_eq_of_not_isMap ?_
  rw [isMap_joined]
  exact (Bool.and_eq_false_iff.mp h).symm

/-- A first value that is no map leaves no trace behind a second one. -/
theorem joined_cons_of_not_isMap {first : Data} (h : first.isMap = false) (d : Data)
    (values : List Data) : joined (first :: d :: values) = joined (d :: values) := by
  simp only [joined, List.foldl_cons, null_merge, merge_eq_of_not_isMap (.inl h)]

/-- A key of records that are merged one after the other: what those say that have it. -/
theorem lookup_foldl_mergeEntries {records : List (List (String × Data))}
    (h : ∀ entries ∈ records, (keys entries).Nodup) (lower : List (String × Data)) (key : String) :
    lookup (records.foldl mergeEntries lower) key =
      match records.filterMap (lookup · key) with
      | [] => lookup lower key
      | values => some (values.foldl merge ((lookup lower key).getD .null)) := by
  induction records generalizing lower with
  | nil => rfl
  | cons entries rest ih =>
      have hentries := h entries List.mem_cons_self
      rw [List.foldl_cons, ih (fun es hes => h es (List.mem_cons_of_mem _ hes)),
        lookup_mergeEntries hentries, List.filterMap_cons]
      cases lookup entries key with
      | none => rfl
      | some d => cases rest.filterMap (lookup · key) <;> rfl

end TradeScript.Data
