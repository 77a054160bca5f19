import TradeScript.Proofs.Data.Merge
import TradeScript.Settings.Layers

/-!
# TradeScript.Proofs.Data.Keys

Whatever format settings come in, each key stands once in what is read. JSON and YAML
read the entries of a record one after the other and let the last one of a key count.
TOML changes the table at its root only by giving a name a meaning, in its place if it
has one. The variables of the environment are merged into an empty record.
-/

namespace TradeScript

open Data (keys)

/-! ### JSON -/

namespace Json

theorem isMap_integer (negative : Bool) (n : Nat) (literal : String) :
    (integer negative n literal).isMap = false := by
  unfold integer
  repeat' split
  all_goals rfl

theorem isMap_of_unsigned? {negative : Bool} {cs rest : List Char} {d : Data}
    (h : unsigned? negative cs = some (d, rest)) : d.isMap = false := by
  simp only [unsigned?, Option.bind_eq_bind, Option.bind_eq_some_iff] at h
  obtain ⟨⟨whole, _⟩, -, ⟨fraction, _⟩, -, ⟨exponent, _⟩, -, h⟩ := h
  split at h
  · simp at h
  · split at h
    · obtain ⟨rfl, -⟩ := Prod.mk.inj (Option.some.inj h)
      exact isMap_integer negative _ _
    · obtain ⟨rfl, -⟩ := Prod.mk.inj (Option.some.inj h)
      rfl

/-- A number is no map. -/
theorem isMap_of_number? {cs rest : List Char} {d : Data} (h : number? cs = some (d, rest)) :
    d.isMap = false := by
  unfold number? at h
  split at h
  · exact isMap_of_unsigned? h
  · exact isMap_of_unsigned? h

theorem nodup_keys_of_value? {fuel depth : Nat} {cs rest : List Char}
    {entries : List (String × Data)} (h : value? fuel depth cs = some (.map entries, rest)) :
    (keys entries).Nodup := by
  cases fuel with
  | zero => simp [value?] at h
  | succ fuel =>
      rw [value?] at h
      -- Only a brace starts a map: the empty one or one with members.
      split at h
      · simp at h
      · simp at h
      · simp at h
      · simp at h
      · split at h <;> simp at h
      · split at h
        · simp at h
        · obtain ⟨hempty, -⟩ := Prod.mk.inj (Option.some.inj h)
          obtain rfl : [] = entries := Data.map.inj hempty
          exact List.nodup_nil
        · obtain ⟨⟨members, _⟩, -, hrecord⟩ := Option.map_eq_some_iff.mp h
          exact Data.nodup_keys_of_record (Prod.mk.inj hrecord).1
      · exact absurd (isMap_of_number? h) (by simp [Data.isMap])

theorem nodup_keys_of_parse {text : String} {entries : List (String × Data)}
    (h : parse text = some (.map entries)) : (keys entries).Nodup := by
  simp only [parse] at h
  split at h
  · next v rest hread =>
      split at h
      · obtain rfl : v = .map entries := Option.some.inj h
        exact nodup_keys_of_value? hread
      · simp at h
  · simp at h

end Json

/-! ### YAML -/

namespace Yaml

theorem nodup_keys_of_rootValue? {root : Node} {entries : List (String × Data)}
    (h : rootValue? root = some (.map entries)) : (keys entries).Nodup := by
  cases root with
  | mapping props members =>
      obtain ⟨⟨d, left⟩, hvalue, rfl⟩ := Option.map_eq_some_iff.mp h
      rw [maxDepth, value] at hvalue
      obtain ⟨⟨read, left⟩, -, hrecord⟩ := Option.bind_eq_some_iff.mp hvalue
      exact Data.nodup_keys_of_record (Prod.mk.inj (Option.some.inj hrecord)).1
  | _ => simp [rootValue?] at h

theorem nodup_keys_of_parse {text : String} {entries : List (String × Data)}
    (h : parse text = some entries) : (keys entries).Nodup := by
  simp only [parse, Option.bind_eq_bind, Option.bind_eq_some_iff] at h
  obtain ⟨tokens, -, root, -, h⟩ := h
  cases root with
  | none =>
      obtain rfl : [] = entries := Option.some.inj h
      exact List.nodup_nil
  | some root =>
      simp only [Option.bind_eq_some_iff] at h
      obtain ⟨d, hd, h⟩ := h
      cases d with
      | map read =>
          obtain rfl : read = entries := Option.some.inj h
          exact nodup_keys_of_rootValue? hd
      | _ => simp at h

end Yaml

/-! ### TOML -/

namespace Toml

/-- The names in a table. -/
def names (entries : Entries) : List String :=
  entries.map Prod.fst

theorem nodup_names_put {entries : Entries} (h : (names entries).Nodup) (name : String)
    (node : Node) : (names (put entries name node)).Nodup := by
  have htable : (⟨entries⟩ : Table Node).names.Nodup := h
  rw [put, ← Table.entries_insert ⟨entries⟩]
  exact Table.nodup_names_insert htable name node

/-- A change of a table that gives one name a meaning. -/
def Gives (change : Entries → Option Entries) : Prop :=
  ∀ entries changed, change entries = some changed → ∃ name node, changed = put entries name node

theorem openTable_gives (name : String) : Gives (openTable name) := by
  intro entries changed h
  unfold openTable at h
  split at h
  · exact ⟨name, _, (Option.some.inj h).symm⟩
  · exact ⟨name, _, (Option.some.inj h).symm⟩
  · simp at h

theorem openItem_gives (name : String) : Gives (openItem name) := by
  intro entries changed h
  unfold openItem at h
  split at h
  · exact ⟨name, _, (Option.some.inj h).symm⟩
  · exact ⟨name, _, (Option.some.inj h).symm⟩
  · simp at h

theorem addValue_gives (d : Data) (name : String) (more : List String) :
    Gives (addValue d · name more) := by
  intro entries changed h
  cases more with
  | nil =>
      simp only [addValue, addAt] at h
      split at h
      · exact ⟨name, _, (Option.some.inj h).symm⟩
      · simp at h
  | cons second more =>
      simp only [addValue, addAt] at h
      split at h
      all_goals
        simp only [reduceCtorEq, Option.map_eq_some_iff] at h
      all_goals
        obtain ⟨es, -, rfl⟩ := h
        exact ⟨name, _, rfl⟩

theorem within_gives (path : List String) {change : Entries → Option Entries}
    (hchange : Gives change) : Gives (within · path change) := by
  intro entries changed h
  cases path with
  | nil => exact hchange entries changed h
  | cons name path =>
      simp only [within] at h
      split at h
      all_goals
        simp only [reduceCtorEq, Option.map_eq_some_iff] at h
      all_goals
        obtain ⟨es, -, rfl⟩ := h
        exact ⟨name, _, rfl⟩

theorem Gives.nodup_names {change : Entries → Option Entries} (hchange : Gives change)
    {entries changed : Entries} (h : change entries = some changed)
    (hnodup : (names entries).Nodup) : (names changed).Nodup := by
  obtain ⟨name, node, rfl⟩ := hchange entries changed h
  exact nodup_names_put hnodup name node

/-- An expression changes the root as a header, the header of an item or a value does. -/
theorem nodup_names_expression? {state after : State} {cs rest : List Char}
    (h : expression? state cs = some (after, rest)) (hroot : (names state.root).Nodup) :
    (names after.root).Nodup := by
  unfold expression? at h
  split at h
  · simp only [Option.bind_eq_bind, Option.bind_eq_some_iff] at h
    obtain ⟨header, -, h⟩ := h
    split at h
    · obtain ⟨root, hchange, h⟩ := Option.bind_eq_some_iff.mp h
      obtain ⟨rfl, -⟩ := Prod.mk.inj (Option.some.inj h)
      exact (within_gives _ (openItem_gives _)).nodup_names hchange hroot
    · simp at h
  · simp only [Option.bind_eq_bind, Option.bind_eq_some_iff] at h
    obtain ⟨header, -, h⟩ := h
    split at h
    · obtain ⟨root, hchange, h⟩ := Option.bind_eq_some_iff.mp h
      obtain ⟨rfl, -⟩ := Prod.mk.inj (Option.some.inj h)
      exact (within_gives _ (openTable_gives _)).nodup_names hchange hroot
    · simp at h
  · simp only [Option.bind_eq_bind, Option.bind_eq_some_iff] at h
    obtain ⟨⟨⟨name, more⟩, _⟩, -, h⟩ := h
    split at h
    · simp only [Option.bind_eq_some_iff] at h
      obtain ⟨⟨d, _⟩, -, root, hchange, h⟩ := h
      obtain ⟨rfl, -⟩ := Prod.mk.inj (Option.some.inj h)
      exact (within_gives _ (addValue_gives d name more)).nodup_names hchange hroot
    · simp at h

theorem nodup_names_expressions? {fuel : Nat} {state after : State} {cs : List Char}
    (h : expressions? fuel state cs = some after) (hroot : (names state.root).Nodup) :
    (names after.root).Nodup := by
  induction fuel generalizing state cs with
  | zero => simp [expressions?] at h
  | succ fuel ih =>
      simp only [expressions?, Option.bind_eq_bind, Option.bind_eq_some_iff] at h
      obtain ⟨cs, -, h⟩ := h
      split at h
      · obtain rfl : state = after := Option.some.inj h
        exact hroot
      · simp only [Option.bind_eq_some_iff] at h
        obtain ⟨⟨next, rest⟩, hnext, rest, -, h⟩ := h
        have hnext := nodup_names_expression? hnext hroot
        split at h
        · obtain rfl : next = after := Option.some.inj h
          exact hnext
        · simp only [Option.bind_eq_some_iff] at h
          obtain ⟨rest, -, h⟩ := h
          exact ih h hnext

theorem keys_entriesData (entries : Entries) : keys (entriesData entries) = names entries := by
  induction entries with
  | nil => simp [entriesData, keys, names]
  | cons e entries ih =>
      simp only [keys, names] at ih
      simp [entriesData, keys, names, ih]

theorem nodup_keys_of_parse {text : String} {entries : List (String × Data)}
    (h : parse text = some entries) : (keys entries).Nodup := by
  obtain ⟨state, hstate, rfl⟩ := Option.map_eq_some_iff.mp h
  rw [keys_entriesData]
  exact nodup_names_expressions? hstate List.nodup_nil

end Toml

/-! ### Layers -/

namespace Layer

theorem nodup_keys_of_ofText? {path text : String} {layer : Layer}
    (h : ofText? path text = some layer) : (keys layer).Nodup := by
  unfold ofText? at h
  split at h
  · exact Yaml.nodup_keys_of_parse h
  · exact Yaml.nodup_keys_of_parse h
  · split at h
    · next entries hread =>
        obtain rfl : entries = layer := Option.some.inj h
        exact Json.nodup_keys_of_parse hread
    · simp at h
  · exact Toml.nodup_keys_of_parse h

theorem nodup_keys_of_ofEnvironment {environment : List (String × String)} {layer : Layer}
    (h : ofEnvironment environment = .ok layer) : (keys layer).Nodup := by
  simp only [ofEnvironment, bind, Except.bind] at h
  split at h
  · simp at h
  · obtain rfl := Except.ok.inj h
    have hempty : (keys []).Nodup := List.nodup_nil
    exact Data.nodup_keys_mergeEntries hempty _

end Layer

end TradeScript
