/-!
# TradeScript.Data.Basic

Structured data: what settings files hold and what results are written as.
Records are maps from field names to values; when read, a record may also be the
list of its values in the order of its fields.
-/

namespace TradeScript

/-- Structured data. The entries of a map are in the order in which they were
written. -/
inductive Data where
  | null
  | bool (b : Bool)
  | int (n : Int)
  /-- A number that is not an integer, as it was written. -/
  | real (literal : String)
  | str (s : String)
  | list (items : List Data)
  | map (entries : List (String × Data))
  deriving Inhabited

namespace Data

/-- A natural number as data. -/
def nat (n : Nat) : Data :=
  .int n

/-- A list of strings as data. -/
def strings (items : List String) : Data :=
  .list (items.map .str)

/-- The value, or null. -/
def option {α : Type} (encode : α → Data) : Option α → Data
  | none => .null
  | some a => encode a

/-- The entry that counts for a key: of several the last. -/
def lookup (entries : List (String × Data)) (key : String) : Option Data :=
  (entries.reverse.find? fun e => e.1 == key).map Prod.snd

/-- Give a key a value, in its place if it has one. -/
def put (entries : List (String × Data)) (key : String) (d : Data) : List (String × Data) :=
  if entries.any fun e => e.1 == key then
    entries.map fun e => if e.1 == key then (key, d) else e
  else entries ++ [(key, d)]

/-- A map of entries as they are read: of several for one key the last one counts. -/
def record (entries : List (String × Data)) : Data :=
  .map (entries.foldl (fun es (key, d) => put es key d) [])

mutual

/-- What two sources say about one thing. Of two maps all keys count, and what both
say about a key is joined in the same way; else the second source is right. -/
def merge (low : Data) : Data → Data
  | .map entries =>
      match low with
      | .map lower => .map (mergeEntries lower entries)
      | _ => .map entries
  | d => d

/-- The entries of a map with those of another one merged into them. -/
def mergeEntries (lower : List (String × Data)) : List (String × Data) → List (String × Data)
  | [] => lower
  | (key, d) :: entries =>
      let joined := match lookup lower key with
        | some old => merge old d
        | none => d
      mergeEntries (put lower key joined) entries

end

/-- The value of a field of a record with the given fields. -/
def field? (fields : List String) (record : Data) (name : String) : Option Data :=
  match record with
  | .map entries => lookup entries name
  | .list items => lookup (fields.zip items) name
  | _ => none

/-- Is it a record with at most the given fields, if it is given as a list? -/
def isRecord (fields : List String) : Data → Bool
  | .map _ => true
  | .list items => items.length ≤ fields.length
  | _ => false

/-- A string. -/
def asString? : Data → Option String
  | .str s => some s
  | _ => none

/-- A truth value. -/
def asBool? : Data → Option Bool
  | .bool b => some b
  | _ => none

/-- A natural number below a bound. -/
def asNatBelow? (bound : Nat) : Data → Option Nat
  | .int n => if 0 ≤ n ∧ n < bound then some n.toNat else none
  | _ => none

/-- A natural number of 64 bits. -/
def asNat64? : Data → Option Nat :=
  asNatBelow? (Nat.pow 2 64)

/-- A number of 32 bits. -/
def asUInt32? (d : Data) : Option UInt32 :=
  (d.asNatBelow? UInt32.size).map UInt32.ofNat

/-- The name of an alternative: a string, or a map from the name to null. -/
def asTag? : Data → Option String
  | .str s => some s
  | .map [(s, .null)] => some s
  | _ => none

/-- The first entry in the order of the keys. -/
def firstEntry? (entries : List (String × Data)) : Option (String × Data) :=
  entries.foldl (fun first e =>
    match first with
    | some f => if e.1 < f.1 then some e else some f
    | none => some e) none

/-- The name of an alternative: a string, or a map whose first entry is from the name
to null. -/
def asLeadingTag? : Data → Option String
  | .str s => some s
  | .map entries =>
      match firstEntry? entries with
      | some (s, .null) => some s
      | _ => none
  | _ => none

/-- A list of which every item can be read. -/
def asList? {α : Type} (decode : Data → Option α) : Data → Option (List α)
  | .list items => items.mapM decode
  | _ => none

/-- Null, or a value that can be read. -/
def asOption? {α : Type} (decode : Data → Option α) : Data → Option (Option α)
  | .null => some none
  | d => (decode d).map some

end Data

end TradeScript
