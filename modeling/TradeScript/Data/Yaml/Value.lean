import TradeScript.Data.Basic
import TradeScript.Data.Yaml.Node

/-!
# TradeScript.Data.Yaml.Value

Reading YAML as data: a text with one document at most, which is a mapping. A plain
scalar is null, a truth value, a number or a string by its form; any other scalar is a
string, and a tag can ask for one of these kinds. Tags of one's own have no meaning.
Keys are scalars, which stand for their text; of several entries with the same key
the last one counts. An alias stands for a copy of the node it names, and there is a
limit to the number of copies.
-/

namespace TradeScript.Yaml

open Number (splitSign signed isDigitIn valueIn)

/-! ### Scalars -/

/-- Is it a word for null? -/
def isNull (s : String) : Bool :=
  ["~", "null", "Null", "NULL"].contains s

/-- The truth value that a word stands for. -/
def bool? (s : String) : Option Bool :=
  if ["true", "True", "TRUE"].contains s then some true
  else if ["false", "False", "FALSE"].contains s then some false
  else none

/-- Digits with a zero in front, which are a string. -/
def isPadded (cs : List Char) : Bool :=
  match (splitSign cs).2 with
  | '0' :: c :: rest => (c :: rest).all Char.isDigit
  | _ => false

/-- The number that digits to a base stand for, at least one. -/
def natural? (base : Nat) (digits : List Char) : Option Nat :=
  if digits.isEmpty || !digits.all (isDigitIn base) then none else some (valueIn base digits)

/-- A number without its sign. A letter behind a zero names the base. -/
def magnitude? : List Char → Option Nat
  | '0' :: 'x' :: digits => natural? 16 digits
  | '0' :: 'o' :: digits => natural? 8 digits
  | '0' :: 'b' :: digits => natural? 2 digits
  | digits => natural? 10 digits

/-- An integer that fits in 128 bits, with or without a sign. -/
def integer? (cs : List Char) : Option Int :=
  let (negative, body) := splitSign cs
  let bound := if negative then Nat.pow 2 127 + 1 else Nat.pow 2 128
  match magnitude? body with
  | some n => if isPadded cs || bound ≤ n then none else some (signed negative n)
  | none => none

/-- Is it a real number that is less than infinity, or a word for one that is not? -/
def isReal (s : String) : Bool :=
  let infinities := [".inf", ".Inf", ".INF"]
  let words := infinities ++ infinities.map ("+" ++ ·) ++ infinities.map ("-" ++ ·) ++
    [".nan", ".NaN", ".NAN"]
  words.contains s || (Number.Decimal.ofText? s.toList).any Number.Decimal.isFinite

/-- The value of a plain scalar without a tag. -/
def plainValue (s : String) : Data :=
  if s.isEmpty || isNull s then .null
  else
    match bool? s, integer? s.toList with
    | some b, _ => .bool b
    | none, some n => .int n
    | none, none => if isReal s && !isPadded s.toList then .real s else .str s

/-- Is it a tag of one's own? -/
def isOwnTag (tag : String) : Bool :=
  tag.toList.head? == some '!' && tag != "!"

/-- The value of a scalar. -/
def scalarValue? (tag : Option String) (plain : Bool) (s : String) : Option Data :=
  match tag with
  | none | some "!" => some (if plain then plainValue s else .str s)
  | some "tag:yaml.org,2002:null" => if isNull s then some .null else none
  | some "tag:yaml.org,2002:bool" => (bool? s).map .bool
  | some "tag:yaml.org,2002:int" => (integer? s.toList).map .int
  | some "tag:yaml.org,2002:float" => if isReal s then some (.real s) else none
  | some tag => if isOwnTag tag then none else some (.str s)

/-! ### Nodes -/

/-- Something that takes copies of nodes, of which a number is left. -/
abbrev Copying := StateT Nat Option

/-- The node that a node stands for: of several with the same number the last one. -/
def settle (anchored : List (Nat × Node)) : Node → Copying Node
  | .alias number => fun left =>
      match left, anchored.reverse.find? fun e => e.1 == number with
      | left + 1, some (_, node) => some (node, left)
      | _, _ => none
  | node => pure node

/-- The text of a key. -/
def keyText (anchored : List (Nat × Node)) (node : Node) : Copying String := do
  match ← settle anchored node with
  | .scalar _ _ text => pure text
  | _ => failure

/-- The value of a node with at most `depth` levels of collections. -/
def value (anchored : List (Nat × Node)) : (depth : Nat) → Node → Copying Data
  | 0, node => do
      match ← settle anchored node with
      | .scalar props plain text => StateT.lift (scalarValue? props.tag plain text)
      | _ => failure
  | depth + 1, node => do
      match ← settle anchored node with
      | .alias _ => failure
      | .scalar props plain text => StateT.lift (scalarValue? props.tag plain text)
      | .sequence props items =>
          if props.tag.any isOwnTag then failure
          else return .list (← items.mapM (value anchored depth))
      | .mapping props entries =>
          if props.tag.any isOwnTag then failure
          else
            return .record (← entries.mapM fun (key, node) => do
              return (← keyText anchored key, ← value anchored depth node))

/-- The deepest nesting of collections. -/
def maxDepth : Nat := 128

/-- How many copies of nodes are taken, for every mark and scalar of a document. -/
def copiesEach : Nat := 100

/-- The value of the root of a document, which is a mapping with any tag. -/
def rootValue? : Node → Option Data
  | .mapping props entries =>
      let root := Node.mapping { props with tag := none } entries
      ((value root.anchored maxDepth root).run (root.size * copiesEach)).map Prod.fst
  | _ => none

/-- Read a text as the entries of its root mapping. -/
def parse (text : String) : Option (List (String × Data)) := do
  match ← root? (← tokens? text.toList) with
  | none => some []
  | some root =>
      match ← rootValue? root with
      | .map entries => some entries
      | _ => none

end TradeScript.Yaml
