import TradeScript.Data.Basic

/-!
# TradeScript.Server.Shape

Shapes of data: what a message has to look like before it is looked into. A field
that a record does not have counts as null, and fields that a shape does not name
are free.
-/

namespace TradeScript

/-- A shape of data. -/
inductive Shape where
  | any
  | text
  | flag
  /-- Null, or a value of a shape. -/
  | maybe (shape : Shape)
  /-- A list of items of one shape. -/
  | list (item : Shape)
  /-- A map with values of one shape. -/
  | table (value : Shape)
  /-- A map with values of their own shapes for some fields. -/
  | record (fields : List (String × Shape))

namespace Shape

mutual

/-- Has the value this shape? -/
def fits : Shape → Data → Bool
  | .any, _ => true
  | .text, d => d.asString?.isSome
  | .flag, d => d.asBool?.isSome
  | .maybe shape, d =>
      match d with
      | .null => true
      | d => shape.fits d
  | .list item, d =>
      match d with
      | .list items => items.all item.fits
      | _ => false
  | .table value, d =>
      match d with
      | .map entries => entries.all fun e => value.fits e.2
      | _ => false
  | .record fields, d =>
      match d with
      | .map entries => fieldsFit fields entries
      | _ => false

/-- Have the fields of a record their shapes? -/
def fieldsFit : List (String × Shape) → List (String × Data) → Bool
  | [], _ => true
  | (name, shape) :: fields, entries =>
      shape.fits ((Data.lookup entries name).getD .null) && fieldsFit fields entries

end

/-- A map of any kind. -/
def object : Shape :=
  .table .any

/-- A record whose fields may all be left out. -/
def options (fields : List (String × Shape)) : Shape :=
  .record (fields.map fun (name, shape) => (name, .maybe shape))

end Shape

end TradeScript
