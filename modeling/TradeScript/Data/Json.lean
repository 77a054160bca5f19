import TradeScript.Data.Basic
import TradeScript.Data.Number

/-!
# TradeScript.Data.Json

Reading and writing data as JSON. Reading is strict: one value, nothing but
white space around it, no control characters in strings, no unpaired surrogates,
and at most `maxDepth` levels of nesting. An integer that fits in 64 bits is an
integer; every other number is a real number, which must not be too large for a
double. Its size is computed in doubles, from as many of its digits as fit in 64
bits and a power of ten. Of several members with the same name the last one counts.
-/

namespace TradeScript.Json

open Number (hexDigit? digitsValue splitSign signed)

/-- The deepest nesting of lists and maps that is read. -/
def maxDepth : Nat := 127

/-! ### Reading -/

/-- The white space of JSON. -/
def isSpace (c : Char) : Bool :=
  c == ' ' || c == '\n' || c == '\r' || c == '\t'

/-- The text from its first character that is not white space. -/
def skipSpace (cs : List Char) : List Char :=
  cs.dropWhile isSpace

/-- Four hexadecimal digits. -/
def hex4? : List Char → Option (Nat × List Char)
  | a :: b :: c :: d :: rest => do
      let a ← hexDigit? a
      let b ← hexDigit? b
      let c ← hexDigit? c
      let d ← hexDigit? d
      some (((a * 16 + b) * 16 + c) * 16 + d, rest)
  | _ => none

/-- The character that the digits after `\u` stand for. The first half of a pair
needs the second half, as another `\u`, right behind it. -/
def unicodeEscape? (cs : List Char) : Option (Char × List Char) :=
  match hex4? cs with
  | none => none
  | some (high, rest) =>
      if 0xD800 ≤ high ∧ high < 0xDC00 then
        match rest with
        | '\\' :: 'u' :: rest =>
            match hex4? rest with
            | some (low, rest) =>
                if 0xDC00 ≤ low ∧ low < 0xE000 then
                  some (Char.ofNat (0x10000 + (high - 0xD800) * 0x400 + (low - 0xDC00)), rest)
                else none
            | none => none
        | _ => none
      else if 0xDC00 ≤ high ∧ high < 0xE000 then none
      else some (Char.ofNat high, rest)

/-- The character that a letter after a backslash stands for. -/
def simpleEscape? : Char → Option Char
  | '"' => some '"'
  | '\\' => some '\\'
  | '/' => some '/'
  | 'b' => some '\x08'
  | 'f' => some '\x0c'
  | 'n' => some '\n'
  | 'r' => some '\r'
  | 't' => some '\t'
  | _ => none

/-- One character of a string: `none` for the closing quote. -/
def stringChar? : List Char → Option (Option Char × List Char)
  | '"' :: rest => some (none, rest)
  | '\\' :: 'u' :: rest => (unicodeEscape? rest).map fun (c, rest) => (some c, rest)
  | '\\' :: e :: rest => (simpleEscape? e).map fun c => (some c, rest)
  | c :: rest => if c.toNat < 0x20 || c == '\\' then none else some (some c, rest)
  | [] => none

/-- The rest of a string, behind its opening quote; it has fewer than `fuel`
characters. -/
def stringFrom? : (fuel : Nat) → List Char → Option (List Char × List Char)
  | 0, _ => none
  | fuel + 1, cs =>
      match stringChar? cs with
      | none => none
      | some (none, rest) => some ([], rest)
      | some (some c, rest) => (stringFrom? fuel rest).map fun (s, rest) => (c :: s, rest)

/-- A string, behind its opening quote. -/
def string? (cs : List Char) : Option (String × List Char) :=
  (stringFrom? (cs.length + 1) cs).map fun (s, rest) => (String.ofList s, rest)

/-- Decimal digits, at least one. -/
def digits? (cs : List Char) : Option (List Char × List Char) :=
  match cs.takeWhile Char.isDigit with
  | [] => none
  | digits => some (digits, cs.dropWhile Char.isDigit)

/-- Digits without a zero in front, except for zero itself. -/
def wholePart? (cs : List Char) : Option (List Char × List Char) :=
  match digits? cs with
  | some ('0' :: _ :: _, _) => none
  | r => r

/-- The digits behind a point, if there is one; there has to be one behind it. -/
def fraction? : List Char → Option (List Char × List Char)
  | '.' :: rest => digits? rest
  | cs => some ([], cs)

/-- The exponent, if there is one. -/
def exponent? : List Char → Option (Option Int × List Char)
  | 'e' :: rest | 'E' :: rest =>
      let (negative, rest) := splitSign rest
      (digits? rest).map fun (ds, rest) => (some (signed negative (digitsValue ds)), rest)
  | cs => some (none, cs)

/-- An integer that fits in 64 bits, else a real number. Minus zero is none. -/
def integer (negative : Bool) (n : Nat) (literal : String) : Data :=
  if negative then
    if 0 < n ∧ n ≤ Nat.pow 2 63 then .int (-(n : Int)) else .real literal
  else if n < Nat.pow 2 64 then .int n
  else .real literal

/-- A number, behind its sign. -/
def unsigned? (negative : Bool) (cs : List Char) : Option (Data × List Char) := do
  let (whole, rest) ← wholePart? cs
  let (fraction, rest) ← fraction? rest
  let (exponent, rest) ← exponent? rest
  let s := Number.Significand.ofDigits whole fraction
  let sign := if negative then ['-'] else []
  let literal := String.ofList (sign ++ cs.take (cs.length - rest.length))
  if !Number.scaledFits s.value (s.exponent + exponent.getD 0) then none
  else if fraction.isEmpty && exponent.isNone then
    some (integer negative (digitsValue whole) literal, rest)
  else some (.real literal, rest)

/-- A number. -/
def number? : List Char → Option (Data × List Char)
  | '-' :: rest => unsigned? true rest
  | cs => unsigned? false cs

mutual

/-- A value with at most `depth` levels of nesting. Every second step takes a
character, so twice the length of the text is enough fuel. -/
def value? : (fuel depth : Nat) → List Char → Option (Data × List Char)
  | 0, _, _ => none
  | fuel + 1, depth, cs =>
      match skipSpace cs with
      | 'n' :: 'u' :: 'l' :: 'l' :: rest => some (.null, rest)
      | 't' :: 'r' :: 'u' :: 'e' :: rest => some (.bool true, rest)
      | 'f' :: 'a' :: 'l' :: 's' :: 'e' :: rest => some (.bool false, rest)
      | '"' :: rest => (string? rest).map fun (s, rest) => (.str s, rest)
      | '[' :: rest =>
          match depth, skipSpace rest with
          | 0, _ => none
          | _, ']' :: rest => some (.list [], rest)
          | depth + 1, rest => (items? fuel depth rest).map fun (vs, rest) => (.list vs, rest)
      | '{' :: rest =>
          match depth, skipSpace rest with
          | 0, _ => none
          | _, '}' :: rest => some (.map [], rest)
          | depth + 1, rest => (members? fuel depth rest).map fun (es, rest) => (.record es, rest)
      | cs => number? cs

/-- The items of a list that has some, up to its end. -/
def items? : (fuel depth : Nat) → List Char → Option (List Data × List Char)
  | 0, _, _ => none
  | fuel + 1, depth, cs =>
      match value? fuel depth cs with
      | none => none
      | some (v, rest) =>
          match skipSpace rest with
          | ',' :: rest => (items? fuel depth rest).map fun (vs, rest) => (v :: vs, rest)
          | ']' :: rest => some ([v], rest)
          | _ => none

/-- The members of a map that has some, up to its end. -/
def members? : (fuel depth : Nat) → List Char → Option (List (String × Data) × List Char)
  | 0, _, _ => none
  | fuel + 1, depth, cs =>
      match skipSpace cs with
      | '"' :: rest =>
          match string? rest with
          | none => none
          | some (key, rest) =>
              match skipSpace rest with
              | ':' :: rest =>
                  match value? fuel depth rest with
                  | none => none
                  | some (v, rest) =>
                      match skipSpace rest with
                      | ',' :: rest =>
                          (members? fuel depth rest).map fun (es, rest) => ((key, v) :: es, rest)
                      | '}' :: rest => some ([(key, v)], rest)
                      | _ => none
              | _ => none
      | _ => none

end

/-- Read a text that is one JSON value. -/
def parse (text : String) : Option Data :=
  let cs := text.toList
  match value? (2 * cs.length + 2) maxDepth cs with
  | some (v, rest) => if (skipSpace rest).isEmpty then some v else none
  | none => none

/-! ### Writing -/

/-- A hexadecimal digit. -/
def hexChar (n : Nat) : Char :=
  if n < 10 then Char.ofNat ('0'.toNat + n) else Char.ofNat ('a'.toNat + (n - 10))

/-- A character as it stands in a string. -/
def escape (c : Char) : List Char :=
  if c = '"' then ['\\', '"']
  else if c = '\\' then ['\\', '\\']
  else if c = '\x08' then ['\\', 'b']
  else if c = '\x0c' then ['\\', 'f']
  else if c = '\n' then ['\\', 'n']
  else if c = '\r' then ['\\', 'r']
  else if c = '\t' then ['\\', 't']
  else if c.toNat < 0x20 then ['\\', 'u', '0', '0', hexChar (c.toNat / 16), hexChar (c.toNat % 16)]
  else [c]

/-- A string in quotes. -/
def quote (s : String) : String :=
  String.ofList ('"' :: s.toList.flatMap escape ++ ['"'])

/-- How lists and maps are laid out. -/
inductive Layout where
  /-- On one line, without spaces. -/
  | compact
  /-- Every item on a line of its own, indented by two spaces a level. -/
  | pretty

namespace Layout

/-- What stands in front of an item at a level. -/
def newline (layout : Layout) (level : Nat) : String :=
  match layout with
  | compact => ""
  | pretty => String.ofList ('\n' :: List.replicate (2 * level) ' ')

/-- What stands between a key and its value. -/
def colon : Layout → String
  | compact => ":"
  | pretty => ": "

/-- Items between brackets. -/
def enclose (layout : Layout) (level : Nat) (first last : String) (items : List String) : String :=
  match items with
  | [] => first ++ last
  | items =>
      let separator := "," ++ layout.newline (level + 1)
      first ++ layout.newline (level + 1) ++ separator.intercalate items ++
        layout.newline level ++ last

end Layout

mutual

/-- Write data that stands at a level of nesting. -/
def renderAt (layout : Layout) (level : Nat) : Data → String
  | .null => "null"
  | .bool true => "true"
  | .bool false => "false"
  | .int n => toString n
  | .real literal => literal
  | .str s => quote s
  | .list items => layout.enclose level "[" "]" (renderItems layout (level + 1) items)
  | .map entries => layout.enclose level "\x7b" "\x7d" (renderEntries layout (level + 1) entries)

/-- Write the items of a list. -/
def renderItems (layout : Layout) (level : Nat) : List Data → List String
  | [] => []
  | d :: ds => renderAt layout level d :: renderItems layout level ds

/-- Write the entries of a map. -/
def renderEntries (layout : Layout) (level : Nat) : List (String × Data) → List String
  | [] => []
  | (key, d) :: es =>
      (quote key ++ layout.colon ++ renderAt layout level d) :: renderEntries layout level es

end

/-- Write data as JSON. -/
def render (layout : Layout) (d : Data) : String :=
  renderAt layout 0 d

end TradeScript.Json
