import TradeScript.Data.Basic
import TradeScript.Data.Number

/-!
# TradeScript.Data.Toml

Reading TOML. Readers take something off the front of a text and give it with the
rest. A text is a sequence of expressions, one to a line: entries of the current
table, and headers that make another table the current one. A name may be given
only one meaning; what a header or a dotted key has opened can be gone on with
only in the ways that `Origin` tells apart. Lists and tables in one line may be
nested fewer than `limit` levels deep, and a key has fewer than `limit` names.
-/

namespace TradeScript.Toml

open Number (digitsValue hexDigit? hexChar? isDigitIn valueIn splitSign signed)

/-- What the depth of values and the length of keys stay below. -/
def limit : Nat := 80

/-! ### Characters -/

/-- A space or a tab. -/
def isSpace (c : Char) : Bool :=
  c == ' ' || c == '\t'

def skipSpace (cs : List Char) : List Char :=
  cs.dropWhile isSpace

/-- A control character that may not stand in a text. -/
def isControl (c : Char) : Bool :=
  (c.toNat < 0x20 && c != '\t') || c.toNat == 0x7F

/-- What follows a line break. -/
def newline? : List Char → Option (List Char)
  | '\n' :: rest => some rest
  | '\r' :: '\n' :: rest => some rest
  | _ => none

/-- The text behind spaces and a comment; `none` if there is a control character in
the comment. -/
def skipComment? (cs : List Char) : Option (List Char) :=
  match skipSpace cs with
  | '#' :: rest =>
      let stop := rest.dropWhile fun c => !isControl c
      match stop with
      | [] => some []
      | _ => (newline? stop).map fun _ => stop
  | cs => some cs

/-- The text behind spaces, comments and line breaks. -/
def skipLines? : (fuel : Nat) → List Char → Option (List Char)
  | 0, _ => none
  | fuel + 1, cs => do
      let cs ← skipComment? cs
      match newline? cs with
      | some rest => skipLines? fuel rest
      | none => some cs

/-! ### Strings -/

/-- What the characters behind a backslash stand for. -/
def escape? : List Char → Option (Char × List Char)
  | 'b' :: rest => some ('\x08', rest)
  | 't' :: rest => some ('\t', rest)
  | 'n' :: rest => some ('\n', rest)
  | 'f' :: rest => some ('\x0c', rest)
  | 'r' :: rest => some ('\r', rest)
  | '"' :: rest => some ('"', rest)
  | '\\' :: rest => some ('\\', rest)
  | 'u' :: rest => hexChar? 4 rest
  | 'U' :: rest => hexChar? 8 rest
  | _ => none

/-- The rest of a string on one line, behind its opening quote. -/
def lineString? : (fuel : Nat) → List Char → Option (List Char × List Char)
  | 0, _ => none
  | _ + 1, '"' :: rest => some ([], rest)
  | fuel + 1, '\\' :: rest => do
      let (c, rest) ← escape? rest
      (lineString? fuel rest).map fun (s, rest) => (c :: s, rest)
  | fuel + 1, c :: rest =>
      if isControl c then none else (lineString? fuel rest).map fun (s, rest) => (c :: s, rest)
  | _ + 1, [] => none

/-- The rest of a literal string on one line, behind its opening quote. -/
def lineLiteral? (cs : List Char) : Option (List Char × List Char) :=
  let body := cs.takeWhile fun c => c != '\'' && !isControl c
  match cs.drop body.length with
  | '\'' :: rest => some (body, rest)
  | _ => none

/-- The quotes at the front of a text: up to two belong to a string over several
lines, and three close it. -/
def closing? (quote : Char) (cs : List Char) : Option (List Char × List Char) :=
  let quotes := (cs.takeWhile (· == quote)).length
  if quotes < 3 then none
  else
    let inside := min (quotes - 3) 2
    some (List.replicate inside quote, cs.drop (inside + 3))

/-- The text behind spaces and line breaks. -/
def skipBreaks : List Char → List Char
  | '\r' :: '\n' :: rest => skipBreaks rest
  | c :: rest => if isSpace c || c == '\n' then skipBreaks rest else c :: rest
  | [] => []

/-- The text behind a backslash at the end of a line: the spaces and the line breaks
that follow are left out. -/
def foldedLine? (cs : List Char) : Option (List Char) :=
  (newline? (skipSpace cs)).map skipBreaks

/-- The rest of a string over several lines. -/
def blockString? : (fuel : Nat) → List Char → Option (List Char × List Char)
  | 0, _ => none
  | fuel + 1, cs =>
      match closing? '"' cs with
      | some r => some r
      | none =>
          match cs with
          | [] => none
          | '\\' :: rest =>
              match foldedLine? rest with
              | some rest => blockString? fuel rest
              | none => do
                  let (c, rest) ← escape? rest
                  (blockString? fuel rest).map fun (s, rest) => (c :: s, rest)
          | c :: rest =>
              match newline? cs with
              | some rest => (blockString? fuel rest).map fun (s, rest) => ('\n' :: s, rest)
              | none =>
                  if isControl c then none
                  else (blockString? fuel rest).map fun (s, rest) => (c :: s, rest)

/-- The rest of a literal string over several lines. -/
def blockLiteral? : (fuel : Nat) → List Char → Option (List Char × List Char)
  | 0, _ => none
  | fuel + 1, cs =>
      match closing? '\'' cs with
      | some r => some r
      | none =>
          match cs with
          | [] => none
          | c :: rest =>
              match newline? cs with
              | some rest => (blockLiteral? fuel rest).map fun (s, rest) => ('\n' :: s, rest)
              | none =>
                  if isControl c then none
                  else (blockLiteral? fuel rest).map fun (s, rest) => (c :: s, rest)

/-- The text behind the line break right after three opening quotes. -/
def dropFirstBreak (cs : List Char) : List Char :=
  (newline? cs).getD cs

/-- A string of any kind; `none` if there is none at the front. -/
def string? (cs : List Char) : Option (String × List Char) :=
  let read := match cs with
    | '"' :: '"' :: '"' :: rest => blockString? (rest.length + 1) (dropFirstBreak rest)
    | '\'' :: '\'' :: '\'' :: rest => blockLiteral? (rest.length + 1) (dropFirstBreak rest)
    | '"' :: rest => lineString? (rest.length + 1) rest
    | '\'' :: rest => lineLiteral? rest
    | _ => none
  read.map fun (s, rest) => (String.ofList s, rest)

/-! ### Keys -/

/-- A character of a key without quotes. -/
def isBare (c : Char) : Bool :=
  c.isAlphanum || c == '_' || c == '-'

/-- One name of a key. -/
def simpleKey? (cs : List Char) : Option (String × List Char) :=
  match cs with
  | '"' :: rest => (lineString? (rest.length + 1) rest).map fun (s, rest) => (String.ofList s, rest)
  | '\'' :: rest => (lineLiteral? rest).map fun (s, rest) => (String.ofList s, rest)
  | cs =>
      match cs.takeWhile isBare with
      | [] => none
      | name => some (String.ofList name, cs.drop name.length)

/-- Names with dots between them. -/
def names? : (fuel : Nat) → List Char → Option ((String × List String) × List Char)
  | 0, _ => none
  | fuel + 1, cs => do
      let (name, rest) ← simpleKey? (skipSpace cs)
      match skipSpace rest with
      | '.' :: rest =>
          (names? fuel rest).map fun ((second, more), rest) => ((name, second :: more), rest)
      | rest => some ((name, []), rest)

/-- A key: names with dots between them, the first one apart. -/
def key? (cs : List Char) : Option ((String × List String) × List Char) :=
  match names? (cs.length + 1) cs with
  | some ((name, more), rest) => if more.length + 1 < limit then some ((name, more), rest) else none
  | none => none

/-! ### Numbers and dates -/

/-- Digits of a class with single underscores between them. -/
def spacedDigits (p : Char → Bool) : List Char → Option (List Char)
  | [] => none
  | [c] => if p c then some [c] else none
  | c :: '_' :: rest => if p c then (spacedDigits p rest).map (c :: ·) else none
  | c :: rest => if p c then (spacedDigits p rest).map (c :: ·) else none

/-- An integer that fits in 64 bits with its sign. -/
def int64? (n : Int) : Option Data :=
  let bound : Nat := Nat.pow 2 63
  if -(bound : Int) ≤ n ∧ n < bound then some (.int n) else none

/-- Decimal digits without a zero in front, except for zero itself. -/
def plainDigits? (cs : List Char) : Option (List Char) :=
  match cs with
  | ['0'] => some cs
  | '0' :: _ => none
  | cs => spacedDigits (isDigitIn 10) cs

/-- An integer. -/
def integer? (cs : List Char) : Option Data :=
  match cs with
  | '0' :: 'x' :: rest => (spacedDigits (isDigitIn 16) rest).bind fun ds => int64? (valueIn 16 ds)
  | '0' :: 'o' :: rest => (spacedDigits (isDigitIn 8) rest).bind fun ds => int64? (valueIn 8 ds)
  | '0' :: 'b' :: rest => (spacedDigits (isDigitIn 2) rest).bind fun ds => int64? (valueIn 2 ds)
  | cs =>
      let (negative, digits) := splitSign cs
      (plainDigits? digits).bind fun ds =>
        int64? (signed negative (valueIn 10 ds))

/-- Is it the exponent of a number? -/
def isExponent : List Char → Bool
  | e :: rest => (e == 'e' || e == 'E') && (spacedDigits (isDigitIn 10) (splitSign rest).2).isSome
  | [] => false

/-- Does the text have the form of a number that is not an integer? -/
def isReal (cs : List Char) : Bool :=
  let isDigitOrGap := fun c : Char => c.isDigit || c == '_'
  let body := (splitSign cs).2
  let whole := body.takeWhile isDigitOrGap
  (plainDigits? whole).isSome &&
    match body.drop whole.length with
    | '.' :: rest =>
        let fraction := rest.takeWhile isDigitOrGap
        let rest := rest.drop fraction.length
        (spacedDigits (isDigitIn 10) fraction).isSome && (rest.isEmpty || isExponent rest)
    | rest => isExponent rest

/-- A number that is not an integer. One that is too large for a double has to be
negative. -/
def real? (cs : List Char) : Option Data :=
  let literal := Data.real (String.ofList cs)
  let (negative, body) := splitSign cs
  if body == ['i', 'n', 'f'] || body == ['n', 'a', 'n'] then some literal
  else if !isReal cs then none
  else
    match Number.Decimal.ofText? (cs.filter (· != '_')) with
    | some d => if negative || d.isFinite then some literal else none
    | none => none

/-- A number of exactly `count` digits. -/
def fixedDigits? (count : Nat) (cs : List Char) : Option (Nat × List Char) :=
  let digits := cs.takeWhile Char.isDigit
  if count ≤ digits.length then some (digitsValue (cs.take count), cs.drop count) else none

/-- The number of days of a month. -/
def daysIn (year month : Nat) : Nat :=
  if month == 2 then
    if year % 4 == 0 && (year % 100 != 0 || year % 400 == 0) then 29 else 28
  else if month == 4 || month == 6 || month == 9 || month == 11 then 30
  else 31

/-- What follows a date. -/
def date? (cs : List Char) : Option (List Char) := do
  match ← fixedDigits? 4 cs with
  | (year, '-' :: rest) =>
      match ← fixedDigits? 2 rest with
      | (month, '-' :: rest) =>
          let (day, rest) ← fixedDigits? 2 rest
          guard (1 ≤ month && month ≤ 12 && 1 ≤ day && day ≤ daysIn year month)
          some rest
      | _ => none
  | _ => none

/-- What follows a time of day. -/
def time? (cs : List Char) : Option (List Char) := do
  match ← fixedDigits? 2 cs with
  | (hour, ':' :: rest) =>
      match ← fixedDigits? 2 rest with
      | (minute, ':' :: rest) =>
          let (second, rest) ← fixedDigits? 2 rest
          guard (hour < 24 && minute < 60 && second ≤ 60)
          match rest with
          | '.' :: rest =>
              let digits := rest.takeWhile Char.isDigit
              if digits.isEmpty then none else some (rest.drop digits.length)
          | rest => some rest
      | _ => none
  | _ => none

/-- Is it nothing, or the offset of a time zone? -/
def isOffset : List Char → Bool
  | [] => true
  | ['Z'] | ['z'] => true
  | sign :: rest =>
      (sign == '+' || sign == '-') &&
        match fixedDigits? 2 rest with
        | some (hour, ':' :: rest) =>
            match fixedDigits? 2 rest with
            | some (minute, []) => hour < 24 && minute < 60
            | _ => false
        | _ => false

/-- A date, a time of day or both. They are kept apart from all other values. -/
def moment? (cs : List Char) : Option Data :=
  let value := Data.map [("$moment", .str (String.ofList cs))]
  match date? cs with
  | some [] => some value
  | some (separator :: rest) =>
      if separator == 'T' || separator == 't' || separator == ' ' then
        (time? rest).bind fun rest => if isOffset rest then some value else none
      else none
  | none => (time? cs).bind fun rest => if rest.isEmpty then some value else none

/-- A character of a number or date. -/
def isScalarChar (c : Char) : Bool :=
  c.isAlphanum || c == '+' || c == '-' || c == '_' || c == '.' || c == ':'

/-- The characters of a number, a date or a truth value; a space may stand between
a date and a time. -/
def scalarText (cs : List Char) : List Char :=
  let first := cs.takeWhile isScalarChar
  match date? first, cs.drop first.length with
  | some [], ' ' :: rest =>
      match rest with
      | c :: _ => if c.isDigit then first ++ ' ' :: rest.takeWhile isScalarChar else first
      | [] => first
  | _, _ => first

/-- A value that is written without quotes or brackets. -/
def scalar? (cs : List Char) : Option (Data × List Char) :=
  let token := scalarText cs
  let value : Option Data := match String.ofList token with
    | "true" => some (.bool true)
    | "false" => some (.bool false)
    | _ => ((integer? token).or (real? token)).or (moment? token)
  value.map fun v => (v, cs.drop token.length)

/-! ### Tables -/

/-- How a table came to be, which settles what may still be added to it. -/
inductive Origin where
  /-- By a header of its own. -/
  | header
  /-- By the header of a table inside it; it may still get one of its own. -/
  | path
  /-- By a dotted key; other dotted keys may add to it. -/
  | dotted
  deriving DecidableEq

/-- The meaning of a name. -/
inductive Node where
  /-- A value, to which nothing can be added. -/
  | value (d : Data)
  | table (origin : Origin) (entries : List (String × Node))
  /-- A list of tables, last one first. -/
  | tables (items : List (List (String × Node)))

/-- The entries of a table. -/
abbrev Entries := List (String × Node)

/-- Give a name a meaning, in its place if it has one. -/
def put (entries : Entries) (name : String) (node : Node) : Entries :=
  if entries.any fun e => e.1 == name then
    entries.map fun e => if e.1 == name then (name, node) else e
  else entries ++ [(name, node)]

/-- The meaning of a name. -/
def find? (entries : Entries) (name : String) : Option Node :=
  (entries.find? fun e => e.1 == name).map Prod.snd

/-- Change the table that names lead to, by way of headers. Tables that are missing
are made. -/
def within (entries : Entries) : List String → (Entries → Option Entries) → Option Entries
  | [], change => change entries
  | name :: names, change =>
      match find? entries name with
      | none => (within [] names change).map fun es => put entries name (.table .path es)
      | some (.table origin es) =>
          (within es names change).map fun es => put entries name (.table origin es)
      | some (.tables (last :: items)) =>
          (within last names change).map fun es => put entries name (.tables (es :: items))
      | some _ => none

/-- Open a table by its header. -/
def openTable (name : String) (entries : Entries) : Option Entries :=
  match find? entries name with
  | none => some (put entries name (.table .header []))
  | some (.table .path es) => some (put entries name (.table .header es))
  | some _ => none

/-- Open the next table of a list by its header. -/
def openItem (name : String) (entries : Entries) : Option Entries :=
  match find? entries name with
  | none => some (put entries name (.tables [[]]))
  | some (.tables items) => some (put entries name (.tables ([] :: items)))
  | some _ => none

/-- Add a value under a key to a table that is `ready` for values. The names before
the last one lead through tables without a header of their own and through last
items of lists, and the table that they lead to has to come from a dotted key. -/
def addAt (d : Data) (ready : Bool) (entries : Entries) : String → List String → Option Entries
  | name, [] =>
      match ready, find? entries name with
      | true, none => some (put entries name (.value d))
      | _, _ => none
  | name, second :: more =>
      match find? entries name with
      | none => (addAt d true [] second more).map fun es => put entries name (.table .dotted es)
      | some (.table .header _) => none
      | some (.table origin es) =>
          (addAt d (origin = .dotted) es second more).map fun es =>
            put entries name (.table origin es)
      | some (.tables (last :: items)) =>
          (addAt d false last second more).map fun es => put entries name (.tables (es :: items))
      | some _ => none

/-- Add a value under a key to the current table. -/
def addValue (d : Data) (entries : Entries) (name : String) (more : List String) : Option Entries :=
  addAt d true entries name more

mutual

/-- The meaning of a name as data. -/
def Node.toData : Node → Data
  | .value d => d
  | .table _ entries => .map (entriesData entries)
  | .tables items => .list (itemsData items).reverse

/-- The entries of a table as data. -/
def entriesData : List (String × Node) → List (String × Data)
  | [] => []
  | (name, node) :: entries => (name, node.toData) :: entriesData entries

/-- The tables of a list as data. -/
def itemsData : List (List (String × Node)) → List Data
  | [] => []
  | entries :: items => .map (entriesData entries) :: itemsData items

end

/-! ### Values -/

mutual

/-- A value with fewer than `depth` levels of lists and tables. -/
def value? : (fuel depth : Nat) → List Char → Option (Data × List Char)
  | 0, _, _ => none
  | fuel + 1, depth, cs =>
      match depth, cs with
      | depth + 2, '[' :: rest =>
          (items? fuel (depth + 1) rest).map fun (ds, rest) => (.list ds, rest)
      | depth + 2, '{' :: rest =>
          match skipSpace rest with
          | '}' :: rest => some (.map [], rest)
          | rest =>
              (members? fuel (depth + 1) [] rest).map fun (es, rest) =>
                (.map (entriesData es), rest)
      | _, '"' :: _ | _, '\'' :: _ => (string? cs).map fun (s, rest) => (.str s, rest)
      | _, cs => scalar? cs

/-- The items of a list, up to its end. -/
def items? : (fuel depth : Nat) → List Char → Option (List Data × List Char)
  | 0, _, _ => none
  | fuel + 1, depth, cs => do
      match ← skipLines? (cs.length + 1) cs with
      | ']' :: rest => some ([], rest)
      | cs =>
          let (d, rest) ← value? fuel depth cs
          match ← skipLines? (rest.length + 1) rest with
          | ']' :: rest => some ([d], rest)
          | ',' :: rest => (items? fuel depth rest).map fun (ds, rest) => (d :: ds, rest)
          | _ => none

/-- The members of a table on one line that has some, up to its end. -/
def members? : (fuel depth : Nat) → Entries → List Char → Option (Entries × List Char)
  | 0, _, _, _ => none
  | fuel + 1, depth, entries, cs => do
      let ((name, more), rest) ← key? cs
      match rest with
      | '=' :: rest =>
          let (d, rest) ← value? fuel depth (skipSpace rest)
          let entries ← addValue d entries name more
          match skipSpace rest with
          | '}' :: rest => some (entries, rest)
          | ',' :: rest => members? fuel depth entries rest
          | _ => none
      | _ => none

end

/-! ### Texts -/

/-- The path of the current table and the root table. -/
structure State where
  current : List String
  root : Entries

/-- A header without its opening brackets, as a path of names and the last one. -/
def header? (cs : List Char) : Option ((List String × String) × List Char) := do
  let ((name, more), rest) ← key? cs
  let names := name :: more
  some ((names.dropLast, names.getLast?.getD name), rest)

/-- One expression. -/
def expression? (state : State) (cs : List Char) : Option (State × List Char) :=
  match cs with
  | '[' :: '[' :: rest => do
      match ← header? rest with
      | ((path, name), ']' :: ']' :: rest) =>
          some (⟨path ++ [name], ← within state.root path (openItem name)⟩, rest)
      | _ => none
  | '[' :: rest => do
      match ← header? rest with
      | ((path, name), ']' :: rest) =>
          some (⟨path ++ [name], ← within state.root path (openTable name)⟩, rest)
      | _ => none
  | cs => do
      let ((name, more), rest) ← key? cs
      match rest with
      | '=' :: rest =>
          let (d, rest) ← value? (rest.length + 1) limit (skipSpace rest)
          let root ← within state.root state.current fun es => addValue d es name more
          some ({ state with root }, rest)
      | _ => none

/-- The expressions of a text. -/
def expressions? : (fuel : Nat) → State → List Char → Option State
  | 0, _, _ => none
  | fuel + 1, state, cs => do
      match ← skipLines? (cs.length + 1) cs with
      | [] => some state
      | cs =>
          let (state, rest) ← expression? state cs
          match ← skipComment? rest with
          | [] => some state
          | rest => expressions? fuel state (← newline? rest)

/-- Read a text as the entries of its root table. A mark of the byte order at the
front does not count. -/
def parse (text : String) : Option (List (String × Data)) :=
  let cs := match text.toList with
    | '\uFEFF' :: cs => cs
    | cs => cs
  (expressions? (cs.length + 1) ⟨[], []⟩ cs).map fun state => entriesData state.root

end TradeScript.Toml
