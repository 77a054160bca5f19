import TradeScript.Data.Toml
import TradeScript.Text.Basic
import TradeScript.Text.Blank

/-!
# TradeScript.Data.Inline

Values in one line, as they stand in environment variables: `true` and `false`,
numbers, quoted strings, lists in brackets and records in braces. What does not
have such a form as a whole is a string.

At the first escape of a quoted string, the text before it is taken over by its
length: as many bytes of it as it has characters. Text beyond ASCII loses
characters in this way, and where the cut goes through a character, at this or any
later escape, the value is torn.
-/

namespace TradeScript.Inline

open Number (splitSign digitsValue signed)
open Toml (escape? isControl)

/-- A value that cannot be taken apart, because a cut goes through a character. -/
inductive Torn where
  | torn
  deriving Repr, DecidableEq

/-- Why a text has not the form that it is read for. -/
inductive Fault where
  /-- It has another form. -/
  | other
  /-- It is torn, so that it has no value of any form. -/
  | torn
  deriving Repr, DecidableEq

/-! ### Characters -/

/-- White space of ASCII. -/
def isSpace (c : Char) : Bool :=
  c == ' ' || c == '\t' || c == '\n' || c == '\r' || c == '\x0c'

def skipSpace (cs : List Char) : List Char :=
  cs.dropWhile isSpace

/-- A character that a value without quotes ends at. -/
def isSeparator (c : Char) : Bool :=
  c == ',' || c == '\x7b' || c == '\x7d' || c == '[' || c == ']'

/-! ### Values without quotes -/

/-- Is it a decimal number with a point? -/
def isReal (cs : List Char) : Bool :=
  cs.contains '.' && (Number.Decimal.ofText? cs).isSome

/-- An integer of 64 bits, with or without a sign. Zeros in front do not count. -/
def integer? (cs : List Char) : Option Int :=
  let (negative, digits) := splitSign cs
  let n := digitsValue digits
  let bound := if negative then Nat.pow 2 63 + 1 else Nat.pow 2 64
  if digits.isEmpty || !digits.all Char.isDigit || bound ≤ n then none
  else some (signed negative n)

/-- The value of a text without quotes. -/
def plainValue (cs : List Char) : Data :=
  let literal := String.ofList cs
  if isReal cs then .real literal
  else
    match integer? cs with
    | some n => .int n
    | none => .str literal

/-! ### Quoted strings -/

/-- What stands between quotes, with its escapes, and what follows the closing
quote. A quote behind a backslash does not close. -/
def quoted? : List Char → Option (List Char × List Char)
  | [] => none
  | '"' :: rest => some ([], rest)
  | '\\' :: c :: rest => (quoted? rest).map fun (body, rest) => ('\\' :: c :: body, rest)
  | c :: rest => (quoted? rest).map fun (body, rest) => (c :: body, rest)

/-- The first bytes of a text, if they are whole characters. -/
def cut? (bytes : Nat) (cs : List Char) : Option (List Char) :=
  let front := Text.takeBytes bytes cs
  if Text.byteLength front == bytes then some front else none

/-- A text without its escapes. `whole` is all of it, of which `index` characters
have been read; what they have come to is `done`, last one first, if there was an
escape among them, and else they are kept as they are. -/
def unescapeFrom (whole : List Char) :
    (fuel index : Nat) → (done : Option (List Char)) → List Char → Except Fault (List Char)
  | 0, _, _, _ => .error .other
  | _ + 1, _, done, [] => .ok ((done.map List.reverse).getD whole)
  | fuel + 1, index, done, '\\' :: rest =>
      match cut? index whole with
      | none => .error .torn
      | some front =>
          match escape? rest with
          | none => .error .other
          | some (c, rest') =>
              let read := 1 + (rest.length - rest'.length)
              unescapeFrom whole fuel (index + read) (some (c :: done.getD front.reverse)) rest'
  | fuel + 1, index, done, c :: rest =>
      if isControl c then .error .other
      else unescapeFrom whole fuel (index + 1) (done.map (c :: ·)) rest

/-- A string, behind its opening quote. -/
def string (cs : List Char) : Except Fault (String × List Char) :=
  match quoted? cs with
  | none => .error .other
  | some (body, rest) =>
      (unescapeFrom body (body.length + 1) 0 none body).map fun s => (String.ofList s, rest)

/-! ### Values -/

/-- A character of a key without quotes. -/
def isKeyChar (c : Char) : Bool :=
  c.isAlphanum || c == '_' || c == '-'

/-- A key. -/
def key (cs : List Char) : Except Fault (String × List Char) :=
  match cs with
  | '"' :: rest => string rest
  | cs =>
      match cs.takeWhile isKeyChar with
      | [] => .error .other
      | name => .ok (String.ofList name, cs.drop name.length)

mutual

/-- A value with the white space around it. -/
def value : (fuel : Nat) → List Char → Except Fault (Data × List Char)
  | 0, _ => .error .other
  | fuel + 1, cs =>
      let read : Except Fault (Data × List Char) := match skipSpace cs with
        | 't' :: 'r' :: 'u' :: 'e' :: rest => .ok (.bool true, rest)
        | 'f' :: 'a' :: 'l' :: 's' :: 'e' :: rest => .ok (.bool false, rest)
        | '{' :: rest => (members fuel rest).map fun (es, rest) => (.record es, rest)
        | '[' :: rest => (items fuel rest).map fun (ds, rest) => (.list ds, rest)
        | '"' :: rest => (string rest).map fun (s, rest) => (.str s, rest)
        | '\'' :: c :: '\'' :: rest => .ok (.str (String.singleton c), rest)
        | '\'' :: _ => .error .other
        | cs =>
            let text := cs.takeWhile fun c => !isSeparator c
            .ok (plainValue (Text.trim text), cs.drop text.length)
      read.map fun (d, rest) => (d, skipSpace rest)

/-- The items of a list, up to its end. A comma may stand behind the last one. -/
def items : (fuel : Nat) → List Char → Except Fault (List Data × List Char)
  | 0, _ => .error .other
  | fuel + 1, cs =>
      match cs with
      | ']' :: rest => .ok ([], rest)
      | cs =>
          match value fuel cs with
          | .error fault => .error fault
          | .ok (d, ',' :: rest) => (items fuel rest).map fun (ds, rest) => (d :: ds, rest)
          | .ok (d, ']' :: rest) => .ok ([d], rest)
          | .ok _ => .error .other

/-- The members of a record, up to its end. -/
def members : (fuel : Nat) → List Char → Except Fault (List (String × Data) × List Char)
  | 0, _ => .error .other
  | fuel + 1, cs =>
      match cs with
      | '}' :: rest => .ok ([], rest)
      | cs =>
          match key (skipSpace cs) with
          | .error fault => .error fault
          | .ok (name, rest) =>
              match skipSpace rest with
              | '=' :: rest =>
                  match value fuel rest with
                  | .error fault => .error fault
                  | .ok (d, ',' :: rest) =>
                      (members fuel rest).map fun (es, rest) => ((name, d) :: es, rest)
                  | .ok (d, '}' :: rest) => .ok ([(name, d)], rest)
                  | .ok _ => .error .other
              | _ => .error .other

end

/-- The value of a text. -/
def parse (text : String) : Except Torn Data :=
  let cs := text.toList
  match value (2 * cs.length + 2) cs with
  | .ok (d, []) => .ok d
  | .error .torn => .error .torn
  | _ => .ok (.str text)

end TradeScript.Inline
