/-!
# TradeScript.Data.Number

Decimal numbers and doubles. Only the size of a double matters here: whether a
number that was written in decimal can be told from infinity.
-/

namespace TradeScript.Number

/-- The value of a hexadecimal digit. -/
def hexDigit? (c : Char) : Option Nat :=
  if '0' ≤ c ∧ c ≤ '9' then some (c.toNat - '0'.toNat)
  else if 'a' ≤ c ∧ c ≤ 'f' then some (c.toNat - 'a'.toNat + 10)
  else if 'A' ≤ c ∧ c ≤ 'F' then some (c.toNat - 'A'.toNat + 10)
  else none

/-- A number of hexadecimal digits, as the character they stand for. -/
def hexChar? (count : Nat) (cs : List Char) : Option (Char × List Char) := do
  let digits := cs.take count
  guard (digits.length == count)
  let n := (← digits.mapM hexDigit?).foldl (fun n d => n * 16 + d) 0
  guard n.isValidChar
  some (Char.ofNat n, cs.drop count)

/-- A digit below the base. -/
def isDigitIn (base : Nat) (c : Char) : Bool :=
  (hexDigit? c).any (· < base)

/-- The number that digits to a base stand for. -/
def valueIn (base : Nat) (digits : List Char) : Nat :=
  digits.foldl (fun n c => n * base + (hexDigit? c).getD 0) 0

/-- The number that decimal digits stand for. -/
def digitsValue (digits : List Char) : Nat :=
  valueIn 10 digits

/-- A sign and what follows it: is the number negative? -/
def splitSign : List Char → Bool × List Char
  | '-' :: rest => (true, rest)
  | '+' :: rest => (false, rest)
  | cs => (false, cs)

/-- The number with its sign. -/
def signed (negative : Bool) (n : Nat) : Int :=
  if negative then -(n : Int) else n

/-! ### Doubles -/

/-- The least number that is too large for a double. -/
def tooLarge : Nat := Nat.pow 2 1024 - Nat.pow 2 970

/-- Can `digits * 10 ^ exponent` be told from infinity as a double? The number of
digits settles all but one order of magnitude. -/
def fitsDouble (digits : Nat) (exponent : Int) : Bool :=
  if digits = 0 then true
  else
    let magnitude : Int := (Nat.toDigits 10 digits).length + exponent
    if magnitude < 309 then true
    else if 309 < magnitude then false
    else if 0 ≤ exponent then digits * Nat.pow 10 exponent.toNat < tooLarge
    else digits < tooLarge * Nat.pow 10 (-exponent).toNat

/-- The number with 53 binary digits that is nearest to a number; of two the one
that is even. -/
def nearest53 (n : Nat) : Nat :=
  let unit := Nat.pow 2 (n.log2 + 1 - 53)
  let quotient := n / unit
  let twice := 2 * (n % unit)
  if unit < twice ∨ (twice = unit ∧ quotient % 2 = 1) then (quotient + 1) * unit
  else quotient * unit

/-- The largest power of ten that is a double is this one. -/
def maxPower : Nat := 308

/-- Is the double of a number, times the double of a power of ten, less than
infinity? A negative power makes no number larger. -/
def scaledFits (n : Nat) (exponent : Int) : Bool :=
  if n = 0 ∨ exponent < 0 then true
  else if maxPower < exponent.toNat then false
  else nearest53 (nearest53 n * nearest53 (Nat.pow 10 exponent.toNat)) < Nat.pow 2 1024

/-! ### Decimal numbers -/

/-- The parts of a number that was written with a point or an exponent. -/
structure Decimal where
  negative : Bool
  whole : List Char
  fraction : List Char
  exponent : Int

namespace Decimal

/-- Is the number less than infinity as the nearest double? -/
def isFinite (d : Decimal) : Bool :=
  fitsDouble (digitsValue (d.whole ++ d.fraction)) (d.exponent - d.fraction.length)

/-- The exponent behind a number, and what follows it: an `e`, a sign and digits. -/
def exponent? : List Char → Option (Int × List Char)
  | e :: rest =>
      let (negative, rest) := splitSign rest
      let digits := rest.takeWhile Char.isDigit
      if (e == 'e' || e == 'E') && !digits.isEmpty then
        some (signed negative (digitsValue digits), rest.drop digits.length)
      else none
  | [] => none

/-- A text that is a number: a sign, digits with a point among them, before them or
behind them, and an exponent; only the digits have to be there. -/
def ofText? (cs : List Char) : Option Decimal :=
  let (negative, body) := splitSign cs
  let whole := body.takeWhile Char.isDigit
  let (fraction, rest) := match body.drop whole.length with
    | '.' :: rest =>
        let fraction := rest.takeWhile Char.isDigit
        (fraction, rest.drop fraction.length)
    | rest => ([], rest)
  if whole.isEmpty && fraction.isEmpty then none
  else if rest.isEmpty then some ⟨negative, whole, fraction, 0⟩
  else
    match exponent? rest with
    | some (exponent, []) => some ⟨negative, whole, fraction, exponent⟩
    | _ => none

end Decimal

/-! ### Digits that are taken up one by one -/

/-- The front of a decimal number, as far as it fits in 64 bits, and the power of
ten that it is multiplied with. -/
structure Significand where
  value : Nat := 0
  exponent : Int := 0
  /-- Was there a digit that did not fit? -/
  full : Bool := false

namespace Significand

/-- The number with a digit behind it, if that fits in 64 bits. -/
def push? (s : Significand) (digit : Char) : Option Nat :=
  let n := s.value * 10 + digitsValue [digit]
  if n < Nat.pow 2 64 then some n else none

/-- Take up a digit before the point. Behind one that did not fit, a digit only
counts for its place. -/
def pushWhole (s : Significand) (digit : Char) : Significand :=
  match s.full, s.push? digit with
  | false, some value => { s with value }
  | _, _ => { s with exponent := s.exponent + 1, full := true }

/-- Take up a digit behind the point. Behind one that did not fit, digits do not
count. -/
def pushFraction (s : Significand) (digit : Char) : Significand :=
  match s.full, s.push? digit with
  | false, some value => { s with value, exponent := s.exponent - 1 }
  | _, _ => { s with full := true }

/-- The digits of a number before and behind the point. -/
def ofDigits (whole fraction : List Char) : Significand :=
  let s := whole.foldl pushWhole {}
  fraction.foldl pushFraction { s with full := false }

end Significand

end TradeScript.Number
