import TradeScript.Diagnostic.Basic
import TradeScript.Document.Basic
import TradeScript.Scan.Declaration

/-!
# TradeScript.Check.Length

Functions that are too long. A function starts on a line of the shape of a
declaration; it ends on the first line with a closing brace on which the braces
counted since the start balance.
-/

namespace TradeScript.Check

open Scan

/-- The most lines that a function may have. -/
def maxFunctionLines : Nat := 50

/-- Does the line have the shape of a function's declaration? -/
def startsFunction (bare : List Char) : Bool :=
  (inTurn [blanks, returnType, gap, optional qualifier, identifier, openParen] bare).isSome

/-- Opening braces less closing braces. -/
def braceBalance : List Char → Int
  | [] => 0
  | c :: cs => (if c = '{' then 1 else if c = '}' then -1 else 0) + braceBalance cs

/-- The number of lines from one index to another, by the numbers that positions have
for them. -/
def lineSpan (first last : Nat) : Nat :=
  (UInt32.ofNatClamp last - UInt32.ofNatClamp first).toNat + 1

/-- The functions of consecutive lines that have ended, each with its first and its
last line. `start` is the first line of the function that the lines begin in, if any,
and `depth` its balance of braces so far. -/
def functionsFrom (start : Option Nat) (depth : Int) : List (Line × Nat) → List (Nat × Nat)
  | [] => []
  | (line, number) :: rest =>
      let fresh := startsFunction line.bare
      let start := if fresh then some number else start
      let depth := (if fresh then 0 else depth) + braceBalance line.bare
      match start with
      | none => functionsFrom none depth rest
      | some first =>
          if depth = 0 ∧ '}' ∈ line.bare then
            (first, number) :: functionsFrom none depth rest
          else functionsFrom (some first) depth rest

/-- Report the functions that are too long, at their first lines. -/
def longFunctions (doc : Document) : List Diagnostic :=
  ((functionsFrom none 0 doc.numbered).filter fun f => maxFunctionLines < lineSpan f.1 f.2).map
    fun f => (Finding.longFunction (lineSpan f.1 f.2)).report (doc.fullLine f.1)

end TradeScript.Check
