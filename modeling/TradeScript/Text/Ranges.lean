/-!
# TradeScript.Text.Ranges

Character classes given as tables of code point ranges.
-/

namespace TradeScript.Text

/-- Is the code point of `c` inside one of the inclusive ranges? -/
def inRanges (ranges : List (Nat × Nat)) (c : Char) : Bool :=
  ranges.any fun r => r.1 ≤ c.toNat && c.toNat ≤ r.2

end TradeScript.Text
