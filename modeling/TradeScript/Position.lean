/-!
# TradeScript.Position

Places in a document as editors count them: lines from zero, columns from zero
in UTF-16 code units. Both are numbers of 32 bits. One that is too large becomes
the greatest of them (`UInt32.ofNatClamp`), and from there on places are no longer
told apart.
-/

namespace TradeScript

/-- A place in a document. -/
structure Position where
  /-- The line, counted from zero. -/
  line : UInt32
  /-- The column, in UTF-16 code units. -/
  character : UInt32
  deriving Repr, DecidableEq, Inhabited

/-- The stretch from `start` up to, and without, `stop`. -/
structure Range where
  start : Position
  stop : Position
  deriving Repr, DecidableEq, Inhabited

namespace Range

/-- A range between two columns of one line. -/
def onLine (line first last : UInt32) : Range :=
  ⟨⟨line, first⟩, ⟨line, last⟩⟩

/-- An empty range. -/
def point (line character : UInt32) : Range :=
  onLine line character character

end Range

end TradeScript
