/-!
# TradeScript.Vocabulary.Types

The names of the built-in types, as the patterns of declarations use them.
-/

namespace TradeScript.Vocabulary

/-- The scalar types. -/
def scalarTypes : List String :=
  ["int", "double", "string", "bool", "datetime", "color", "char", "short", "long", "uchar",
   "ushort", "uint", "ulong", "float"]

/-- The built-in structures. -/
def structureTypes : List String :=
  ["MqlDateTime", "MqlRates", "MqlTick", "MqlTradeRequest", "MqlTradeResult",
   "MqlTradeTransaction"]

/-- The types that a variable may have. -/
def valueTypes : List String :=
  scalarTypes ++ structureTypes

/-- The words that give access to the members of a class. -/
def accessWords : List String :=
  ["public", "private", "protected"]

/-- The words that may stand before the type of a member function. -/
def memberWords : List String :=
  accessWords ++ ["virtual"]

/-- The words that make a variable an input of the program. -/
def inputWords : List String :=
  ["input", "sinput", "extern"]

end TradeScript.Vocabulary
