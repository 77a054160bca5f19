import TradeScript.Scan.Occurrence
import TradeScript.Vocabulary.Types

/-!
# TradeScript.Scan.Declaration

The shapes in which names are declared. No grammar stands behind them: a
declaration is a type followed by a name, wherever that occurs in the bare text.
Modifiers in front of a type take no part, because the type is found with or
without them.
-/

namespace TradeScript.Scan

open Vocabulary (scalarTypes valueTypes)

/-- An identifier that starts with a capital letter, as classes and enumerations
do. -/
def className : Reader :=
  passing (fun word => word.head?.any Char.isUpper) identifier

/-- `Class::` in front of the name of a member. -/
def qualifier : Reader :=
  inTurn [identifier, exactly [':', ':']]

/-- The types that a function may return. -/
def returnType : Reader :=
  oneOf [wordOf ("void" :: valueTypes), className]

/-- `int name`, `string &name`. -/
def typedDeclaration : Recogniser Found :=
  wordNaming (inTurn [wordOf valueTypes, separator]) wordEnd

/-- `Class name`, `Class *name`. -/
def objectDeclaration : Recogniser Found :=
  wordNaming (inTurn [className, separator]) wordEnd

/-- `#define NAME`, from the start of a line on. Blanks, and so empty lines, may
stand before the `#`. -/
def macroDefinition : Recogniser Found := fun previous cs =>
  if previous = none ∨ previous = some '\n' then
    naming (inTurn [blanks, exactly ['#'], blanks, exactly "define".toList, gap]) identifier
      nothing cs
  else none

/-- `class Name`, `struct Name`, `enum Name`, `interface Name`. -/
def typeDefinition : Recogniser Found :=
  wordNaming (inTurn [wordOf ["class", "struct", "enum", "interface"], gap]) nothing

/-- `type name(` and `type Class::name(`. -/
def functionDeclaration : Recogniser Found :=
  wordNaming (inTurn [returnType, separator, optional qualifier]) openParen

/-- `Class::name(` and `Class::~name(`. -/
def methodDefinition : Recogniser Found :=
  wordNaming (inTurn [qualifier, optional (exactly ['~'])]) openParen

/-- `name(`. -/
def call : Recogniser Found :=
  wordNaming nothing openParen

/-- A word that is an identifier. -/
def identifierWord : Recogniser Found :=
  wordNaming nothing wordEnd

end TradeScript.Scan
