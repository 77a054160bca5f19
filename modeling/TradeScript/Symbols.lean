import TradeScript.Document.Basic
import TradeScript.Scan.Declaration
import TradeScript.Table

/-!
# TradeScript.Symbols

The names that a document declares. The table is flat: there are no scopes, and
a name that is declared twice keeps the position of the declaration recorded
last. Preprocessor lines declare only the names they `#define`.
-/

namespace TradeScript

open Scan (Found Occurrence Recogniser occurrences)

/-- The names declared in a document. -/
structure Symbols where
  /-- Variables, macros and types, each with a position. -/
  places : Table Position
  /-- Functions, each once. -/
  functions : List String
  deriving Repr, DecidableEq

namespace Document

/-- The occurrences of a declaration off the preprocessor lines. -/
def declarations (doc : Document) (r : Recogniser Found) : List (Occurrence Found) :=
  (occurrences r doc.bareText).filter fun o => !doc.onDirective o.start

/-- The variables that the document declares, in the order in which they are
recorded: first by the shape of the declaration, then by place. -/
def variableDeclarations (doc : Document) : List (Occurrence Found) :=
  doc.declarations Scan.typedDeclaration ++
    doc.declarations Scan.objectDeclaration ++
    occurrences Scan.macroDefinition doc.bareText ++
    doc.declarations Scan.typeDefinition

/-- The functions that the document declares. -/
def functionDeclarations (doc : Document) : List (Occurrence Found) :=
  doc.declarations Scan.functionDeclaration ++ doc.declarations Scan.methodDefinition

/-- The names that the document declares. -/
def symbols (doc : Document) : Symbols where
  places := Table.empty.insertAll <|
    doc.variableDeclarations.map fun o => (o.name, doc.positionAt o.start)
  functions := (doc.functionDeclarations.map Occurrence.name).eraseDups

end Document

/-- Is the name declared, as a variable or as a function? -/
def Symbols.declares (symbols : Symbols) (name : String) : Bool :=
  symbols.places.contains name || symbols.functions.contains name

end TradeScript
