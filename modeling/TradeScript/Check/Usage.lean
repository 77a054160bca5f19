import TradeScript.Diagnostic.Basic
import TradeScript.Symbols
import TradeScript.Vocabulary.Basic

/-!
# TradeScript.Check.Usage

Checks that set the names a document uses against those it declares: a name
that is used has to be declared or known, a function that is called has to be
declared somewhere, and a variable that is declared has to be used.
-/

namespace TradeScript.Check

open Scan

/-! ### Undefined variables -/

/-- Does the name count as defined in a document with these symbols? -/
def isDefined (dialect : Dialect) (symbols : Symbols) (name : String) : Bool :=
  Vocabulary.isKnown dialect name || Vocabulary.isHeaderWord name || symbols.declares name

/-- Report every identifier that is not defined, wherever it stands. -/
def undefinedVariables (dialect : Dialect) (doc : Document) : List Diagnostic :=
  let symbols := doc.symbols
  doc.numbered.flatMap fun (line, number) =>
    (occurrences identifierWord line.bare).filterMap fun o =>
      if isDefined dialect symbols o.name then none
      else some ((Finding.undefinedVariable o.name).report (doc.span number o.start o.stop))

/-! ### Undefined functions -/

/-- Does a text end in a mark of member access, blanks aside? The text is given with
its last character first. -/
def endsInAccess (behind : List Char) : Bool :=
  match Text.trimStart behind with
  | '.' :: _ => true
  | '>' :: '-' :: _ => true
  | ':' :: ':' :: _ => true
  | _ => false

/-- What follows the name of a declared function: its parameters, and a body or a
semicolon. -/
def functionTail : Reader :=
  inTurn [openParen, manyOf (· != ')'), exactly [')'], blanks,
    single fun c => c == '{' || c == ';']

/-- The type of a function and the blanks behind it. -/
def functionType : Reader :=
  inTurn [wordOf ("void" :: Vocabulary.scalarTypes), gap]

/-- What follows a lead, wherever one stands where it may. -/
def placesBehind (lead : Reader) (mayStand : Option Char → List Char → Bool) :
    (previous : Option Char) → List Char → List (List Char)
  | _, [] => []
  | previous, c :: cs =>
      let behind := placesBehind lead mayStand (some c) cs
      match mayStand previous (c :: cs), lead (c :: cs) with
      | true, some (_, rest) => rest :: behind
      | _, _ => behind

/-- The places behind `type`. -/
def typedPlaces (text : List Char) : List (List Char) :=
  placesBehind functionType (fun previous _ => opensWord previous) none text

/-- The places behind `type`, where a word that members may have stands before the
type. -/
def memberPlaces (text : List Char) : List (List Char) :=
  let word := oneOf (Vocabulary.memberWords.map fun word => exactly word.toList)
  placesBehind (inTurn [optional word, blanks, functionType]) wordEdge none text

/-- The places where a word may start. -/
def plainPlaces (text : List Char) : List (List Char) :=
  placesBehind nothing (fun previous _ => opensWord previous) none text

/-- The shapes in which the declaration of a function is searched for: `type name(...)`,
the same for a member, or just `name(...)`, each with a body or a semicolon. A call that
is a statement of its own has the last shape too. -/
inductive DeclarationShape where
  | typed
  | member
  | plain
  deriving Repr, DecidableEq

namespace DeclarationShape

/-- All shapes. -/
def every : List DeclarationShape :=
  [typed, member, plain]

/-- The places where the name of a function that is declared in the shape can stand. -/
def places (text : List Char) : DeclarationShape → List (List Char)
  | typed => typedPlaces text
  | member => memberPlaces text
  | plain => plainPlaces text

end DeclarationShape

/-- The places where the name of a declared function can stand, shape by shape. -/
def functionPlaces (text : List Char) : List (DeclarationShape × List (List Char)) :=
  DeclarationShape.every.map fun shape => (shape, shape.places text)

/-- What searches for declarations. For every name and shape it makes a pattern of its own,
and it refuses patterns that are too large. Which ones these are is for the engine to say:
theorems hold for all engines. -/
class PatternEngine where
  /-- Does the engine take the pattern of the shape for the name? -/
  takes : DeclarationShape → List Char → Bool

/-- The engine of a run. A pattern has a state of 32 bytes for every byte of the name, and
10 MiB of states at most. -/
instance standardEngine : PatternEngine where
  takes _ name := 32 * Text.byteLength name ≤ 10485760

/-- Does a function of that name seem to be declared at one of the places of a shape? A
shape whose pattern is refused finds nothing. -/
def declaresFunction [PatternEngine] (places : List (DeclarationShape × List (List Char)))
    (name : List Char) : Bool :=
  places.any fun shape => PatternEngine.takes shape.1 name &&
    shape.2.any fun cs => (inTurn [exactly name, functionTail] cs).isSome

/-- Report the calls of functions that are neither known nor of the shape of a
declaration anywhere in the text. Calls of members are not looked at. The text is
searched once for every name. -/
def undefinedFunctions [PatternEngine] (dialect : Dialect) (doc : Document) : List Diagnostic :=
  let text := doc.bareText
  let calls := (occurrences call text).filter fun o =>
    !(Vocabulary.isKnown dialect o.name || endsInAccess o.behind)
  let places := functionPlaces text
  let declared := (calls.map fun o => o.found.name).eraseDups.filter (declaresFunction places)
  calls.filterMap fun o =>
    if declared.contains o.found.name then none
    else some ((Finding.undefinedFunction o.name).report (doc.spanAt o.start o.stop))

/-! ### Unused variables -/

/-- The shapes of declarations whose names have to be used. -/
def usablePatterns : List (Recogniser Found) :=
  [wordNaming (inTurn [wordOf Vocabulary.valueTypes, gap]) nothing,
   wordNaming (inTurn [wordOf Vocabulary.accessWords, gap, wordOf Vocabulary.valueTypes, gap])
     nothing,
   wordNaming (inTurn [className, gap]) nothing]

/-- The declarations whose names have to be used. Before a parenthesis a name
declares a function and is none of them. -/
def usableDeclarations (text : List Char) : List (Occurrence Found) :=
  (usablePatterns.flatMap fun pattern => occurrences pattern text).filter fun o =>
    (Text.trimStart (Text.dropBytes o.stop text)).head? != some '('

/-- How often the name stands among words. -/
def useCount (words : List String) (name : String) : Nat :=
  words.countP (· == name)

/-- Report the variables that stand in the text only once, at the declaration
recorded last. -/
def unusedVariables (doc : Document) : List Diagnostic :=
  let text := doc.bareText
  let declared : Table Range := Table.empty.insertAll <|
    (usableDeclarations text).map fun o => (o.name, doc.spanAt o.start o.stop)
  let words := (occurrences identifierWord text).map Occurrence.name
  (declared.entries.filter fun e => useCount words e.1 == 1).map fun e =>
    (Finding.unusedVariable e.1).report e.2

end TradeScript.Check
