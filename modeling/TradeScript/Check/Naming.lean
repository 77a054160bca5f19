import TradeScript.Diagnostic.Basic
import TradeScript.Document.Basic
import TradeScript.Scan.Declaration
import TradeScript.Vocabulary.Basic

/-!
# TradeScript.Check.Naming

Checks of the names that a line declares: a function has to have a well-formed
name, and a reserved word names nothing. Preprocessor lines declare nothing.
-/

namespace TradeScript.Check

open Scan
open Vocabulary (scalarTypes structureTypes accessWords inputWords)

/-! ### Names of functions -/

/-- The characters that may stand in what is taken for the name of a function,
whether it is well formed or not. -/
def isLooseNamePart (c : Char) : Bool :=
  !Text.isBlank c && !(['(', '=', ',', ';', ':'].contains c)

/-- The start of a function's declaration: modifiers and the type it returns. -/
def functionHead : Reader :=
  inTurn [blanks,
    repeated (inTurn [wordOf (accessWords ++ ["virtual", "static"]), gap]),
    wordOf ("void" :: scalarTypes), gap]

/-- The name of the function that the line declares. A `Class::` in front of it,
and the `~` of a destructor, are not part of it. -/
def declaredFunction? (bare : List Char) : Option Found :=
  [inTurn [functionHead, qualifier, exactly ['~']], inTurn [functionHead, qualifier],
    functionHead].findSome? fun lead => naming lead (someOf isLooseNamePart) openParen bare

/-- May the text name a function? Operators have names of their own. -/
def isFunctionName (name : List Char) : Bool :=
  "operator".toList.isPrefixOf name || isIdentifier name

/-- Report a function with a malformed name. -/
def functionName (doc : Document) (line : Line) (number : Nat) : List Diagnostic :=
  match declaredFunction? line.bare with
  | none => []
  | some found =>
      if isFunctionName found.name then []
      else
        let start := Text.byteLength found.lead
        let stop := start + Text.byteLength found.name
        [Finding.invalidFunctionName.report (doc.span number start stop)]

/-! ### Reserved words -/

/-- The words that announce the declaration of a name. -/
def declaringWords : List String :=
  scalarTypes ++ ["void", "enum", "struct", "class"] ++ structureTypes

/-- A type named `ENUM_...`. -/
def enumType : Reader :=
  inTurn [exactly "ENUM_".toList, someOf Text.isWord]

/-- The shapes in which a line declares names. -/
def namePatterns : List (Recogniser Found) :=
  [wordNaming (inTurn [wordOf declaringWords, gap]) wordEnd,
   wordNaming (inTurn [wordOf accessWords, gap, wordOf declaringWords, gap]) wordEnd,
   wordNaming (inTurn [wordOf inputWords, gap, oneOf [wordOf declaringWords, enumType], gap])
     wordEnd,
   wordNaming (inTurn [className, gap]) wordEnd]

/-- The reserved words that the line declares as names, each place once. The
word `operator` announces an operator and is none of them. -/
def reservedNames (bare : List Char) : List (Occurrence Found) :=
  let declared := namePatterns.flatMap fun pattern => occurrences pattern bare
  let reserved := declared.filter fun o => o.name != "operator" && Vocabulary.isReserved o.name
  reserved.eraseDupsBy fun a b => a.start == b.start

/-- Does an index follow the name, so that it names an array? -/
def namesArray (bare : List Char) (o : Occurrence Found) : Bool :=
  (Text.trimStart (Text.dropBytes o.stop bare)).head? == some '['

/-- Report reserved words that are used as names. -/
def reservedWords (doc : Document) (line : Line) (number : Nat) : List Diagnostic :=
  (reservedNames line.bare).map fun o =>
    (Finding.reservedKeyword o.name (namesArray line.bare o)).report
      (doc.span number o.start o.stop)

/-- Report the names of a line that cannot be names. -/
def naming (doc : Document) (line : Line) (number : Nat) : List Diagnostic :=
  if (Text.trimStart line.code).head? == some '#' then []
  else functionName doc line number ++ reservedWords doc line number

end TradeScript.Check
