import TradeScript.Diagnostic.Basic
import TradeScript.Document.Basic
import TradeScript.Scan.Occurrence
import TradeScript.Vocabulary.Basic

/-!
# TradeScript.Check.Directive

Every `#name` on a line has to be a directive, and a `#property` needs a key
that is known.
-/

namespace TradeScript.Check

open Scan

/-- `#name`, anywhere. -/
def directiveName : Recogniser Found := fun _ cs =>
  Scan.naming (exactly ['#']) identifier nothing cs

/-- `#property key`, anywhere. -/
def propertyKey : Recogniser Found := fun _ cs =>
  Scan.naming (inTurn [exactly "#property".toList, gap]) identifier nothing cs

/-- Report the key of the first `#property key` from the directive on, if it is
not known. -/
def propertyKeyFrom (doc : Document) (line : Line) (number : Nat) (directive : Occurrence Found) :
    List Diagnostic :=
  match (occurrences propertyKey (Text.dropBytes directive.offset line.bare)).head? with
  | none => []
  | some key =>
      if Vocabulary.isPropertyKey key.name then []
      else
        let start := directive.offset + key.start
        let stop := directive.offset + key.stop
        [(Finding.invalidPropertyValue key.name).report (doc.span number start stop)]

/-- Report the unknown directives and property keys of a line. -/
def directives (doc : Document) (line : Line) (number : Nat) : List Diagnostic :=
  (occurrences directiveName line.bare).flatMap fun o =>
    if !Vocabulary.isDirective o.name then
      [(Finding.invalidPreprocessor o.name).report (doc.span number o.offset o.stop)]
    else if o.name == "property" then propertyKeyFrom doc line number o
    else []

end TradeScript.Check
