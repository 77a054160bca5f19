import TradeScript.Text.Blank

/-!
# TradeScript.Diagnostic.Code

The rules a document is checked against. Every rule has a stable tag, by which
it is named on the command line, in settings and in suppression comments, a
category that tells which family of checks it belongs to, and the severity its
diagnostics have unless a check says otherwise.
-/

namespace TradeScript

/-- How serious a diagnostic is. -/
inductive Severity where
  /-- Code that will not compile or is certainly wrong. -/
  | error
  /-- A likely mistake. -/
  | warning
  /-- A suggestion. -/
  | information
  deriving Repr, DecidableEq, Inhabited

namespace Severity

def tag : Severity → String
  | error => "error"
  | warning => "warning"
  | information => "information"

def ofTag? : String → Option Severity
  | "error" => some error
  | "warning" => some warning
  | "information" => some information
  | _ => none

end Severity

/-- The families of checks, in the order in which they run. -/
inductive Category where
  /-- Shape of single lines, and brackets. -/
  | syntactic
  /-- Symbols and types. -/
  | semantic
  /-- Good practice. -/
  | style
  deriving Repr, DecidableEq, Inhabited

namespace Category

def tag : Category → String
  | syntactic => "syntax"
  | semantic => "semantic"
  | style => "style"

end Category

/-- The rule behind a diagnostic. -/
inductive Code where
  /-- A statement line without a terminating semicolon. -/
  | missingSemicolon
  /-- A closing bracket with nothing open. -/
  | unmatchedBracket
  /-- A closing bracket that does not fit the innermost open one. -/
  | mismatchedBracket
  /-- A bracket still open at the end. -/
  | unclosedBracket
  /-- A function declared under a malformed name. -/
  | invalidFunctionName
  /-- A reserved word used as the name of a variable. -/
  | reservedKeyword
  /-- An unknown `#directive`. -/
  | invalidPreprocessor
  /-- An unknown `#property` key. -/
  | invalidPropertyValue
  /-- An identifier used without a declaration. -/
  | undefinedVariable
  /-- A call to a function that is neither built in nor declared. -/
  | undefinedFunction
  /-- A literal assigned to a variable of an incompatible type. -/
  | typeMismatch
  /-- A statement after a `return`. -/
  | unreachableCode
  /-- A declaration that is never mentioned again. -/
  | unusedVariable
  /-- A number of several digits. -/
  | magicNumber
  /-- A function with too many lines. -/
  | longFunction
  /-- Braces nested too deeply. -/
  | deepNesting
  deriving Repr, DecidableEq, Inhabited

namespace Code

/-- Every code, in the order in which the checks run. -/
def all : List Code :=
  [missingSemicolon, unmatchedBracket, mismatchedBracket, unclosedBracket, invalidFunctionName,
   reservedKeyword, invalidPreprocessor, invalidPropertyValue, undefinedVariable,
   undefinedFunction, typeMismatch, unreachableCode, unusedVariable, magicNumber, longFunction,
   deepNesting]

def tag : Code → String
  | missingSemicolon => "missing-semicolon"
  | unmatchedBracket => "unmatched-bracket"
  | mismatchedBracket => "mismatched-bracket"
  | unclosedBracket => "unclosed-bracket"
  | invalidFunctionName => "invalid-function-name"
  | reservedKeyword => "reserved-keyword"
  | invalidPreprocessor => "invalid-preprocessor"
  | invalidPropertyValue => "invalid-property-value"
  | undefinedVariable => "undefined-variable"
  | undefinedFunction => "undefined-function"
  | typeMismatch => "type-mismatch"
  | unreachableCode => "unreachable-code"
  | unusedVariable => "unused-variable"
  | magicNumber => "magic-number"
  | longFunction => "long-function"
  | deepNesting => "deep-nesting"

/-- The code with exactly this tag. -/
def ofTag? (s : String) : Option Code :=
  all.find? fun c => c.tag == s

def category : Code → Category
  | missingSemicolon | unmatchedBracket | mismatchedBracket | unclosedBracket
  | invalidFunctionName | reservedKeyword | invalidPreprocessor | invalidPropertyValue =>
      .syntactic
  | undefinedVariable | undefinedFunction | typeMismatch | unreachableCode => .semantic
  | unusedVariable | magicNumber | longFunction | deepNesting => .style

/-- The severity of a diagnostic of this code, unless its check says otherwise. -/
def severity : Code → Severity
  | missingSemicolon | unmatchedBracket | mismatchedBracket | unclosedBracket
  | invalidFunctionName | reservedKeyword | invalidPreprocessor => .error
  | invalidPropertyValue | undefinedVariable | undefinedFunction | typeMismatch
  | unreachableCode => .warning
  | unusedVariable | magicNumber | longFunction | deepNesting => .information

/-- The name under which no code is known; blanks around it do not count. -/
structure Unknown where
  name : String
  deriving Repr, DecidableEq

/-- The text shown for an unknown code: it names the codes there are. -/
def Unknown.message (e : Unknown) : String :=
  let known := ", ".intercalate (all.map tag)
  s!"unknown diagnostic code: {e.name}. Use: {known}"

/-- Read a code by its tag; blanks around it do not count. -/
def parse (s : String) : Except Unknown Code :=
  let name := Text.trimString s
  match ofTag? name with
  | some code => .ok code
  | none => .error ⟨name⟩

theorem ofTag?_tag (c : Code) : ofTag? c.tag = some c := by
  cases c <;> decide

end Code

end TradeScript
