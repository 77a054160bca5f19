import TradeScript.Diagnostic.Code
import TradeScript.Position

/-!
# TradeScript.Diagnostic.Basic

A diagnostic is a message at a range of a document. Every diagnostic that a
check produces comes from a `Finding`, which says what was found; its code, its
severity and the wording of its message follow from that.
-/

namespace TradeScript

/-- A message at a range of a document. -/
structure Diagnostic where
  range : Range
  message : String
  severity : Severity
  code : Code
  deriving Repr, DecidableEq

/-- What a check can find. -/
inductive Finding where
  | missingSemicolon
  | unmatchedBracket (found : Char)
  | mismatchedBracket (expected found : Char)
  | unclosedBracket (opened : Char)
  | invalidFunctionName
  /-- A reserved word as the name of a variable, or of an array. -/
  | reservedKeyword (name : String) (isArray : Bool)
  | invalidPreprocessor (name : String)
  | invalidPropertyValue (key : String)
  | undefinedVariable (name : String)
  | undefinedFunction (name : String)
  /-- A text literal for a variable of the numeric `type`. -/
  | textForNumber (type name : String)
  /-- A number for a text variable. -/
  | numberForText (value name : String)
  /-- A truth value for a variable of `type`. -/
  | truthForOther (type name : String)
  /-- A colour for a variable of `type`. -/
  | colorForOther (type name : String)
  | unreachableCode
  | unusedVariable (name : String)
  | magicNumber (digits : String)
  | longFunction (lines : Nat)
  | deepNesting (level : Nat)
  deriving Repr, DecidableEq

namespace Finding

/-- The rule that the finding breaks. -/
def code : Finding → Code
  | missingSemicolon => .missingSemicolon
  | unmatchedBracket _ => .unmatchedBracket
  | mismatchedBracket _ _ => .mismatchedBracket
  | unclosedBracket _ => .unclosedBracket
  | invalidFunctionName => .invalidFunctionName
  | reservedKeyword _ _ => .reservedKeyword
  | invalidPreprocessor _ => .invalidPreprocessor
  | invalidPropertyValue _ => .invalidPropertyValue
  | undefinedVariable _ => .undefinedVariable
  | undefinedFunction _ => .undefinedFunction
  | textForNumber _ _ | numberForText _ _ | truthForOther _ _ | colorForOther _ _ => .typeMismatch
  | unreachableCode => .unreachableCode
  | unusedVariable _ => .unusedVariable
  | magicNumber _ => .magicNumber
  | longFunction _ => .longFunction
  | deepNesting _ => .deepNesting

/-- The severity is that of the rule, except that text for a number is an error. -/
def severity : Finding → Severity
  | textForNumber _ _ => .error
  | f => f.code.severity

/-- The wording of the message. -/
def message : Finding → String
  | missingSemicolon => "Missing semicolon"
  | unmatchedBracket found => s!"Unmatched closing bracket '{found}'"
  | mismatchedBracket expected found =>
      s!"Mismatched bracket: expected '{expected}' but found '{found}'"
  | unclosedBracket opened => s!"Unclosed bracket '{opened}'"
  | invalidFunctionName => "Invalid function name"
  | reservedKeyword name true =>
      s!"'{name}' is a reserved keyword and cannot be used as an array name"
  | reservedKeyword name false =>
      s!"'{name}' is a reserved keyword and cannot be used as a variable name"
  | invalidPreprocessor name => s!"Invalid preprocessor directive '#{name}'"
  | invalidPropertyValue key => s!"Invalid property value '{key}' for #property directive"
  | undefinedVariable name => s!"Undefined variable '{name}'"
  | undefinedFunction name => s!"Undefined function '{name}'"
  | textForNumber type name => s!"Cannot assign string value to {type} variable '{name}'"
  | numberForText value name =>
      s!"Numeric value {value} should be enclosed in quotes for string variable '{name}'"
  | truthForOther type name => s!"Cannot assign boolean value to {type} variable '{name}'"
  | colorForOther type name => s!"Cannot assign color value to {type} variable '{name}'"
  | unreachableCode => "Unreachable code detected"
  | unusedVariable name => s!"Unused variable '{name}'"
  | magicNumber digits => s!"Consider replacing magic number '{digits}' with a named constant"
  | longFunction lines =>
      s!"Function is too long ({lines} lines). Consider breaking it into smaller functions."
  | deepNesting level => s!"Deep nesting detected (level {level}). Consider refactoring."

/-- The diagnostic of a finding at a range. -/
def report (finding : Finding) (range : Range) : Diagnostic :=
  ⟨range, finding.message, finding.severity, finding.code⟩

@[simp] theorem report_range (f : Finding) (r : Range) : (f.report r).range = r := rfl

@[simp] theorem report_code (f : Finding) (r : Range) : (f.report r).code = f.code := rfl

end Finding

end TradeScript
