import TradeScript.Text.Blank

/-!
# TradeScript.Dialect

The two dialects of the language. They share keywords and most built-in
functions; each has functions of its own.
-/

namespace TradeScript

/-- A dialect of the scripting language. -/
inductive Dialect where
  | mql4
  | mql5
  deriving Repr, DecidableEq, Inhabited

namespace Dialect

def tag : Dialect → String
  | mql4 => "mql4"
  | mql5 => "mql5"

/-- The dialect with exactly this tag. -/
def ofTag? : String → Option Dialect
  | "mql4" => some mql4
  | "mql5" => some mql5
  | _ => none

/-- The dialect that a file extension stands for, in any letter case. Header
files (`mqh`) belong to both. -/
def ofExtension? (ext : String) : Option Dialect :=
  match ext.map Char.toLower with
  | "mq4" => some mql4
  | "mq5" => some mql5
  | _ => none

/-- The name under which no dialect is known. -/
structure Unknown where
  name : String
  deriving Repr, DecidableEq

def Unknown.message (e : Unknown) : String :=
  s!"unknown dialect: {e.name}. Use: mql4, mql5"

/-- Read a dialect by its tag or its file extension, in any letter case; blanks
around it do not count. -/
def parse (s : String) : Except Unknown Dialect :=
  match (Text.trimString s).map Char.toLower with
  | "mql4" | "mq4" => .ok mql4
  | "mql5" | "mq5" => .ok mql5
  | _ => .error ⟨s⟩

end Dialect

end TradeScript
