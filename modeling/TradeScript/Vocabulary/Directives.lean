import TradeScript.Text.Basic
import TradeScript.Text.Digit

/-!
# TradeScript.Vocabulary.Directives

The names that may follow `#`, and the keys that may follow `#property`.
-/

namespace TradeScript.Vocabulary

/-- The preprocessor directives. -/
def directives : List String :=
  ["include", "property", "define", "undef", "ifdef", "ifndef", "else", "endif", "import",
   "resource", "class", "region", "endregion", "tester_indicator", "tester_file",
   "tester_library", "tester_set", "tester_init", "tester_load", "tester_unload", "tester_deinit"]

/-- The keys of `#property` lines. -/
def propertyKeys : List String :=
  ["copyright", "link", "version", "description", "strict", "icon", "stacksize", "library",
   "script_show_confirm", "script_show_inputs", "indicator_chart_window",
   "indicator_separate_window", "indicator_buffers", "indicator_plots", "indicator_minimum",
   "indicator_maximum", "indicator_height", "indicator_digits", "indicator_applied_price",
   "indicator_label", "indicator_color", "indicator_style", "indicator_width", "indicator_type",
   "indicator_plot1_arrow", "indicator_plot1_arrow_shift", "indicator_plot1_color",
   "indicator_plot1_drawbegin", "indicator_plot1_label", "indicator_plot1_shift",
   "indicator_plot1_style", "indicator_plot1_type", "indicator_plot1_width", "indicator_level",
   "indicator_levelcolor", "indicator_levelstyle", "indicator_levelwidth", "indicator_leveltext",
   "indicator_levelvalue", "tester_file", "tester_indicator", "tester_library", "tester_set"]

/-- The property keys that take the number of a buffer or level right after
them, as `indicator_label3` does. -/
def numberedKeys : List String :=
  ["indicator_label", "indicator_color", "indicator_style", "indicator_width", "indicator_type",
   "indicator_level"]

/-- Is the key one of `numberedKeys` followed by decimal digits, of any script? -/
def isNumberedKey (key : String) : Bool :=
  numberedKeys.any fun stem =>
    match Text.after? stem.toList key.toList with
    | some rest => !rest.isEmpty && rest.all Text.isDecimalDigit
    | none => false

/-- Is the name a preprocessor directive? -/
def isDirective (name : String) : Bool :=
  directives.contains name

/-- Is the key one that `#property` knows? -/
def isPropertyKey (key : String) : Bool :=
  propertyKeys.contains key || isNumberedKey key

end TradeScript.Vocabulary
