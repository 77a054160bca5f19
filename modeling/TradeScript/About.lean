/-!
# TradeScript.About

How the program names itself.
-/

namespace TradeScript.About

def name : String := "mqlint"

def version : String := "0.1.0"

def description : String := "Heuristic diagnostics for MQL4 and MQL5 trading scripts"

def license : String := "MIT"

end TradeScript.About
