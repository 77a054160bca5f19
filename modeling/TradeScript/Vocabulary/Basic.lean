import TradeScript.Vocabulary.Directives
import TradeScript.Vocabulary.Functions
import TradeScript.Vocabulary.Keywords

/-!
# TradeScript.Vocabulary.Basic

Which words need no declaration. Only the functions of a single dialect depend
on the dialect; everything else is shared.
-/

namespace TradeScript.Vocabulary

/-- Is the word a keyword, a predefined constant or a name of the standard
library? -/
def isKeyword (word : String) : Bool :=
  keywords.contains word

/-- Is the word a built-in function of the dialect? -/
def isFunction (dialect : Dialect) (word : String) : Bool :=
  sharedFunctions.contains word || (ownFunctions dialect).contains word

/-- Is the word known without a declaration? -/
def isKnown (dialect : Dialect) (word : String) : Bool :=
  isKeyword word || isFunction dialect word

/-- Is the word one that may never be declared? -/
def isReserved (word : String) : Bool :=
  reservedWords.contains word

/-- Is the word one of file headers, never reported as undefined? -/
def isHeaderWord (word : String) : Bool :=
  headerWords.contains word

end TradeScript.Vocabulary
