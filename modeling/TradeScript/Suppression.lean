import TradeScript.Diagnostic.Basic
import TradeScript.Scan.Reader

/-!
# TradeScript.Suppression

Comments that switch diagnostics off:

* `// mqlint-disable a, b` from its own line on, until the tags are enabled again;
* `// mqlint-enable a, b` ends that, its own line included;
* `// mqlint-disable-next-line a` for the next line only.

Tags are separated by commas, spaces and tabs. The tag `all`, or no tag at all,
stands for every code. A comment that switches diagnostics is recognised
wherever it ends a line, inside other comments too.
-/

namespace TradeScript

open Text (isBlank isWord)

/-- The tag that stands for every code. -/
def allTag : String := "all"

namespace Suppression

/-- What a switching comment does with its tags. -/
inductive Action where
  | disable
  | enable
  | disableNextLine
  deriving Repr, DecidableEq

/-- The actions and their words. The longer word comes first, because
`disable` also stands at its front. -/
def Action.words : List (Action × String) :=
  [(disableNextLine, "disable-next-line"), (disable, "disable"), (enable, "enable")]

/-- A switching comment: what it does, and with which tags. -/
structure Switch where
  action : Action
  tags : List String
  deriving Repr, DecidableEq

/-- The characters of a list of tags. -/
def isTagListChar (c : Char) : Bool :=
  isWord c || isBlank c || c == ',' || c == '-'

/-- The characters between two tags. -/
def isTagBreak (c : Char) : Bool :=
  c == ',' || c == ' ' || c == '\t'

/-- The tags of a list. A list without tags names `all`. -/
def tagsOf (list : List Char) : List String :=
  match ((Text.pieces isTagBreak list).map Text.trim).filter (!·.isEmpty) with
  | [] => [allTag]
  | tags => tags.map String.ofList

/-- A switching comment that starts at the front of the text and runs to its
end. -/
def switchAtFront? (cs : List Char) : Option Switch :=
  match Scan.inTurn [Scan.exactly ['/', '/'], Scan.blanks, Scan.exactly "mqlint-".toList] cs with
  | none => none
  | some (_, rest) =>
      Action.words.findSome? fun (action, word) =>
        match Text.after? word.toList rest with
        | none => none
        | some list =>
            if Scan.closesWord list && list.all isTagListChar then some ⟨action, tagsOf list⟩
            else none

/-- The first switching comment of a line. -/
def switch? : List Char → Option Switch
  | [] => none
  | c :: cs => (switchAtFront? (c :: cs)).or (switch? cs)

/-- The switching comment of each line of a text. Carriage returns at the end of
a line do not count. -/
def switches (text : List Char) : List (Option Switch) :=
  (Text.splitAt '\n' text).map fun line =>
    switch? (line.reverse.dropWhile (· == '\r')).reverse

end Suppression

/-- Lines on which a tag is switched off, both ends included. -/
structure QuietSpan where
  tag : String
  first : UInt32
  last : UInt32
  deriving Repr, DecidableEq

/-- Is the line in the span? -/
def QuietSpan.covers (span : QuietSpan) (line : UInt32) : Bool :=
  span.first ≤ line && line ≤ span.last

/-- The spans on which tags are switched off. -/
structure Suppressions where
  spans : List QuietSpan
  deriving Repr, DecidableEq

namespace Suppression

/-- The spans that are over, and the tags that are switched off, each with the
line since which it is. -/
structure State where
  spans : List QuietSpan
  active : List (String × UInt32)

/-- Switch a tag off from a line on, unless it is off. -/
def State.disable (state : State) (line : UInt32) (tag : String) : State :=
  if state.active.any fun a => a.1 == tag then state
  else { state with active := state.active ++ [(tag, line)] }

/-- Switch a tag on again, if it is off; the line itself is still quiet. -/
def State.enable (state : State) (line : UInt32) (tag : String) : State :=
  match state.active.find? fun a => a.1 == tag with
  | none => state
  | some a =>
      { spans := state.spans ++ [⟨tag, a.2, line⟩]
        active := state.active.filter fun a => !(a.1 == tag) }

/-- Switch a tag off for the line after this one; the last line that has a number is
taken to follow itself. -/
def State.disableNext (state : State) (line : UInt32) (tag : String) : State :=
  let next := UInt32.ofNatClamp (line.toNat + 1)
  { state with spans := state.spans ++ [⟨tag, next, next⟩] }

/-- Follow the switching comment of a line, if it has one. -/
def State.step (state : State) (line : UInt32) (switch : Option Switch) : State :=
  match switch with
  | none => state
  | some ⟨.disable, tags⟩ => tags.foldl (·.disable line ·) state
  | some ⟨.enable, tags⟩ => tags.foldl (·.enable line ·) state
  | some ⟨.disableNextLine, tags⟩ => tags.foldl (·.disableNext line ·) state

/-- Follow the switching comments of consecutive lines, the first of which has
the index `index`. -/
def State.run (state : State) (index : Nat) : List (Option Switch) → State
  | [] => state
  | switch :: rest => State.run (state.step (.ofNatClamp index) switch) (index + 1) rest

end Suppression

namespace Suppressions

/-- The greatest number that a line can have. -/
def lastLine : UInt32 := 0xffffffff

/-- The spans that the switching comments of a text make. A tag that is still off at
the end of the text stays off on all lines behind. -/
def ofText (text : List Char) : Suppressions :=
  let final := Suppression.State.run ⟨[], []⟩ 0 (Suppression.switches text)
  ⟨final.spans ++ final.active.map fun a => ⟨a.1, a.2, lastLine⟩⟩

/-- Is nothing switched off anywhere? -/
def isEmpty (s : Suppressions) : Bool :=
  s.spans.isEmpty

/-- The tags that are switched off somewhere, each once. -/
def tags (s : Suppressions) : List String :=
  (s.spans.map QuietSpan.tag).eraseDups

/-- Is the code switched off on the line, by its own tag or by `all`? -/
def isQuiet (s : Suppressions) (code : Code) (line : UInt32) : Bool :=
  s.spans.any fun span => (span.tag == code.tag || span.tag == allTag) && span.covers line

/-- The diagnostics that are not switched off where they start. -/
def apply (s : Suppressions) (diagnostics : List Diagnostic) : List Diagnostic :=
  diagnostics.filter fun d => !s.isQuiet d.code d.range.start.line

end Suppressions

end TradeScript
