import TradeScript.Data.Number
import TradeScript.Data.Yaml.Cursor

/-!
# TradeScript.Data.Yaml.Scalar

Reading scalars: plain ones, ones in quotes, and blocks of lines. All of them can
stretch over lines. A single line break between two lines of a plain or quoted
scalar, or of a folded block, becomes a space; further ones stay.
-/

namespace TradeScript.Yaml

open Number (hexDigit?)

/-! ### Gaps -/

/-- A stretch of blanks and line breaks inside of a scalar. -/
structure Gap where
  /-- The blanks before the first line break. -/
  blanks : List Char := []
  /-- The first line break, if there is one; it is empty if it was escaped. -/
  first : Option (List Char) := none
  /-- The other line breaks. -/
  further : List Char := []

namespace Gap

/-- What a gap comes to between two parts of a scalar. -/
def folded (gap : Gap) : List Char :=
  match gap.first with
  | none => gap.blanks
  | some ['\n'] => if gap.further.isEmpty then [' '] else gap.further
  | some first => first ++ gap.further

/-- The gap with a blank behind it. Blanks behind a line break do not count. -/
def pushBlank (gap : Gap) (c : Char) : Gap :=
  if gap.first.isSome then gap else { gap with blanks := gap.blanks ++ [c] }

/-- The gap with a line break behind it. -/
def pushBreak (gap : Gap) (c : Char) : Gap :=
  match gap.first with
  | none => { gap with first := some [c] }
  | some _ => { gap with further := gap.further ++ [c] }

/-- Go on with a gap to its end. Where lines have to be indented, to a column, no tab
may stand before that column. -/
def read? (indent : Nat) : (fuel : Nat) → Gap → Cursor → Option (Gap × Cursor)
  | 0, _, _ => none
  | fuel + 1, gap, c =>
      match c.break? with
      | some (b, c) => read? indent fuel (gap.pushBreak b) c
      | none =>
          match c.rest with
          | ch :: _ =>
              if !isBlank ch then some (gap, c)
              else if gap.first.isSome && ch == '\t' && c.column < indent then none
              else read? indent fuel (gap.pushBlank ch) (c.skip 1)
          | [] => some (gap, c)

end Gap

/-! ### Plain scalars -/

/-- The characters of a plain scalar up to the next gap, or up to its end. In a flow
collection, a colon may not stand before another mark. -/
def plainRun? (flow : Bool) : List Char → Option (List Char)
  | [] => some []
  | ch :: rest =>
      if isGap ch then some []
      else if flow && ch == ':' && rest.head?.any (fun c => isFlowMark c || c == '?') then none
      else if (ch == ':' && startsGap rest) || (flow && isFlowMark ch) then some []
      else (plainRun? flow rest).map (ch :: ·)

/-- A scalar without quotes. -/
structure Plain where
  text : List Char
  /-- Was there a line break between the scalar and the place behind it? -/
  broken : Bool

/-- Go on with a plain scalar, behind `text` and a gap. Its lines are indented to a
column, unless it stands in a flow collection. -/
def plainFrom? (flow : Bool) (indent : Nat) :
    (fuel : Nat) → (text : List Char) → Gap → Cursor → Option (Plain × Cursor)
  | 0, _, _, _ => none
  | fuel + 1, text, gap, c =>
      let ended : Option (Plain × Cursor) := some (⟨text, gap.first.isSome⟩, c)
      if c.atStartMark || c.atEndMark || c.rest.head? == some '#' then ended
      else
        match plainRun? flow c.rest with
        | none => none
        | some [] => ended
        | some run =>
            let text := text ++ gap.folded ++ run
            let c := c.skip run.length
            match Gap.read? indent (c.rest.length + 1) {} c with
            | none => none
            | some (gap, after) =>
                if startsGap c.rest && !c.rest.isEmpty && (flow || indent ≤ after.column) then
                  plainFrom? flow indent fuel text gap after
                else some (⟨text, gap.first.isSome⟩, after)

/-- A plain scalar. -/
def plain? (flow : Bool) (indent : Nat) (c : Cursor) : Option (Plain × Cursor) :=
  plainFrom? flow indent (c.rest.length + 1) [] {} c

/-! ### Quoted scalars -/

/-- The character that a letter behind a backslash stands for. -/
def letterEscape? : Char → Option Char
  | '0' => some '\x00'
  | 'a' => some '\x07'
  | 'b' => some '\x08'
  | 't' | '\t' => some '\t'
  | 'n' => some '\n'
  | 'v' => some '\x0b'
  | 'f' => some '\x0c'
  | 'r' => some '\r'
  | 'e' => some '\x1b'
  | ' ' => some ' '
  | '"' => some '"'
  | '/' => some '/'
  | '\\' => some '\\'
  | 'N' => some '\u0085'
  | '_' => some '\u00A0'
  | 'L' => some '\u2028'
  | 'P' => some '\u2029'
  | _ => none

/-- The number of digits behind a letter that says how many there are. -/
def digitEscape? : Char → Option Nat
  | 'x' => some 2
  | 'u' => some 4
  | 'U' => some 8
  | _ => none

/-- What an escape stands for, and the place behind it. It starts at its backslash. -/
def escape? (c : Cursor) : Option (Char × Cursor) :=
  match c.rest with
  | _ :: letter :: rest =>
      match digitEscape? letter with
      | some count => (Number.hexChar? count rest).map fun (ch, _) => (ch, c.skip (count + 2))
      | none => (letterEscape? letter).map fun ch => (ch, c.skip 2)
  | _ => none

/-- What ends a stretch of a quoted scalar without gaps. -/
inductive Stop where
  /-- The closing quote. -/
  | quote
  /-- A gap, or the end of the text. -/
  | gap
  /-- A line break behind a backslash. -/
  | escapedBreak

/-- The characters of a quoted scalar up to the next stop, and the place of the stop
or, if it is an escaped line break, behind it. -/
def quotedRun? (quote : Char) : (fuel : Nat) → Cursor → Option ((List Char × Stop) × Cursor)
  | 0, _ => none
  | fuel + 1, c =>
      let push (ch : Char) (c : Cursor) :=
        (quotedRun? quote fuel c).map fun ((run, stop), c) => ((ch :: run, stop), c)
      match c.rest with
      | [] => some (([], .gap), c)
      | ch :: rest =>
          if isGap ch then some (([], .gap), c)
          else if ch == quote then
            if quote == '\'' && rest.head? == some '\'' then push '\'' (c.skip 2)
            else some (([], .quote), c)
          else if quote == '"' && ch == '\\' then
            match (c.skip 1).break? with
            | some (_, c) => some (([], .escapedBreak), c)
            | none =>
                match escape? c with
                | some (ch, c) => push ch c
                | none => none
          else push ch (c.skip 1)

/-- Go on with a quoted scalar, behind `text`, up to its closing quote. No mark of a
document may stand in it. -/
def quotedFrom? (quote : Char) :
    (fuel : Nat) → (text : List Char) → Cursor → Option (List Char × Cursor)
  | 0, _, _ => none
  | fuel + 1, text, c =>
      if c.atStartMark || c.atEndMark || c.rest.isEmpty then none
      else
        match quotedRun? quote (c.rest.length + 1) c with
        | none => none
        | some ((run, .quote), c) => some (text ++ run, c.skip 1)
        | some ((run, stop), c) =>
            let gap : Gap := match stop with
              | .escapedBreak => { first := some [] }
              | _ => {}
            match gap.read? 0 (c.rest.length + 1) c with
            | none => none
            | some (gap, c) => quotedFrom? quote fuel (text ++ run ++ gap.folded) c

/-- A scalar in quotes, which starts at its opening quote. -/
def quoted? (quote : Char) (c : Cursor) : Option (List Char × Cursor) :=
  quotedFrom? quote (c.rest.length + 1) [] (c.skip 1)

/-! ### Blocks -/

/-- What happens to the line breaks at the end of a block. -/
inductive Chomping where
  /-- The last line keeps its break. -/
  | clip
  /-- None are kept. -/
  | strip
  /-- All are kept. -/
  | keep
  deriving DecidableEq

/-- The first line of a block: how it ends, and how far its lines are indented, if that
is said. -/
structure Header where
  chomping : Chomping := .clip
  indent : Option Nat := none

/-- The sign of a way to end a block. -/
def chomping? : Char → Option Chomping
  | '-' => some .strip
  | '+' => some .keep
  | _ => none

/-- A header without its blanks and its comment. The sign and the digit can come in
any order. -/
def header? (c : Cursor) : Option (Header × Cursor) :=
  let digit? (ch : Char) : Option Nat := if ch.isDigit then hexDigit? ch else none
  let checked (h : Header) (c : Cursor) := if h.indent = some 0 then none else some (h, c)
  match c.rest with
  | [] => some ({}, c)
  | a :: rest =>
      match chomping? a, digit? a with
      | some chomping, _ =>
          match rest.head?.bind digit? with
          | some n => checked ⟨chomping, some n⟩ (c.skip 2)
          | none => some (⟨chomping, none⟩, c.skip 1)
      | none, some n =>
          match rest.head?.bind chomping? with
          | some chomping => checked ⟨chomping, some n⟩ (c.skip 2)
          | none => checked ⟨.clip, some n⟩ (c.skip 1)
      | none, none => some ({}, c)

/-- The line breaks of empty lines. -/
structure EmptyLines where
  breaks : List Char := []
  /-- The widest indentation. -/
  width : Nat := 0

/-- Go on with empty lines, to the indentation of the next line that is not empty. It
is `indent` columns wide, if that is known, and has no tabs. -/
def emptyLines? (indent : Option Nat) :
    (fuel : Nat) → EmptyLines → Cursor → Option (EmptyLines × Cursor)
  | 0, _, _ => none
  | fuel + 1, lines, c =>
      let spaces := (c.rest.takeWhile (· == ' ')).length
      let c := c.skip (match indent with
        | some n => min spaces (n - c.column)
        | none => spaces)
      let lines := { lines with width := max lines.width c.column }
      if indent.all (c.column < ·) && c.rest.head? == some '\t' then none
      else
        match c.break? with
        | some (b, c) => emptyLines? indent fuel { lines with breaks := lines.breaks ++ [b] } c
        | none => some (lines, c)

/-- A block, as far as it has been read. -/
structure Block where
  text : List Char := []
  /-- The line break behind the last line. -/
  last : List Char := []
  /-- The line breaks of the empty lines behind it. -/
  empty : List Char := []
  /-- Did the last line start with a blank? -/
  blank : Bool := false

namespace Block

/-- The block with another line. Between two lines of a folded block that do not start
with blanks, a newline is left out, or becomes a space if it is the only one. -/
def push (literal : Bool) (block : Block) (line last empty : List Char) : Block :=
  let blank := line.head?.any isBlank
  let joint :=
    if !literal && block.last == ['\n'] && !block.blank && !blank then
      if block.empty.isEmpty then [' '] else []
    else block.last
  { text := block.text ++ joint ++ block.empty ++ line, last, empty, blank }

/-- The text of a block. -/
def chomped (block : Block) : Chomping → List Char
  | .strip => block.text
  | .clip => block.text ++ block.last
  | .keep => block.text ++ block.last ++ block.empty

/-- Go on with the lines of a block. -/
def read? (literal : Bool) (indent : Nat) : (fuel : Nat) → Block → Cursor → Option (Block × Cursor)
  | 0, _, _ => none
  | fuel + 1, block, c =>
      if c.column != indent || c.rest.isEmpty then some (block, c)
      else
        let (line, c) := c.span fun ch => !isBreak ch
        let (last, c) := match c.break? with
          | some (b, c) => ([b], c)
          | none => ([], c)
        match emptyLines? (some indent) (c.rest.length + 1) {} c with
        | none => none
        | some (lines, c) => read? literal indent fuel (block.push literal line last lines.breaks) c

end Block

/-- A block of lines behind its mark. It stands in a collection whose entries are
indented to the column before `outer`, if there is one. -/
def block? (literal : Bool) (outer : Nat) (c : Cursor) : Option (List Char × Cursor) :=
  match header? c with
  | none => none
  | some (header, c) =>
      let c := c.skipBlanks.skipComment
      if !c.atLineEnd then none
      else
        let c := match c.break? with
          | some (_, c) => c
          | none => c
        let known := header.indent.map (· + (outer - 1))
        match emptyLines? known (c.rest.length + 1) {} c with
        | none => none
        | some (lines, c) =>
            let indent := known.getD (max lines.width (max outer 1))
            (Block.read? literal indent (c.rest.length + 1) { empty := lines.breaks } c).map
              fun (block, c) => (block.chomped header.chomping, c)

end TradeScript.Yaml
