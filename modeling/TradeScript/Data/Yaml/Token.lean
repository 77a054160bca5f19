import TradeScript.Data.Yaml.Scalar

/-!
# TradeScript.Data.Yaml.Token

The tokens of a YAML text. Some of them stand in the text, others follow from its
layout: a block collection starts where an entry is indented deeper than the block
around it, and ends where a line is indented less.

A key needs no mark of its own. Whatever could be one is kept as a *candidate*, one
for every level of flow collections, until a colon shows that it was a key; then the
mark is put in front of it. A key stands on one line and is no longer than 1024
bytes. Where only a key can stand, a candidate that turns out to be none is an error.
-/

namespace TradeScript.Yaml

/-- A token. -/
inductive Token where
  /-- The version that the text is written for. -/
  | version (major minor : Nat)
  /-- A handle of tags and what it stands for. -/
  | handle (name stem : String)
  | documentStart
  | documentEnd
  | blockSequence
  | blockMapping
  | blockEnd
  | entry
  | key
  | value
  | flowSequence
  | flowSequenceEnd
  | flowMapping
  | flowMappingEnd
  | comma
  | alias (name : String)
  | anchor (name : String)
  | tag (handle suffix : String)
  | scalar (plain : Bool) (text : String)
  deriving Repr, DecidableEq

/-! ### Names and tags -/

/-- The name of an anchor behind its mark. -/
def anchorName? (c : Cursor) : Option (String × Cursor) :=
  let (name, c) := c.span isNameChar
  let ends := match c.rest with
    | [] => true
    | ch :: _ => isGap ch || "?:,]\x7d%@`".toList.contains ch
  if name.isEmpty || !ends then none else some (String.ofList name, c)

/-- A character of a tag. Inside of angle brackets and in directives there are some
more. -/
def isTagChar (wide : Bool) (c : Char) : Bool :=
  isNameChar c || ";/?:@&=+$.%!~*'()".toList.contains c || (wide && ",[]".toList.contains c)

/-- The byte that two hexadecimal digits behind a percent sign stand for. -/
def escapedByte? : List Char → Option (Nat × List Char)
  | '%' :: a :: b :: rest => do
      let a ← Number.hexDigit? a
      let b ← Number.hexDigit? b
      some (a * 16 + b, rest)
  | _ => none

/-- How many bytes follow the first byte of a character, and the bits that it gives. -/
def leadByte? (byte : Nat) : Option (Nat × Nat) :=
  if byte < 0x80 then some (0, byte)
  else if 0xC0 ≤ byte ∧ byte < 0xE0 then some (1, byte - 0xC0)
  else if 0xE0 ≤ byte ∧ byte < 0xF0 then some (2, byte - 0xE0)
  else if 0xF0 ≤ byte ∧ byte < 0xF8 then some (3, byte - 0xF0)
  else none

/-- The bits of a character with those of the bytes that follow its first byte. -/
def trailBytes? : (count bits : Nat) → List Char → Option (Nat × List Char)
  | 0, bits, cs => some (bits, cs)
  | count + 1, bits, cs =>
      match escapedByte? cs with
      | some (byte, rest) =>
          if 0x80 ≤ byte ∧ byte < 0xC0 then trailBytes? count (bits * 64 + (byte - 0x80)) rest
          else none
      | none => none

/-- A character of a tag that is written as bytes. -/
def escapedChar? (cs : List Char) : Option (Char × List Char) := do
  let (byte, rest) ← escapedByte? cs
  let (count, bits) ← leadByte? byte
  let (n, rest) ← trailBytes? count bits rest
  some (Char.ofNat n, rest)

/-- The text of a tag without its escapes. -/
def unescapedTag? : (fuel : Nat) → List Char → Option (List Char)
  | 0, _ => none
  | _ + 1, [] => some []
  | fuel + 1, '%' :: rest =>
      match escapedChar? ('%' :: rest) with
      | some (c, rest) => (unescapedTag? fuel rest).map (c :: ·)
      | none => none
  | fuel + 1, c :: rest => (unescapedTag? fuel rest).map (c :: ·)

/-- The text of a tag. -/
def tagText? (wide : Bool) (c : Cursor) : Option (String × Cursor) :=
  let (text, c) := c.span (isTagChar wide)
  (unescapedTag? (text.length + 1) text).map fun text => (String.ofList text, c)

/-- The handle of a tag: a name between exclamation marks, or a single mark. What has
only the first mark is the front of a tag without a handle. -/
def tagHandle (c : Cursor) : String × Cursor :=
  let (name, after) := (c.skip 1).span isNameChar
  match after.rest with
  | '!' :: _ => (String.ofList ('!' :: name ++ ['!']), after.skip 1)
  | _ => (String.ofList ('!' :: name), after)

/-- A tag, which starts at its exclamation mark, by its handle and the rest. A tag that
is given in full has no handle. -/
def tag? (c : Cursor) : Option ((String × String) × Cursor) :=
  match (c.skip 1).rest with
  | '<' :: _ =>
      match tagText? true (c.skip 2) with
      | some (text, c) =>
          if text.isEmpty || c.rest.head? != some '>' then none else some (("", text), c.skip 1)
      | none => none
  | _ =>
      let (handle, after) := tagHandle c
      match tagText? false after with
      | none => none
      | some (text, c) =>
          if handle.length > 1 && handle.toList.getLast? == some '!' then
            if text.isEmpty then none else some ((handle, text), c)
          else
            let suffix := String.ofList (handle.toList.drop 1) ++ text
            some (if suffix.isEmpty then ("", "!") else ("!", suffix), c)

/-! ### Directives -/

/-- A number of a version: at most nine digits. -/
def versionNumber? (c : Cursor) : Option (Nat × Cursor) :=
  let (digits, c) := c.span Char.isDigit
  if digits.isEmpty || 9 < digits.length then none else some (Number.digitsValue digits, c)

/-- The numbers of a version. -/
def version? (c : Cursor) : Option (Token × Cursor) := do
  let (major, c) ← versionNumber? c
  match c.rest with
  | '.' :: _ =>
      let (minor, c) ← versionNumber? (c.skip 1)
      some (.version major minor, c)
  | _ => none

/-- A handle, what it stands for, and a gap. -/
def handle? (c : Cursor) : Option (Token × Cursor) := do
  let (name, c) := tagHandle c
  let whole := name == "!" || name.toList.getLast? == some '!'
  if !whole || !c.rest.head?.any isBlank then none
  else
    let (stem, c) ← tagText? true c.skipBlanks
    if stem.isEmpty || !startsGap c.rest then none else some (.handle name stem, c)

/-- A directive behind its mark, up to the end of its line. -/
def directive? (c : Cursor) : Option (Token × Cursor) :=
  let (name, c) := c.span isNameChar
  let start := c.skipBlanks
  let token := match String.ofList name, startsGap c.rest with
    | "YAML", true => version? start
    | "TAG", true => if start.rest.head? == some '!' then handle? start else none
    | _, _ => none
  match token with
  | none => none
  | some (token, c) =>
      let c := c.skipBlanks.skipComment
      if c.atLineEnd then some (token, c) else none

/-! ### Tokens from a text -/

/-- Something that may turn out to be a key. -/
structure Candidate where
  /-- Can nothing but a key stand here? -/
  required : Bool
  /-- The number of tokens before it. -/
  number : Nat
  index : Nat
  line : Nat
  column : Nat

/-- A text, as far as it has been taken apart. -/
structure Progress where
  cursor : Cursor
  /-- The tokens, last one first. -/
  tokens : List Token := []
  /-- The columns of the block collections that are open, innermost first. -/
  indents : List Nat := []
  /-- What may be a key, at the level of the innermost flow collection that is open. -/
  candidate : Option Candidate := none
  /-- What may be a key at the levels around it, innermost first. -/
  outer : List (Option Candidate) := []
  /-- Can a key start here? -/
  keyAllowed : Bool := true

namespace Progress

/-- Is a flow collection open? -/
def inFlow (s : Progress) : Bool :=
  !s.outer.isEmpty

/-- The column behind that of the innermost block collection. -/
def nextIndent (s : Progress) : Nat :=
  match s.indents with
  | [] => 0
  | column :: _ => column + 1

/-- Put a token behind the others. -/
def push (s : Progress) (token : Token) : Progress :=
  { s with tokens := token :: s.tokens }

/-- Put a token behind the first `number` ones. -/
def insert (s : Progress) (number : Nat) (token : Token) : Progress :=
  let behind := s.tokens.length - number
  { s with tokens := s.tokens.take behind ++ token :: s.tokens.drop behind }

/-- Move on in the text. -/
def goTo (s : Progress) (cursor : Cursor) : Progress :=
  { s with cursor }

/-- Say whether a key can start here. -/
def allowKey (s : Progress) (keyAllowed : Bool) : Progress :=
  { s with keyAllowed }

/-! #### Candidates -/

/-- Is it too late for a candidate to be a key? -/
def isStale (s : Progress) (k : Candidate) : Bool :=
  k.line < s.cursor.line || k.index + 1024 < s.cursor.index

/-- Drop a candidate for which it is too late. -/
def refresh? (s : Progress) : Option Candidate → Option (Option Candidate)
  | some k => if !s.isStale k then some (some k) else if k.required then none else some none
  | none => some none

/-- Drop all candidates for which it is too late. -/
def dropStale? (s : Progress) : Option Progress := do
  let candidate ← s.refresh? s.candidate
  let outer ← s.outer.mapM s.refresh?
  some { s with candidate, outer }

/-- Drop the candidate of this level. -/
def dropCandidate? (s : Progress) : Option Progress :=
  if s.candidate.any Candidate.required then none else some { s with candidate := none }

/-- Take what starts here for a candidate, if a key can start here. -/
def saveCandidate? (s : Progress) : Option Progress := do
  if !s.keyAllowed then some s
  else
    let c := s.cursor
    let s ← s.dropCandidate?
    let required := !s.inFlow && s.indents.head? == some c.column
    some { s with candidate := some ⟨required, s.tokens.length, c.index, c.line, c.column⟩ }

/-! #### Indentation -/

/-- Open a block collection, if a column is deeper than the block around it. Its token
goes behind the first `number` ones. -/
def indent (s : Progress) (column number : Nat) (token : Token) : Progress :=
  if s.inFlow || column < s.nextIndent then s
  else { s.insert number token with indents := column :: s.indents }

/-- Close the block collections that are deeper than a column, of some columns. -/
def closeDeeper (s : Progress) (column : Option Nat) : List Nat → Progress
  | [] => { s with indents := [] }
  | i :: is =>
      if column.all (· < i) then closeDeeper (s.push .blockEnd) column is
      else { s with indents := i :: is }

/-- Close the block collections that are deeper than a column, or all of them. -/
def dedent (s : Progress) (column : Option Nat) : Progress :=
  if s.inFlow then s else s.closeDeeper column s.indents

/-! #### Single tokens -/

/-- Take a mark of some characters for a token. -/
def mark (s : Progress) (length : Nat) (token : Token) : Progress :=
  (s.goTo (s.cursor.skip length)).push token

/-- A mark that ends or starts a document. -/
def documentMark? (s : Progress) (token : Token) : Option Progress := do
  let s ← (s.dedent none).dropCandidate?
  some ((s.allowKey false).mark 3 token)

/-- A directive. -/
def directive? (s : Progress) : Option Progress := do
  let s ← (s.dedent none).dropCandidate?
  let (token, c) ← Yaml.directive? (s.cursor.skip 1)
  some (((s.allowKey false).goTo c).push token)

/-- The start of a flow collection. -/
def openFlow? (s : Progress) (token : Token) : Option Progress := do
  let s ← s.saveCandidate?
  let s := { s with candidate := none, outer := s.candidate :: s.outer }
  some ((s.allowKey true).mark 1 token)

/-- The end of a flow collection. -/
def closeFlow? (s : Progress) (token : Token) : Option Progress := do
  let s ← s.dropCandidate?
  let s := match s.outer with
    | candidate :: outer => { s with candidate, outer }
    | [] => s
  some ((s.allowKey false).mark 1 token)

/-- A comma in a flow collection. -/
def comma? (s : Progress) : Option Progress := do
  let s ← s.dropCandidate?
  some ((s.allowKey true).mark 1 .comma)

/-- A mark of an entry or a key in a block collection, which it may open. -/
def blockMark? (s : Progress) (opening token : Token) (keyNext : Bool) : Option Progress := do
  if !s.inFlow && !s.keyAllowed then none
  else
    let s ← (s.indent s.cursor.column s.tokens.length opening).dropCandidate?
    some ((s.allowKey keyNext).mark 1 token)

/-- The colon between a key and its value. -/
def value? (s : Progress) : Option Progress :=
  match s.candidate with
  | some k =>
      let s := (s.insert k.number .key).indent k.column k.number .blockMapping
      some (({ s with candidate := none }.allowKey false).mark 1 .value)
  | none => s.blockMark? .blockMapping .value (!s.inFlow)

/-- Something that may be a key and that no key follows. -/
def keyLike? (s : Progress) (read? : Cursor → Option (Token × Cursor)) : Option Progress := do
  let s ← s.saveCandidate?
  let (token, c) ← read? s.cursor
  some (((s.allowKey false).goTo c).push token)

/-- An alias or an anchor. -/
def named? (s : Progress) (token : String → Token) : Option Progress :=
  s.keyLike? fun c => (anchorName? (c.skip 1)).map fun (name, c) => (token name, c)

/-- A tag, behind which there is a gap, or a comma in a flow collection. -/
def tag? (s : Progress) : Option Progress :=
  s.keyLike? fun c => do
    let ((handle, suffix), c) ← Yaml.tag? c
    let ended := startsGap c.rest || (s.inFlow && c.rest.head? == some ',')
    if ended then some (.tag handle suffix, c) else none

/-- A scalar in quotes. -/
def quoted? (s : Progress) (quote : Char) : Option Progress :=
  s.keyLike? fun c => (Yaml.quoted? quote c).map fun (text, c) =>
    (.scalar false (String.ofList text), c)

/-- A block of lines. -/
def block? (s : Progress) (literal : Bool) : Option Progress := do
  let s ← s.dropCandidate?
  let (text, c) ← Yaml.block? literal s.nextIndent (s.cursor.skip 1)
  some (((s.allowKey true).goTo c).push (.scalar false (String.ofList text)))

/-- A plain scalar. A key can follow it on another line. -/
def plain? (s : Progress) : Option Progress := do
  let s ← s.saveCandidate?
  let (plain, c) ← Yaml.plain? s.inFlow s.nextIndent s.cursor
  some (((s.allowKey plain.broken).goTo c).push (.scalar true (String.ofList plain.text)))

/-! #### All tokens -/

/-- Can a plain scalar start with the text? -/
def startsPlain (flow : Bool) : List Char → Bool
  | [] => false
  | c :: rest =>
      !(isGap c || "-?:,[]\x7b\x7d#&*!|>'\"%@`".toList.contains c) ||
        (c == '-' && !rest.head?.any isBlank) ||
        (!flow && (c == '?' || c == ':') && !startsGap rest)

/-- Move on to the next token, over blanks, comments and line breaks. At the start of a
line, and where a key can start, tabs are no blanks unless a flow collection is open. -/
def seek? : (fuel : Nat) → Progress → Option Progress
  | 0, _ => none
  | fuel + 1, s =>
      let c := match s.cursor.index, s.cursor.rest with
        | 0, '\uFEFF' :: _ => s.cursor.skip 1
        | _, _ => s.cursor
      let (_, c) := c.span fun ch => ch == ' ' || (ch == '\t' && (s.inFlow || !s.keyAllowed))
      let c := c.skipComment
      match c.break? with
      | some (_, c) => seek? fuel ((s.goTo c).allowKey (s.keyAllowed || !s.inFlow))
      | none => some (s.goTo c)

/-- The token that stands here. -/
def next? (s : Progress) : Option Progress :=
  let c := s.cursor
  if c.atStartMark then s.documentMark? .documentStart
  else if c.atEndMark then s.documentMark? .documentEnd
  else
    match c.rest with
    | [] => none
    | ch :: rest =>
        let apart := s.inFlow || startsGap rest
        if ch == '%' && c.column == 0 then s.directive?
        else if ch == '[' then s.openFlow? .flowSequence
        else if ch == '\x7b' then s.openFlow? .flowMapping
        else if ch == ']' then s.closeFlow? .flowSequenceEnd
        else if ch == '\x7d' then s.closeFlow? .flowMappingEnd
        else if ch == ',' then s.comma?
        else if ch == '-' && startsGap rest then s.blockMark? .blockSequence .entry true
        else if ch == '?' && apart then s.blockMark? .blockMapping .key (!s.inFlow)
        else if ch == ':' && apart then s.value?
        else if ch == '*' then s.named? .alias
        else if ch == '&' then s.named? .anchor
        else if ch == '!' then s.tag?
        else if ch == '|' && !s.inFlow then s.block? true
        else if ch == '>' && !s.inFlow then s.block? false
        else if ch == '\'' || ch == '"' then s.quoted? ch
        else if startsPlain s.inFlow c.rest then s.plain?
        else none

/-- Take the rest of the text apart. -/
def run? : (fuel : Nat) → Progress → Option Progress
  | 0, _ => none
  | fuel + 1, s => do
      let s ← s.seek? (s.cursor.rest.length + 1)
      let s ← s.dropStale?
      if s.cursor.rest.isEmpty then (s.dedent none).dropCandidate?
      else run? fuel (← (s.dedent (some s.cursor.column)).next?)

end Progress

/-- The tokens of a text. -/
def tokens? (cs : List Char) : Option (List Token) :=
  if !cs.all isPrintable then none
  else (Progress.run? (cs.length + 1) { cursor := { rest := cs } }).map fun s => s.tokens.reverse

end TradeScript.Yaml
