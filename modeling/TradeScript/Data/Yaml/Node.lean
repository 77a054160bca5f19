import TradeScript.Data.Yaml.Token

/-!
# TradeScript.Data.Yaml.Node

The tree of a YAML document. Anchors have numbers: a new anchor gets the number of
names that have been in use before it, and a name keeps the number that it got last.
So, once a name has been used twice, two anchors can share a number.
-/

namespace TradeScript.Yaml

/-- What can stand before the content of a node. -/
structure Properties where
  anchor : Option Nat := none
  tag : Option String := none

/-- A node of a document. -/
inductive Node where
  /-- The node with an anchor of that number. -/
  | alias (number : Nat)
  | scalar (props : Properties) (plain : Bool) (text : String)
  | sequence (props : Properties) (items : List Node)
  | mapping (props : Properties) (entries : List (Node × Node))

namespace Node

/-- The node that is nothing but its properties. -/
def bare (props : Properties) : Node :=
  .scalar props true ""

/-- A node that is not there. -/
def missing : Node :=
  bare {}

mutual

/-- The number of marks and scalars that a node comes to. -/
def size : Node → Nat
  | .alias _ => 1
  | .scalar _ _ _ => 1
  | .sequence _ items => 2 + sizeOfItems items
  | .mapping _ entries => 2 + sizeOfEntries entries

def sizeOfItems : List Node → Nat
  | [] => 0
  | node :: nodes => node.size + sizeOfItems nodes

def sizeOfEntries : List (Node × Node) → Nat
  | [] => 0
  | (key, node) :: entries => key.size + node.size + sizeOfEntries entries

end

/-- The number of a node's anchor with the node, if it has one. -/
def labelled (props : Properties) (node : Node) : List (Nat × Node) :=
  props.anchor.toList.map fun number => (number, node)

mutual

/-- The nodes that have anchors, in the order of their starts. -/
def anchored : Node → List (Nat × Node)
  | .alias _ => []
  | .scalar props plain text => labelled props (.scalar props plain text)
  | .sequence props items => labelled props (.sequence props items) ++ anchoredItems items
  | .mapping props entries => labelled props (.mapping props entries) ++ anchoredEntries entries

def anchoredItems : List Node → List (Nat × Node)
  | [] => []
  | node :: nodes => node.anchored ++ anchoredItems nodes

def anchoredEntries : List (Node × Node) → List (Nat × Node)
  | [] => []
  | (key, node) :: entries => key.anchored ++ node.anchored ++ anchoredEntries entries

end

end Node

/-! ### Nodes from tokens -/

/-- Tokens, as far as they have been taken up. -/
structure Outline where
  tokens : List Token
  /-- The numbers of the names of anchors. -/
  anchors : List (String × Nat) := []
  /-- What the handles of tags stand for. -/
  handles : List (String × String) := []

namespace Outline

/-- The handles that need not be declared. -/
def commonHandles : List (String × String) :=
  [("!", "!"), ("!!", "tag:yaml.org,2002:")]

/-- The outline with other tokens in front. -/
def goTo (o : Outline) (tokens : List Token) : Outline :=
  { o with tokens }

/-- The outline without its first token. -/
def rest (o : Outline) : Outline :=
  o.goTo o.tokens.tail

/-- The number of a name, if there is an anchor of that name. -/
def numberOf? (o : Outline) (name : String) : Option Nat :=
  (o.anchors.find? fun e => e.1 == name).map Prod.snd

/-- Give an anchor a number. -/
def declare (o : Outline) (name : String) : Nat × Outline :=
  let number := o.anchors.length
  (number, { o with anchors := (name, number) :: o.anchors.filter fun e => e.1 != name })

/-- A tag in full. The tag without a handle is given in full. -/
def fullTag? (o : Outline) (handle suffix : String) : Option String :=
  if handle.isEmpty then some suffix
  else (o.handles.find? fun e => e.1 == handle).map fun e => e.2 ++ suffix

/-- An anchor, if one stands here. -/
def anchor (o : Outline) : Option Nat × Outline :=
  match o.tokens with
  | .anchor name :: _ =>
      let (number, o) := o.rest.declare name
      (some number, o)
  | _ => (none, o)

/-- A tag, if one stands here; the outer `none` is a handle that stands for nothing. -/
def tag? (o : Outline) : Option (Option String × Outline) :=
  match o.tokens with
  | .tag handle suffix :: _ => (o.fullTag? handle suffix).map fun tag => (some tag, o.rest)
  | _ => some (none, o)

/-- The properties that stand here, in any order. -/
def properties? (o : Outline) : Option (Properties × Outline) :=
  match o.tokens with
  | .tag _ _ :: _ =>
      match o.tag? with
      | none => none
      | some (tag, o) =>
          let (anchor, o) := o.anchor
          some (⟨anchor, tag⟩, o)
  | _ =>
      let (anchor, o) := o.anchor
      o.tag?.map fun (tag, o) => (⟨anchor, tag⟩, o)

/-- What kinds of nodes can stand at a place. -/
inductive Place where
  /-- In a flow collection there are no block collections. -/
  | flow
  | block
  /-- A sequence in a block mapping need not be indented. -/
  | entry
  deriving DecidableEq

/-- Does the first token, if there is one, fulfil a test? -/
def startsWith (o : Outline) (p : Token → Bool) : Bool :=
  o.tokens.head?.any p

/-- A node without content, which needs properties. -/
def bare? (props : Properties) (o : Outline) : Option (Node × Outline) :=
  if props.anchor.isSome || props.tag.isSome then some (.bare props, o) else none

/-- A node, or a missing one where one of some tokens stands. -/
def unless? (o : Outline) (ends : List Token) (read? : Outline → Option (Node × Outline)) :
    Option (Node × Outline) :=
  if o.startsWith ends.contains then some (.missing, o) else read? o

/-- The value behind a key, which is missing where no mark announces it, or where one of
some tokens stands. -/
def valueUnless? (o : Outline) (ends : List Token)
    (read? : Outline → Option (Node × Outline)) : Option (Node × Outline) :=
  if o.startsWith (· == .value) then o.rest.unless? ends read? else some (.missing, o)

/-- What follows the comma that stands between the items of a flow collection, or the
first item. -/
def afterComma? (o : Outline) (first : Bool) : Option Outline :=
  if first then some o else if o.startsWith (· == .comma) then some o.rest else none

mutual

/-- A node. Every second step takes a token, so twice their number is enough fuel. -/
def node? : (fuel : Nat) → Place → Outline → Option (Node × Outline)
  | 0, _, _ => none
  | fuel + 1, place, o =>
      match o.tokens with
      | .alias name :: _ => (o.numberOf? name).map fun number => (.alias number, o.rest)
      | _ =>
          match o.properties? with
          | none => none
          | some (props, o) =>
              match o.tokens with
              | .entry :: _ =>
                  if place = .entry then
                    (looseItems? fuel o).map fun (items, o) => (.sequence props items, o)
                  else bare? props o
              | .scalar plain text :: _ =>
                  let props := if props.tag = some "!" then { props with tag := none } else props
                  some (.scalar props plain text, o.rest)
              | .flowSequence :: _ =>
                  (flowItems? fuel true o.rest).map fun (items, o) => (.sequence props items, o)
              | .flowMapping :: _ =>
                  (flowEntries? fuel true o.rest).map fun (es, o) => (.mapping props es, o)
              | .blockSequence :: _ =>
                  if place = .flow then bare? props o
                  else
                    (blockItems? fuel o.rest).map fun (items, o) => (.sequence props items, o)
              | .blockMapping :: _ =>
                  if place = .flow then bare? props o
                  else (blockEntries? fuel o.rest).map fun (es, o) => (.mapping props es, o)
              | _ => bare? props o

/-- The items of a block sequence, up to its end. -/
def blockItems? : (fuel : Nat) → Outline → Option (List Node × Outline)
  | 0, _ => none
  | fuel + 1, o =>
      match o.tokens with
      | .blockEnd :: _ => some ([], o.rest)
      | .entry :: _ =>
          match o.rest.unless? [.entry, .blockEnd] (node? fuel .block) with
          | none => none
          | some (item, o) => (blockItems? fuel o).map fun (items, o) => (item :: items, o)
      | _ => none

/-- The items of a sequence that is not indented: it ends where none follows. -/
def looseItems? : (fuel : Nat) → Outline → Option (List Node × Outline)
  | 0, _ => none
  | fuel + 1, o =>
      match o.tokens with
      | .entry :: _ =>
          match o.rest.unless? [.entry, .key, .value, .blockEnd] (node? fuel .block) with
          | none => none
          | some (item, o) => (looseItems? fuel o).map fun (items, o) => (item :: items, o)
      | _ => some ([], o)

/-- The entries of a block mapping, up to its end. -/
def blockEntries? : (fuel : Nat) → Outline → Option (List (Node × Node) × Outline)
  | 0, _ => none
  | fuel + 1, o =>
      let ends : List Token := [.key, .value, .blockEnd]
      match o.tokens with
      | .blockEnd :: _ => some ([], o.rest)
      | .key :: _ =>
          match o.rest.unless? ends (node? fuel .entry) with
          | none => none
          | some (key, o) =>
              match o.valueUnless? ends (node? fuel .entry) with
              | none => none
              | some (node, o) =>
                  (blockEntries? fuel o).map fun (entries, o) => ((key, node) :: entries, o)
      | _ => none

/-- The items of a flow sequence, up to its end. A single entry of a mapping can be an
item. Where its key is missing, the token that shows it is passed over. -/
def flowItems? : (fuel : Nat) → (first : Bool) → Outline → Option (List Node × Outline)
  | 0, _, _ => none
  | fuel + 1, first, o =>
      if o.startsWith (· == .flowSequenceEnd) then some ([], o.rest)
      else
        match o.afterComma? first with
        | none => none
        | some o =>
            match o.tokens with
            | .flowSequenceEnd :: _ => some ([], o.rest)
            | .key :: _ =>
                let o := o.rest
                let key :=
                  if o.startsWith [.value, .comma, .flowSequenceEnd].contains then
                    some (.missing, o.rest)
                  else node? fuel .flow o
                match key with
                | none => none
                | some (key, o) =>
                    match o.valueUnless? [.comma, .flowSequenceEnd] (node? fuel .flow) with
                    | none => none
                    | some (node, o) =>
                        (flowItems? fuel false o).map fun (items, o) =>
                          (.mapping {} [(key, node)] :: items, o)
            | _ =>
                match node? fuel .flow o with
                | none => none
                | some (item, o) =>
                    (flowItems? fuel false o).map fun (items, o) => (item :: items, o)

/-- The entries of a flow mapping, up to its end. -/
def flowEntries? :
    (fuel : Nat) → (first : Bool) → Outline → Option (List (Node × Node) × Outline)
  | 0, _, _ => none
  | fuel + 1, first, o =>
      if o.startsWith (· == .flowMappingEnd) then some ([], o.rest)
      else
        match o.afterComma? first with
        | none => none
        | some o =>
            match o.tokens with
            | .flowMappingEnd :: _ => some ([], o.rest)
            | .key :: _ =>
                match o.rest.unless? [.value, .comma, .flowMappingEnd] (node? fuel .flow) with
                | none => none
                | some (key, o) =>
                    match o.valueUnless? [.comma, .flowMappingEnd] (node? fuel .flow) with
                    | none => none
                    | some (node, o) =>
                        (flowEntries? fuel false o).map fun (entries, o) =>
                          ((key, node) :: entries, o)
            | _ =>
                match node? fuel .flow o with
                | none => none
                | some (key, o) =>
                    (flowEntries? fuel false o).map fun (entries, o) =>
                      ((key, .missing) :: entries, o)

end

/-! ### Documents -/

/-- What the directives of a document say. -/
structure Prologue where
  /-- Was a version named? -/
  versioned : Bool := false
  handles : List (String × String) := []

/-- The directives in front of a document. There is at most one for the version, which
has to be 1.1 or 1.2, and one for every handle. -/
def prologue? : Prologue → List Token → Option (Prologue × List Token)
  | p, .version major minor :: tokens =>
      if p.versioned || major != 1 || (minor != 1 && minor != 2) then none
      else prologue? { p with versioned := true } tokens
  | p, .handle name stem :: tokens =>
      if p.handles.any fun e => e.1 == name then none
      else prologue? { p with handles := (name, stem) :: p.handles } tokens
  | p, tokens => some (p, tokens)

/-- Does the token belong to the frame of a document, and not to its content? -/
def isFrame : Token → Bool
  | .version _ _ | .handle _ _ | .documentStart | .documentEnd => true
  | _ => false

/-- The content of a document that starts with a mark. It may be missing. -/
def content? (o : Outline) : Option (Node × Outline) :=
  if o.tokens.isEmpty || o.startsWith isFrame then some (.missing, o)
  else node? (2 * o.tokens.length + 2) .block o

/-- A document. One with directives starts with a mark. -/
def document? (tokens : List Token) : Option (Node × Outline) :=
  match prologue? {} tokens with
  | none => none
  | some (p, .documentStart :: rest) =>
      content? { tokens := rest, handles := p.handles ++ commonHandles }
  | some _ => node? (2 * tokens.length + 2) .block { tokens, handles := commonHandles }

end Outline

/-- The root of the only document of a text; the inner `none` is a text without any. -/
def root? (tokens : List Token) : Option (Option Node) :=
  if tokens.isEmpty then some none
  else
    match Outline.document? tokens with
    | some (node, o) =>
        if (o.tokens.dropWhile (· == .documentEnd)).isEmpty then some (some node) else none
    | none => none

end TradeScript.Yaml
