import CrateGate.Yaml.Resolve
import CrateGate.Yaml.Tokens

/-!
# Nodes of a YAML document

A document as a graph of nodes: a node with an anchor can be part of several others, and even of
itself. Nodes are numbered in the order in which they start.
-/

namespace CrateGate.Yaml

/-- The number of a node. -/
abbrev NodeId := Nat

/-- What a node is made of. -/
inductive Content
  | scalar (text : Text)
  | sequence (items : List NodeId)
  | mapping (pairs : List (NodeId × NodeId))
deriving Repr

/-- The pairs of a mapping; nothing else has any. -/
def Content.pairs : Content → List (NodeId × NodeId)
  | mapping pairs => pairs
  | _ => []

/-- A node: its kind and what it is made of. -/
structure Node where
  /-- The kind of its value. -/
  kind : Kind
  /-- What it is made of. -/
  content : Content
deriving Repr

/-- A document as a graph. -/
structure Graph where
  /-- The nodes by their numbers. -/
  nodes : Array Node
  /-- The node that the document is; a document may be empty. -/
  root : Option NodeId

/-- A document as far as its nodes are read. -/
structure Composing where
  /-- The tokens that are left. -/
  tokens : List Token
  /-- The problem that comes when no token is left. -/
  ending : Problem
  /-- What tag handles stand for. -/
  handles : List (String × String)
  /-- The nodes that have an anchor. -/
  anchors : List (String × NodeId)
  /-- The nodes so far. -/
  nodes : Array Node

/-- What tag handles stand for if nothing is declared. -/
def standardHandles : List (String × String) :=
  [("!", "!"), ("!!", "tag:yaml.org,2002:")]

namespace Composing

/-- The next token. -/
def peek (c : Composing) : Except Problem Token :=
  match c.tokens with
  | t :: _ => .ok t
  | [] => .error c.ending

/-- With the next token behind. -/
def pop (c : Composing) : Composing :=
  { c with tokens := c.tokens.drop 1 }

/-- With one node more. -/
def add (c : Composing) (n : Node) : NodeId × Composing :=
  (c.nodes.size, { c with nodes := c.nodes.push n })

/-- With an anchor for the node that starts here; an anchor can be set only once. -/
def setAnchor (c : Composing) : Option String → Except Problem Composing
  | none => .ok c
  | some name =>
    if (c.anchors.lookup name).isSome then .error .malformed
    else .ok { c with anchors := (name, c.nodes.size) :: c.anchors }

/-- With another content of a node. -/
def fill (c : Composing) (id : NodeId) (content : Content) : Composing :=
  { c with nodes := c.nodes.modify id fun n => { n with content } }

/-- The properties of a node as they are written. -/
structure Properties where
  /-- The anchor. -/
  anchor : Option String
  /-- The tag: its handle and its suffix. -/
  tag : Option (Option String × String)

/-- The properties before a node, an anchor and a tag in either order. -/
def readProperties (c : Composing) : Except Problem (Properties × Composing) := do
  match ← c.peek with
  | .anchor name =>
    let c := c.pop
    match ← c.peek with
    | .tag handle suffix => .ok (⟨some name, some (handle, suffix)⟩, c.pop)
    | _ => .ok (⟨some name, none⟩, c)
  | .tag handle suffix =>
    let c := c.pop
    match ← c.peek with
    | .anchor name => .ok (⟨some name, some (handle, suffix)⟩, c.pop)
    | _ => .ok (⟨none, some (handle, suffix)⟩, c)
  | _ => .ok (⟨none, none⟩, c)

/-- The whole text of a tag; its handle has to be declared. -/
def fullTag (c : Composing) : Option (Option String × String) → Except Problem (Option String)
  | none => .ok none
  | some (none, suffix) => .ok (some suffix)
  | some (some handle, suffix) =>
    match c.handles.lookup handle with
    | some start => .ok (some (start ++ suffix))
    | none => .error .malformed

/-- The kind of a collection by its tag. -/
def collectionKind (standard : Kind) : Option String → Kind
  | none => standard
  | some tag => if tag = "!" then standard else .ofTag tag

/-- The kind of a scalar by its tag and its text. The tag `!` makes any scalar a plain one. -/
def scalarKind (plain : Bool) (text : Text) : Option String → Kind
  | none => if plain then .ofPlain (charactersOf text) else .text
  | some tag => if tag = "!" then .ofPlain (charactersOf text) else .ofTag tag

/-- With an empty scalar where nothing is written. -/
def addEmpty (c : Composing) : NodeId × Composing :=
  c.add ⟨.null, .scalar ""⟩

/-- Whether the next token is one of some. -/
def isAt (c : Composing) (ts : List Token) : Except Problem Bool := do
  let t ← c.peek
  .ok (ts.contains t)

/-- How deep nodes may lie in a document. Every node takes its share of the stack, so the number
depends on how much of the stack is in use where a document is read; this is the number for a
settings file that a command line names. -/
def depthLimit : Nat := 490

mutual

/-- A node. Blocks count if `block`, and a sequence that is not indented if `flush`. The second
number says how deep nodes may still lie. -/
def readNode : Nat → Nat → Bool → Bool → Composing → Except Problem (NodeId × Composing)
  | 0, _, _, _, _ => .error .malformed
  | _ + 1, 0, _, _, _ => unexpected .tooDeep
  | fuel + 1, deep + 1, block, flush, c => do
    match ← c.peek with
    | .alias name =>
      match c.anchors.lookup name with
      | some id => .ok (id, c.pop)
      | none => .error .malformed
    | _ =>
      let (properties, c) ← c.readProperties
      let tag ← c.fullTag properties.tag
      let list := Node.mk (collectionKind .list tag) (.sequence [])
      let mapping := Node.mk (collectionKind .mapping tag) (.mapping [])
      match ← c.peek with
      | .scalar text plain =>
        let c ← c.setAnchor properties.anchor
        .ok (c.pop.add ⟨scalarKind plain text tag, .scalar text⟩)
      | .flowSequenceStart => do
        let (id, c) := (← c.setAnchor properties.anchor).pop.add list
        let (items, c) ← readFlowItems fuel deep true c
        .ok (id, c.fill id (.sequence items))
      | .flowMappingStart => do
        let (id, c) := (← c.setAnchor properties.anchor).pop.add mapping
        let (pairs, c) ← readFlowPairs fuel deep true c
        .ok (id, c.fill id (.mapping pairs))
      | t =>
        if t = .blockEntry && flush then do
          let (id, c) := (← c.setAnchor properties.anchor).add list
          let (items, c) ← readFlushItems fuel deep c
          .ok (id, c.fill id (.sequence items))
        else if t = .blockSequenceStart && block then do
          let (id, c) := (← c.setAnchor properties.anchor).pop.add list
          let (items, c) ← readBlockItems fuel deep c
          .ok (id, c.fill id (.sequence items))
        else if t = .blockMappingStart && block then do
          let (id, c) := (← c.setAnchor properties.anchor).pop.add mapping
          let (pairs, c) ← readBlockPairs fuel deep c
          .ok (id, c.fill id (.mapping pairs))
        else if properties.anchor.isSome || tag.isSome then do
          let c ← c.setAnchor properties.anchor
          .ok (c.add ⟨scalarKind true "" tag, .scalar ""⟩)
        else .error .malformed

/-- A node, or an empty scalar if one of some tokens comes instead. -/
def readNodeUnless : Nat → Nat → Bool → Bool → List Token → Composing →
    Except Problem (NodeId × Composing)
  | 0, _, _, _, _, _ => .error .malformed
  | fuel + 1, deep, block, flush, ends, c => do
    if ← c.isAt ends then .ok c.addEmpty else readNode fuel deep block flush c

/-- The items of a block sequence up to its end. -/
def readBlockItems : Nat → Nat → Composing → Except Problem (List NodeId × Composing)
  | 0, _, _ => .error .malformed
  | fuel + 1, deep, c => do
    match ← c.peek with
    | .blockEntry =>
      let (item, c) ← readNodeUnless fuel deep true false [.blockEntry, .blockEnd] c.pop
      let (items, c) ← readBlockItems fuel deep c
      .ok (item :: items, c)
    | .blockEnd => .ok ([], c.pop)
    | _ => .error .malformed

/-- The items of a sequence that is not indented: as many as there are hyphens. -/
def readFlushItems : Nat → Nat → Composing → Except Problem (List NodeId × Composing)
  | 0, _, _ => .error .malformed
  | fuel + 1, deep, c => do
    match ← c.peek with
    | .blockEntry =>
      let ends : List Token := [.blockEntry, .key, .value, .blockEnd]
      let (item, c) ← readNodeUnless fuel deep true false ends c.pop
      let (items, c) ← readFlushItems fuel deep c
      .ok (item :: items, c)
    | _ => .ok ([], c)

/-- The pairs of a block mapping up to its end. -/
def readBlockPairs : Nat → Nat → Composing → Except Problem (List (NodeId × NodeId) × Composing)
  | 0, _, _ => .error .malformed
  | fuel + 1, deep, c => do
    match ← c.peek with
    | .key =>
      let ends : List Token := [.key, .value, .blockEnd]
      let (key, c) ← readNodeUnless fuel deep true true ends c.pop
      let (value, c) ←
        match ← c.peek with
        | .value => readNodeUnless fuel deep true true ends c.pop
        | _ => .ok c.addEmpty
      let (pairs, c) ← readBlockPairs fuel deep c
      .ok ((key, value) :: pairs, c)
    | .blockEnd => .ok ([], c.pop)
    | _ => .error .malformed

/-- The items of a sequence in brackets up to its end, with a comma before every item but the
first. A key among them makes a mapping of one pair. -/
def readFlowItems : Nat → Nat → Bool → Composing → Except Problem (List NodeId × Composing)
  | 0, _, _, _ => .error .malformed
  | fuel + 1, deep, first, c => do
    match ← c.peek with
    | .flowSequenceEnd => .ok ([], c.pop)
    | t =>
      let c ← if first then .ok c else if t = .flowEntry then .ok c.pop else .error .malformed
      match ← c.peek with
      | .flowSequenceEnd => .ok ([], c.pop)
      | .key =>
        let (id, c) := c.pop.add ⟨.mapping, .mapping []⟩
        let ends : List Token := [.flowEntry, .flowSequenceEnd]
        let (key, c) ← readNodeUnless fuel (deep - 1) false false (.value :: ends) c
        let (value, c) ←
          match ← c.peek with
          | .value => readNodeUnless fuel (deep - 1) false false ends c.pop
          | _ => .ok c.addEmpty
        let c := c.fill id (.mapping [(key, value)])
        let (items, c) ← readFlowItems fuel deep false c
        .ok (id :: items, c)
      | _ =>
        let (item, c) ← readNode fuel deep false false c
        let (items, c) ← readFlowItems fuel deep false c
        .ok (item :: items, c)

/-- The pairs of a mapping in braces up to its end, with a comma before every pair but the first.
A node that is no key is one with an empty value. -/
def readFlowPairs : Nat → Nat → Bool → Composing →
    Except Problem (List (NodeId × NodeId) × Composing)
  | 0, _, _, _ => .error .malformed
  | fuel + 1, deep, first, c => do
    match ← c.peek with
    | .flowMappingEnd => .ok ([], c.pop)
    | t =>
      let c ← if first then .ok c else if t = .flowEntry then .ok c.pop else .error .malformed
      match ← c.peek with
      | .flowMappingEnd => .ok ([], c.pop)
      | .key =>
        let ends : List Token := [.flowEntry, .flowMappingEnd]
        let (key, c) ← readNodeUnless fuel deep false false (.value :: ends) c.pop
        let (value, c) ←
          match ← c.peek with
          | .value => readNodeUnless fuel deep false false ends c.pop
          | _ => .ok c.addEmpty
        let (pairs, c) ← readFlowPairs fuel deep false c
        .ok ((key, value) :: pairs, c)
      | _ =>
        let (key, c) ← readNode fuel deep false false c
        let (value, c) := c.addEmpty
        let (pairs, c) ← readFlowPairs fuel deep false c
        .ok ((key, value) :: pairs, c)

end

/-! ## Documents -/

/-- The directives before a document: at most one version, which is 1, and no handle twice. -/
def readDirectives : Nat → Bool → Composing → Except Problem Composing
  | 0, _, _ => .error .malformed
  | fuel + 1, versioned, c => do
    match ← c.peek with
    | .directive (.version major) =>
      if versioned || major ≠ 1 then .error .malformed else readDirectives fuel true c.pop
    | .directive (.tag handle start) =>
      if (c.handles.lookup handle).isSome then .error .malformed
      else readDirectives fuel versioned { c.pop with handles := (handle, start) :: c.handles }
    | .directive .other => readDirectives fuel versioned c.pop
    | _ => .ok { c with handles := c.handles ++ standardHandles }

/-- Whether a token is a directive. -/
def isDirective : Token → Bool
  | .directive _ => true
  | _ => false

/-- What follows a document: marks of its end, and nothing else. -/
def readStreamEnd : Nat → Composing → Except Problem Unit
  | 0, _ => .error .malformed
  | fuel + 1, c => do
    match ← c.peek with
    | .documentEnd => readStreamEnd fuel c.pop
    | .directive _ => do
      let _ ← { c with tokens := c.tokens.dropWhile isDirective }.peek
      .error .malformed
    | .streamEnd => .ok ()
    | _ => .error .malformed

/-- A text that holds one document at most. -/
def readDocument (c : Composing) : Except Problem Graph := do
  let fuel := 4 * c.tokens.length + 8
  let finish (id : NodeId) (c : Composing) : Except Problem Graph := do
    readStreamEnd fuel c
    .ok ⟨c.nodes, some id⟩
  match ← c.peek with
  | .streamEnd => .ok ⟨#[], none⟩
  | .documentStart | .directive _ =>
    let c ← readDirectives fuel false { c with handles := [] }
    if (← c.peek) ≠ .documentStart then .error .malformed
    else
      let c := c.pop
      match ← c.peek with
      | .directive _ | .documentStart | .documentEnd | .streamEnd =>
        let (id, c) := c.addEmpty
        finish id c
      | _ =>
        let (id, c) ← readNode fuel depthLimit true false c
        finish id c
  | _ =>
    let (id, c) ← readNode fuel depthLimit true false c
    finish id c

end Composing

/-- The graph of the document in a text. -/
def Graph.ofStream (text : Stream) : Except Problem Graph :=
  let (tokens, ending) := tokensOf text
  Composing.readDocument ⟨tokens, ending, standardHandles, [], #[]⟩

end CrateGate.Yaml
