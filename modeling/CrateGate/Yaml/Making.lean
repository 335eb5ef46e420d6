import CrateGate.Yaml.Node

/-!
# Computing YAML documents

The value that the graph of a document comes to. Scalars are computed at once; a collection is
entered after everything around it, so of two things that have no value the one nearer to the root
is found first. Every node is computed once, however often it is part of something.

A mapping may take over pairs of others by a key `<<`; its own pairs come after them, and of two
pairs with one key the later counts.
-/

namespace CrateGate.Yaml

/-- A node once it is computed: its scalar, or the kind of its collection. -/
inductive Made
  | plain (p : Plain)
  | collection (kind : Kind)
deriving DecidableEq, Repr

/-- A graph as far as it is computed. -/
structure Making where
  /-- The nodes, with the pairs that mappings have taken over. -/
  nodes : Array Node
  /-- What the nodes have come to. -/
  made : Array (Option Made)
  /-- The collections that are to be entered, in their order. -/
  waiting : List NodeId

namespace Making

/-- The node of a number. -/
def node (m : Making) (id : NodeId) : Node :=
  m.nodes.getD id ⟨.unknown, .scalar ""⟩

/-- With another node in the place of one. -/
def setNode (m : Making) (id : NodeId) (n : Node) : Making :=
  { m with nodes := m.nodes.modify id fun _ => n }

/-- The pairs of a mapping. -/
def pairs (m : Making) (id : NodeId) : List (NodeId × NodeId) :=
  (m.node id).content.pairs

/-- With other pairs of a mapping. -/
def setPairs (m : Making) (id : NodeId) (pairs : List (NodeId × NodeId)) : Making :=
  m.setNode id { m.node id with content := .mapping pairs }

/-- Whether a node is a mapping. -/
def isMapping (m : Making) (id : NodeId) : Bool :=
  match (m.node id).content with
  | .mapping _ => true
  | _ => false

/-- How many pairs all mappings have. -/
def pairCount (m : Making) : Nat :=
  m.nodes.foldl (fun n node => n + node.content.pairs.length) 0

/-! ## Merging -/

/-- The pairs that a value under `<<` stands for, once `enter` has merged what it holds: those of a
mapping, or those of the mappings of a sequence, the last one first. -/
def mergedPairs (enter : NodeId → Making → Except Problem Making) (id : NodeId) (m : Making) :
    Except Problem (List (NodeId × NodeId) × Making) := do
  match (m.node id).content with
  | .mapping _ =>
    let m ← enter id m
    .ok (m.pairs id, m)
  | .sequence items =>
    items.foldlM (fun (found, m) item => do
      if !m.isMapping item then .error .malformed
      else
        let m ← enter item m
        .ok (m.pairs item ++ found, m)) ([], m)
  | .scalar _ => .error .malformed

/-- Whether a key is one that merging changes: `<<` or `=`. -/
def isSpecial (m : Making) (key : NodeId) : Bool :=
  let kind := (m.node key).kind
  kind = .merge || kind = .default

/-- The pairs of a mapping from some place on, without its keys `<<`: each is replaced by the pairs
that it stands for, which are put into `found`. A key `=` becomes a text. -/
def mergeFrom (enter : NodeId → Making → Except Problem Making) (id : NodeId) :
    Nat → Nat → List (NodeId × NodeId) → Making →
      Except Problem (List (NodeId × NodeId) × Making)
  | 0, _, found, m => .ok (found, m)
  | fuel + 1, place, found, m =>
    let plain := ((m.pairs id).drop place).takeWhile fun (key, _) => !m.isSpecial key
    let place := place + plain.length
    match (m.pairs id)[place]? with
    | none => .ok (found, m)
    | some (key, value) =>
      if (m.node key).kind = .merge then do
        let m := m.setPairs id ((m.pairs id).eraseIdx place)
        let (more, m) ← mergedPairs enter value m
        mergeFrom enter id fuel place (found ++ more) m
      else
        mergeFrom enter id fuel (place + 1) found
          (m.setNode key { m.node key with kind := .text })

/-- With the keys `<<` of a mapping replaced by the pairs that they stand for, which come first.
The depth bounds how far mappings take over one another. -/
def merge : Nat → NodeId → Making → Except Problem Making
  | 0, _, _ => .error .malformed
  | depth + 1, id, m => do
    let fuel := 2 * m.pairCount + 1
    let (found, m) ← mergeFrom (merge depth) id fuel 0 [] m
    .ok (if found.isEmpty then m else m.setPairs id (found ++ m.pairs id))

/-! ## Computing nodes -/

/-- How many mappings in a row may stand for what is under their keys `=`. -/
def defaultLimit : Nat := 980

/-- The text of a scalar; a mapping with a key `=` stands for the scalar under it. -/
def textOf (m : Making) : Nat → NodeId → Except Problem Text
  | 0, _ => unexpected .tooDeep
  | fuel + 1, id =>
    match (m.node id).content with
    | .scalar text => .ok text
    | .sequence _ => .error .malformed
    | .mapping pairs =>
      match pairs.find? fun (key, _) => (m.node key).kind = .default with
      | some (_, value) => textOf m fuel value
      | none => .error .malformed

/-- The value of a scalar of some kind; the kinds of collections have none. -/
def scalarOf (kind : Kind) (text : Text) (isScalar : Bool) : Except Problem Plain :=
  match kind with
  | .null => .ok .null
  | .flag => readFlag (charactersOf text)
  | .integer => readInteger (charactersOf text)
  | .real => readReal (charactersOf text)
  | .bytes => readBase64 (charactersOf text)
  | .moment => if isScalar then readMoment (charactersOf text) else unexpected .badType
  | .text => .ok (.text text)
  | _ => .error .malformed

/-- Whether a kind is one of collections. -/
def isCollection : Kind → Bool
  | .list | .mapping | .set | .orderedMap | .pairs => true
  | _ => false

/-- With a node computed, and what it has come to. -/
def make (id : NodeId) (m : Making) : Except Problem (Made × Making) :=
  match (m.made.getD id none) with
  | some made => .ok (made, m)
  | none => do
    let n := m.node id
    if isCollection n.kind then
      let made := Made.collection n.kind
      .ok (made, { m with made := m.made.modify id fun _ => some made,
                          waiting := m.waiting ++ [id] })
    else if n.kind = .merge || n.kind = .default || n.kind = .unknown then .error .malformed
    else
      let text ← m.textOf defaultLimit id
      let isScalar := match n.content with
        | .scalar _ => true
        | _ => false
      let p ← scalarOf n.kind text isScalar
      .ok (.plain p, { m with made := m.made.modify id fun _ => some (.plain p) })

/-- With the items of a sequence computed. -/
def makeItems (items : List NodeId) (m : Making) : Except Problem Making :=
  items.foldlM (fun m item => do
    let (_, m) ← make item m
    .ok m) m

/-- With the pairs of a mapping computed; a collection is no key. -/
def makePairs (pairs : List (NodeId × NodeId)) (m : Making) : Except Problem Making :=
  pairs.foldlM (fun m (key, value) => do
    match ← make key m with
    | (.collection _, _) => .error .malformed
    | (.plain _, m) =>
      let (_, m) ← make value m
      .ok m) m

/-- With the only pairs of the mappings in a sequence computed. -/
def makeSingles (items : List NodeId) (m : Making) : Except Problem Making :=
  items.foldlM (fun m item => do
    match (m.node item).content with
    | .mapping [(key, value)] =>
      let (_, m) ← make key m
      let (_, m) ← make value m
      .ok m
    | _ => .error .malformed) m

/-- With the contents of a collection computed. -/
def enter (id : NodeId) (m : Making) : Except Problem Making := do
  let kind := match m.made.getD id none with
    | some (.collection kind) => kind
    | _ => .unknown
  match kind, (m.node id).content with
  | .list, .sequence items => makeItems items m
  | .orderedMap, .sequence items => makeSingles items m
  | .pairs, .sequence items => makeSingles items m
  | .mapping, .mapping _ | .set, .mapping _ =>
    let m ← merge (m.pairCount + 1) id m
    makePairs (m.pairs id) m
  | _, _ => .error .malformed

/-- With all collections entered, and those that they hold. -/
def enterAll : Nat → Making → Except Problem Making
  | 0, m => .ok m
  | fuel + 1, m =>
    match m.waiting with
    | [] => .ok m
    | id :: waiting => do
      let m ← enter id { m with waiting }
      enterAll fuel m

/-! ## Views -/

/-- What a node has come to, if no depth is needed to show it. -/
def leaf? (m : Making) (id : NodeId) : Option Value :=
  match m.made.getD id none with
  | some (.plain p) => some (.plain p)
  | some (.collection .set) => some .set
  | _ => none

/-- What a node has come to, down to a depth. -/
def view (m : Making) : Nat → NodeId → Value
  | 0, id => (m.leaf? id).getD .deeper
  | depth + 1, id =>
    match m.leaf? id, (m.node id).content with
    | some v, _ => v
    | none, .sequence items => .list (items.map (view m depth))
    | none, .mapping pairs =>
      .mapping (pairs.map fun (key, value) => (view m depth key, view m depth value))
    | none, .scalar _ => .deeper

end Making

/-- The value of a graph down to a depth; an empty document is the value for nothing. -/
def Graph.value (g : Graph) (depth : Nat) : Except Problem Value :=
  match g.root with
  | none => .ok (.plain .null)
  | some id => do
    let start : Making := ⟨g.nodes, .replicate g.nodes.size none, []⟩
    let (_, m) ← Making.make id start
    let m ← m.enterAll (g.nodes.size + 1)
    .ok (m.view depth id)

/-- The value of the document in a text, down to a depth. -/
def Value.ofStream (depth : Nat) (text : Stream) : Except Problem Value := do
  let g ← Graph.ofStream text
  g.value depth

end CrateGate.Yaml
