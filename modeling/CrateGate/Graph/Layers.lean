import CrateGate.Graph.Check
import CrateGate.SortedMap

/-!
# Layers of packages

The order in which packages can be published: a layer holds every package whose pins are all in
earlier layers. Round by round the crates that wait for nothing become a layer, and the others stop
waiting for them. If every crate that is left waits for another, some of them wait in a circle,
and following what they wait for finds one.

Only pins within the list count.
-/

namespace CrateGate.Graph

/-- The crates still to be placed, each with the crates it waits for. -/
abbrev Waiting := SortedMap String (List String)

/-- The crates that a package pins in a list. -/
def pinnedIn (packages : List Package) (p : Package) : List String :=
  p.pinned.filter fun name => packages.any fun q => q.name = name

/-- At the start every crate of the list waits for those it pins. -/
def Waiting.start (packages : List Package) : Waiting :=
  SortedMap.ofList (packages.map fun p => (p.name, pinnedIn packages p))

/-- The crates that wait for nothing, by name. -/
def Waiting.ready (w : Waiting) : List String :=
  (w.filter fun _ names => names.isEmpty).keys

/-- What is left to place once the crates that wait for nothing are placed. -/
def Waiting.advance (w : Waiting) : Waiting :=
  let placed := w.ready
  (w.filter fun _ names => !names.isEmpty).map fun names =>
    names.filter fun name => !placed.contains name

/-- The layers of the crates to be placed, or the crates among which nothing can be placed. Each
round places one crate at least, so the number of crates bounds the rounds. -/
def layersFrom : Nat → Waiting → Except Waiting (List (List String))
  | 0, w => if w.toList.isEmpty then .ok [] else .error w
  | rounds + 1, w =>
    if w.toList.isEmpty then .ok []
    else if w.ready.isEmpty then .error w
    else (layersFrom rounds w.advance).map (w.ready :: ·)

/-- The least of some names. -/
def least? : List String → Option String
  | [] => none
  | name :: names => some (names.foldl (fun low n => if n < low then n else low) name)

/-- The walk that goes from crate to the least crate it waits for, until one comes up again: the
part of it between the two. The trail holds the crates so far. -/
def walkFrom (w : Waiting) : Nat → List String → String → List String
  | 0, trail, _ => trail
  | steps + 1, trail, current =>
    match (w.get? current).bind least? with
    | none => trail
    | some next =>
      if trail.contains next then trail.dropWhile (· ≠ next) ++ [next]
      else walkFrom w steps (trail ++ [next]) next

/-- A circle among crates that all wait, starting and ending with the same crate. -/
def circle (w : Waiting) : List String :=
  match w.keys with
  | [] => []
  | first :: _ => walkFrom w w.size [first] first

/-- The names of the packages of a list in layers. -/
def layerNames (packages : List Package) : Except Fault (List (List String)) :=
  let w := Waiting.start packages
  match layersFrom w.size w with
  | .ok layers => .ok layers
  | .error stuck => .error (.discovery (.cycle (circle stuck) stuck.keys))

/-- The packages of a list in layers. -/
def layers (packages : List Package) : Except Fault (List (List Package)) :=
  (layerNames packages).map fun names => names.map fun layer => layer.filterMap (find? packages)

end CrateGate.Graph
