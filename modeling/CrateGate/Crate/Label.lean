import CrateGate.Datum

/-!
# Labels of dependencies

What a dependency names. Usually that is a crate, but a manifest may put any value without parts
in the place of the name, and such a value is then kept: no crate is called by it.

Labels are compared by meaning, so 1, 1.0 and `true` are one label. Texts, numbers and each kind of
moment have an order among themselves, and none with one another.
-/

namespace CrateGate

/-- What a dependency names. -/
inductive Label
  | crate (name : String)
  | atom (a : Atom)
deriving DecidableEq, Repr

namespace Label

/-- The label that a value makes; lists and records make none. -/
def ofDatum? : Datum → Option Label
  | .text s => some (crate s)
  | .atom a => some (atom a)
  | _ => none

/-- The crate that a label names, if it names one. -/
def crate? : Label → Option String
  | crate name => some name
  | atom _ => none

/-- A label inside a message. -/
def plain : Label → String
  | crate name => name
  | atom a => a.plain

instance : ToString Label :=
  ⟨plain⟩

/-- The number that a flag or an integer counts as. -/
def whole? : Atom → Option Int
  | .flag b => some (if b then 1 else 0)
  | .integer i => some i
  | _ => none

/-- The order of two values, if they have one. A value that is no number stands as if equal to
every number when labels are ordered. -/
def compareAtoms (a b : Atom) : Option Ordering :=
  match a, b with
  | .moment (.day d), .moment (.day e) => some (compare d.ordinal e.ordinal)
  | .moment (.time t), .moment (.time u) => some (compare t.micros u.micros)
  | .moment (.floating d t), .moment (.floating e u) =>
    some (compare (Moment.floating d t).instant (Moment.floating e u).instant)
  | .moment (.zoned d t z), .moment (.zoned e u y) =>
    some (compare (Moment.zoned d t z).instant (Moment.zoned e u y).instant)
  | .moment _, _ => none
  | _, .moment _ => none
  | .real x, .real y => some ((x.compare y).getD .eq)
  | .real x, b => (whole? b).map fun i => (x.compareInt i).getD .eq
  | a, .real y => (whole? a).map fun i => ((y.compareInt i).getD .eq).swap
  | a, b => (whole? a).bind fun i => (whole? b).map fun j => compare i j

/-- The order of two labels, if they have one. -/
def compare? : Label → Label → Option Ordering
  | crate a, crate b => some (compare a b)
  | atom a, atom b => compareAtoms a b
  | _, _ => none

/-- Whether a label comes before another one. -/
def isBefore (a b : Label) : Bool :=
  a.compare? b == some .lt

/-- A value that is no number is the same as nothing, itself included. -/
def isNan : Label → Bool
  | atom (.real .nan) => true
  | _ => false

/-- Two labels are the same if they mean one thing. -/
def same (a b : Label) : Bool :=
  !a.isNan && !b.isNan && a.compare? b == some .eq

end Label

end CrateGate
