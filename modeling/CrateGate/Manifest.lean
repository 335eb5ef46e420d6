import CrateGate.Crate.Package
import CrateGate.Fault
import CrateGate.InsertionSort
import CrateGate.Text.Blank
import CrateGate.Toml.Document

/-!
# Manifests

What a manifest says about its crate. A manifest without a `[package]` table belongs to no crate.

Dependencies count if they are given by a path: those of the tables `dependencies` and
`build-dependencies`, at the top of the manifest and in every table of `target`. Each has to be
pinned to one exact version, written as such or after an equals sign, and entries of one name have
to agree. Dependencies for development only do not count.
-/

namespace CrateGate.Manifest

open Discovery

/-- The names of the tables that list dependencies. -/
def dependencyTables : List String :=
  ["dependencies", "build-dependencies"]

/-- The dependency tables of one table, in the order of their names above. -/
def tablesOf (d : Datum) : List Datum :=
  dependencyTables.filterMap d.field?

/-- The dependency tables of a manifest: its own, then those of its targets. -/
def tables (manifest : Datum) : List Datum :=
  let targets := (manifest.field? "target").map Datum.fields
  tablesOf manifest ++ (targets.getD []).flatMap fun target => tablesOf target.2

/-- A dependency that is given by a path. -/
structure Entry where
  /-- What it names: its `package`, or else its key. -/
  subject : Datum
  /-- The version it asks for, if it says so. -/
  version : Option Datum
deriving Repr

/-- The entry of a dependency, if it is given by a path. -/
def entry? (key : String) (spec : Datum) : Option Entry :=
  (spec.field? "path").map fun _ =>
    ⟨(spec.field? "package").getD (.text key), spec.field? "version"⟩

/-- The entries of a manifest, in the order of the tables and of the document. -/
def entries (manifest : Datum) : List Entry :=
  (tables manifest).flatMap fun table => table.fields.filterMap fun (key, spec) => entry? key spec

/-- The text of an exact requirement without its equals sign and the white space after it. -/
def exactly (requirement : String) : String :=
  match requirement.toList with
  | '=' :: rest => String.ofList (Text.stripLeft rest)
  | _ => requirement

/-- The version that a value of a manifest declares. `trim` takes away what may stand around the
version itself. -/
def readVersion (trim : String → String) (subject : Subject) (manifest : Path) :
    Option Datum → Except Fault Version
  | some (.text s) =>
    match Version.parse (trim s) with
    | .ok v => .ok v
    | .error .oversized => .error (.slip .badValue)
    | .error why => .error (.discovery (.versionMalformed subject why manifest))
  | _ => .error (.discovery (.versionNotText subject manifest))

/-- The pin that an entry asks for. What it names has to be a value that can be shown. -/
def readPin (crate : String) (manifest : Path) (e : Entry) : Except Fault Pin :=
  match e.subject.obstacle? with
  | some .longInteger => .error (.slip .badValue)
  | some .deepNesting => .error (.slip .tooDeep)
  | none => do
    let version ← readVersion exactly (.pin e.subject.plain crate) manifest e.version
    match Label.ofDatum? e.subject with
    | some label => .ok ⟨label, version⟩
    | none => .error (.slip .badType)

/-- The pins with one more, which takes the place of an earlier one of the same label. -/
def addPin (crate : String) (manifest : Path) (pin : Pin) : List Pin → Except Fault (List Pin)
  | [] => .ok [pin]
  | earlier :: pins =>
    if earlier.label.same pin.label then
      if earlier.version = pin.version then .ok (pin :: pins)
      else
        .error (.discovery (.pinConflict crate pin.label earlier.version pin.version manifest))
    else do
      let pins ← addPin crate manifest pin pins
      .ok (earlier :: pins)

/-- The pins of the entries, added to those before them. -/
def collect (crate : String) (manifest : Path) : List Pin → List Entry → Except Fault (List Pin)
  | pins, [] => .ok pins
  | pins, e :: rest => do
    let pin ← readPin crate manifest e
    let pins ← addPin crate manifest pin pins
    collect crate manifest pins rest

/-- The pins in the order of their labels, if those have one. -/
def sortPins (pins : List Pin) : Except Fault (List Pin) :=
  let comparable := match pins with
    | [] => true
    | first :: others => others.all fun p => (first.label.compare? p.label).isSome
  if comparable then .ok (InsertionSort.sort (fun p q => p.label.isBefore q.label) pins)
  else .error (.slip .badType)

/-- The pins of a manifest by label. -/
def readPins (crate : String) (path : Path) (manifest : Datum) : Except Fault (List Pin) := do
  let pins ← collect crate path [] (entries manifest)
  sortPins pins

/-- Whether a crate is to be published: unless the manifest says otherwise, by a flag or by a list
of places to publish to. -/
def readPublished (crate : String) (path : Path) : Option Datum → Except Fault Bool
  | none => .ok true
  | some (.atom (.flag b)) => .ok b
  | some (.list items) => .ok (!items.isEmpty)
  | some _ => .error (.discovery (.publishNotFlag crate path))

/-- The package of a manifest with a `[package]` table. -/
def readPackage (path : Path) (manifest package : Datum) : Except Fault Package := do
  match package with
  | .record _ =>
    match package.field? "name" with
    | some (.text name) =>
      if Text.allBlank name then .error (.discovery (.nameMissing path))
      else do
        let version ← readVersion id (.crate name) path (package.field? "version")
        let published ← readPublished name path (package.field? "publish")
        let pins ← readPins name path manifest
        .ok ⟨name, version, path, pins, published⟩
    | _ => .error (.discovery (.nameMissing path))
  | _ => .error (.discovery (.packageNotTable path))

/-- The package of a manifest that has been read as a document, if it has one. -/
def ofDocument (path : Path) (fields : List (String × Datum)) : Except Fault (Option Package) :=
  match fields.lookup "package" with
  | none => .ok none
  | some package => (readPackage path (.record fields) package).map some

/-- The package of a manifest, if it has one. -/
def parse (text : String) (path : Path) : Except Fault (Option Package) :=
  match Toml.parse text with
  | .error .malformed => .error (.discovery (.malformed path (Toml.joined text)))
  | .error .oversized => .error (.slip .badValue)
  | .error .tooDeep => .error (.slip .tooDeep)
  | .ok fields => ofDocument path fields

end CrateGate.Manifest
