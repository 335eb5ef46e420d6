import CrateGate.Manifest
import CrateGate.Proofs.Version.Render
import CrateGate.Proofs.Walk
import CrateGate.Report
import Mathlib.Tactic.Lemma

/-!
# What reading a manifest can end in

A package knows the manifest that it was read from (`manifest_of_parse`), and has a version that a
text writes (`canonical_version_of_parse`). Where there is no package to be read, the manifest is
named too: every problem with it has its path, and one of two codes (`confined_parse`). What goes
wrong otherwise is a slip.
-/

namespace CrateGate.Manifest

open Discovery

variable {α β : Type} {manifest : Path} {x : Except Fault α} {next : α → Except Fault β}
  {fault : Fault} {text : String} {p : Package}

/-! ## Faults of one manifest -/

/-- A fault that concerns one manifest: a slip, or a problem that is there. -/
inductive Concerns (manifest : Path) : Fault → Prop
  | slip (s : Slip) : Concerns manifest (.slip s)
  | problem {problem : Problem} (path : problem.path = some manifest)
      (code : problem.code = "MANIFEST_PARSE" ∨ problem.code = "VERSION_CONFLICT") :
      Concerns manifest (.discovery problem)

/-- An operation on one manifest ends well, or in a fault that concerns it. -/
def Confined (manifest : Path) (x : Except Fault α) : Prop :=
  ∀ fault, x = .error fault → Concerns manifest fault

/-- A step that goes well has no fault that could concern another manifest. -/
lemma confined_ok (a : α) : Confined manifest (.ok a : Except Fault α) := by
  intro fault h
  cases h

/-- A step that ends in a fault of a manifest is confined to that manifest. -/
lemma confined_error (h : Concerns manifest fault) :
    Confined manifest (.error fault : Except Fault α) := by
  intro fault' heq
  obtain rfl := Except.error.inj heq
  exact h

/-- A sequence is confined if its parts are. -/
lemma Confined.bind (h : Confined manifest x) (hnext : ∀ a, Confined manifest (next a)) :
    Confined manifest (x >>= next) := by
  cases x with
  | error fault => exact confined_error (h fault rfl)
  | ok a => exact hnext a

/-- What is made of the value of a step does not touch its faults. -/
lemma Confined.map (h : Confined manifest x) (f : α → β) : Confined manifest (x.map f) := by
  cases x with
  | error fault => exact confined_error (h fault rfl)
  | ok a => exact confined_ok (f a)

/-! ## The parts of a manifest -/

/-- What goes wrong with a version is said of the manifest that declares it. -/
lemma confined_readVersion (trim : String → String) (subject : Subject) (d : Option Datum) :
    Confined manifest (readVersion trim subject manifest d) := by
  unfold readVersion
  split
  · split
    · exact confined_ok _
    · exact confined_error (.slip _)
    · exact confined_error (.problem rfl (.inl rfl))
  · exact confined_error (.problem rfl (.inl rfl))

/-- What goes wrong with an entry is said of the manifest it is in, whether its name or its version
is at fault. -/
lemma confined_readPin (crate : String) (e : Entry) :
    Confined manifest (readPin crate manifest e) := by
  unfold readPin
  split
  · exact confined_error (.slip _)
  · exact confined_error (.slip _)
  · refine (confined_readVersion _ _ _).bind fun version => ?_
    split
    · exact confined_ok _
    · exact confined_error (.slip _)

/-- What goes wrong with adding a pin is said of the manifest as well. -/
lemma confined_addPin (crate : String) (pin : Pin) (pins : List Pin) :
    Confined manifest (addPin crate manifest pin pins) := by
  induction pins with
  | nil => exact confined_ok _
  | cons earlier pins ih =>
    rw [addPin]
    split
    · split
      · exact confined_ok _
      · exact confined_error (.problem rfl (.inr rfl))
    · exact ih.bind fun pins => confined_ok _

/-- So what goes wrong with any of the entries is said of the manifest they are in. -/
lemma confined_collect (crate : String) (entries : List Entry) (pins : List Pin) :
    Confined manifest (collect crate manifest pins entries) := by
  induction entries generalizing pins with
  | nil => exact confined_ok _
  | cons e entries ih =>
    rw [collect]
    refine (confined_readPin crate e).bind fun pin => ?_
    exact (confined_addPin crate pin pins).bind fun pins => ih pins

/-- Putting pins into order can only slip, and that names no manifest at all. -/
lemma confined_sortPins (pins : List Pin) : Confined manifest (sortPins pins) := by
  unfold sortPins
  extract_lets comparable
  split
  · exact confined_ok _
  · exact confined_error (.slip _)

/-- What goes wrong with the flag of a package is said of its manifest. -/
lemma confined_readPublished (crate : String) (d : Option Datum) :
    Confined manifest (readPublished crate manifest d) := by
  unfold readPublished
  split
  · exact confined_ok _
  · exact confined_ok _
  · exact confined_ok _
  · exact confined_error (.problem rfl (.inl rfl))

/-- What goes wrong with a package, in whatever part of it, is said of its manifest. -/
lemma confined_readPackage (document package : Datum) :
    Confined manifest (readPackage manifest document package) := by
  unfold readPackage
  split
  · split
    · next name hname =>
      split
      · exact confined_error (.problem rfl (.inl rfl))
      · refine (confined_readVersion _ _ _).bind fun version => ?_
        refine (confined_readPublished name _).bind fun published => ?_
        refine Confined.bind ?_ fun pins => confined_ok _
        exact (confined_collect name _ _).bind fun pins => confined_sortPins pins
    · exact confined_error (.problem rfl (.inl rfl))
  · exact confined_error (.problem rfl (.inl rfl))

/-- **Every problem with a manifest names it.** -/
theorem confined_parse (text : String) (manifest : Path) :
    Confined manifest (parse text manifest) := by
  unfold parse
  split
  · exact confined_error (.problem rfl (.inl rfl))
  · exact confined_error (.slip _)
  · exact confined_error (.slip _)
  · unfold ofDocument
    split
    · exact confined_ok _
    · exact (confined_readPackage _ _).map some

/-! ## The package of a manifest -/

/-- A package is read from a table with a name, and a version, a flag and pins that can be read. -/
lemma readPackage_eq_ok_iff {document package : Datum} :
    readPackage manifest document package = .ok p ↔
      ∃ fields name version published pins, package = .record fields ∧
        fields.lookup "name" = some (.text name) ∧ Text.allBlank name = false ∧
        readVersion id (.crate name) manifest (fields.lookup "version") = .ok version ∧
        readPublished name manifest (fields.lookup "publish") = .ok published ∧
        readPins name manifest document = .ok pins ∧
        p = ⟨name, version, manifest, pins, published⟩ := by
  constructor
  · intro h
    unfold readPackage at h
    split at h
    · next fields =>
      split at h
      · next name hname =>
        split at h
        · cases h
        · next hblank =>
          obtain ⟨version, hversion, h⟩ := bind_eq_ok_iff.mp h
          obtain ⟨published, hpublished, h⟩ := bind_eq_ok_iff.mp h
          obtain ⟨pins, hpins, h⟩ := bind_eq_ok_iff.mp h
          exact ⟨fields, name, version, published, pins, rfl, hname, Bool.eq_false_iff.mpr hblank,
            hversion, hpublished, hpins, (Except.ok.inj h).symm⟩
      · cases h
    · cases h
  · rintro ⟨fields, name, version, published, pins, rfl, hname, hblank, hversion, hpublished,
      hpins, rfl⟩
    have hfield (key : String) : (Datum.record fields).field? key = fields.lookup key := rfl
    simp only [readPackage, hfield, hname, hblank, hversion, hpublished, hpins]
    rfl

/-- A manifest has a package if it is a document with one that can be read. -/
lemma parse_eq_some_iff : parse text manifest = .ok (some p) ↔
    ∃ fields package, Toml.parse text = .ok fields ∧ fields.lookup "package" = some package ∧
      readPackage manifest (.record fields) package = .ok p := by
  constructor
  · intro h
    unfold parse at h
    split at h
    · cases h
    · cases h
    · cases h
    · next fields hfields =>
      unfold ofDocument at h
      split at h
      · cases h
      · next package hpackage =>
        refine ⟨fields, package, hfields, hpackage, ?_⟩
        cases hread : readPackage manifest (.record fields) package with
        | error fault =>
          rw [hread] at h
          cases h
        | ok q =>
          rw [hread] at h
          rw [Option.some.inj (Except.ok.inj h)]
  · rintro ⟨fields, package, hfields, hpackage, hread⟩
    simp only [parse, hfields, ofDocument, hpackage, hread]
    rfl

/-- A package is at the path of its manifest. -/
theorem manifest_of_parse (h : parse text manifest = .ok (some p)) : p.manifest = manifest := by
  obtain ⟨fields, package, -, -, hread⟩ := parse_eq_some_iff.mp h
  obtain ⟨_, _, _, _, _, -, -, -, -, -, -, rfl⟩ := readPackage_eq_ok_iff.mp hread
  rfl

/-- A version that is read of a manifest is one that a text writes, so it can be printed and read
again. -/
lemma canonical_of_readVersion {trim : String → String} {subject : Subject} {d : Option Datum}
    {v : Version} (h : readVersion trim subject manifest d = .ok v) : v.Canonical := by
  unfold readVersion at h
  split at h
  · split at h
    · next hparse =>
      obtain rfl := Except.ok.inj h
      exact Version.canonical_of_parse hparse
    · cases h
    · cases h
  · cases h

/-- The version of a package is one that a text writes. -/
theorem canonical_version_of_parse (h : parse text manifest = .ok (some p)) :
    p.version.Canonical := by
  obtain ⟨fields, package, -, -, hread⟩ := parse_eq_some_iff.mp h
  obtain ⟨_, _, _, _, _, -, -, -, hversion, -, -, rfl⟩ := readPackage_eq_ok_iff.mp hread
  exact canonical_of_readVersion hversion

end CrateGate.Manifest
