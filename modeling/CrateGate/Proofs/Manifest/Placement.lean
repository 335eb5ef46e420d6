import CrateGate.Proofs.Manifest.Problems

/-!
# Manifests at other places

A manifest says the same wherever it is: what can be read at one place can be read at every other,
and the package is the same but for its place (`parse_placed`). Where a manifest is shows only in
the problems with it.
-/

namespace CrateGate

/-- The package at another place. -/
def Package.placed (path : Path) (p : Package) : Package :=
  { p with manifest := path }

namespace Manifest

open Discovery

variable {path : Path} {trim : String → String} {subject : Subject} {d : Option Datum}
  {v : Version} {crate text : String} {e : Entry} {entries : List Entry} {pin : Pin}
  {pins pins' : List Pin} {published : Bool} {document package : Datum} {p : Package}
  {found : Option Package}

/-! ## The parts of a manifest -/

/-- A version that is read of a manifest is read of it anywhere: where the manifest lies shows in
problems only. -/
lemma readVersion_placed (h : readVersion trim subject path d = .ok v) (path' : Path) :
    readVersion trim subject path' d = .ok v := by
  unfold readVersion at h ⊢
  split at h
  · split at h
    · exact h
    · cases h
    · cases h
  · cases h

/-- A pin that is read of an entry is read of it wherever the manifest lies. -/
lemma readPin_placed (h : readPin crate path e = .ok pin) (path' : Path) :
    readPin crate path' e = .ok pin := by
  unfold readPin at h ⊢
  split at h
  · cases h
  · cases h
  · obtain ⟨version, hversion, h⟩ := bind_eq_ok_iff.mp h
    exact bind_eq_ok_iff.mpr ⟨version, readVersion_placed hversion path', h⟩

/-- A pin that can be added can be added wherever the manifest lies. -/
lemma addPin_placed (h : addPin crate path pin pins = .ok pins') (path' : Path) :
    addPin crate path' pin pins = .ok pins' := by
  induction pins generalizing pins' with
  | nil => exact h
  | cons earlier pins ih =>
    rw [addPin] at h ⊢
    split at h
    · next hsame =>
      rw [if_pos hsame]
      split at h
      · next hversion => rwa [if_pos hversion]
      · cases h
    · next hsame =>
      obtain ⟨rest, hrest, h⟩ := bind_eq_ok_iff.mp h
      rw [if_neg hsame]
      exact bind_eq_ok_iff.mpr ⟨rest, ih hrest, h⟩

/-- So the pins gathered of entries do not depend on where the manifest lies, if there are any. -/
lemma collect_placed (h : collect crate path pins entries = .ok pins') (path' : Path) :
    collect crate path' pins entries = .ok pins' := by
  induction entries generalizing pins with
  | nil => exact h
  | cons e entries ih =>
    obtain ⟨pin, hpin, h⟩ := bind_eq_ok_iff.mp h
    obtain ⟨next, hnext, h⟩ := bind_eq_ok_iff.mp h
    refine bind_eq_ok_iff.mpr ⟨pin, readPin_placed hpin path', ?_⟩
    exact bind_eq_ok_iff.mpr ⟨next, addPin_placed hnext path', ih h⟩

/-- The pins of a document are the same wherever it lies: they are gathered and put into order. -/
lemma readPins_placed (h : readPins crate path document = .ok pins) (path' : Path) :
    readPins crate path' document = .ok pins := by
  obtain ⟨collected, hcollect, hsort⟩ := bind_eq_ok_iff.mp h
  exact bind_eq_ok_iff.mpr ⟨collected, collect_placed hcollect path', hsort⟩

/-- Whether a package is to be published does not depend on where its manifest lies. -/
lemma readPublished_placed (h : readPublished crate path d = .ok published) (path' : Path) :
    readPublished crate path' d = .ok published := by
  unfold readPublished at h ⊢
  split at h
  · exact h
  · exact h
  · exact h
  · cases h

/-- A package that is read of a manifest is read of it anywhere, and is then placed there. -/
lemma readPackage_placed (h : readPackage path document package = .ok p) (path' : Path) :
    readPackage path' document package = .ok (p.placed path') := by
  obtain ⟨fields, name, version, published, pins, hpackage, hname, hblank, hversion, hpublished,
    hpins, rfl⟩ := readPackage_eq_ok_iff.mp h
  exact readPackage_eq_ok_iff.mpr ⟨fields, name, version, published, pins, hpackage, hname, hblank,
    readVersion_placed hversion path', readPublished_placed hpublished path',
    readPins_placed hpins path', rfl⟩

/-! ## The whole manifest -/

/-- **A manifest declares the same package wherever it is.** -/
theorem parse_placed (h : parse text path = .ok found) (path' : Path) :
    parse text path' = .ok (found.map (Package.placed path')) := by
  unfold parse at h ⊢
  split at h
  · cases h
  · cases h
  · cases h
  · next fields _ =>
    unfold ofDocument at h ⊢
    split at h
    · obtain rfl := Except.ok.inj h
      rfl
    · next package _ =>
      cases hread : readPackage path (.record fields) package with
      | error fault =>
        rw [hread] at h
        cases h
      | ok p =>
        rw [hread] at h
        obtain rfl := Except.ok.inj h
        rw [readPackage_placed hread path']
        rfl

end Manifest

end CrateGate
