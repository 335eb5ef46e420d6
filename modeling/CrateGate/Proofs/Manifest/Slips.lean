import CrateGate.Proofs.Manifest.Fitting
import CrateGate.Proofs.Manifest.Problems

/-!
# Manifests that are not explained

Reading a manifest is explained if it ends in what the manifest declares, or in a problem that names
the manifest (`Explained`). It is not explained for some texts, and it can be told which
(`Unexplained`): numbers with too many digits and values nested too deep, in the document, in the
version of the package or in an entry; entries whose names are no labels; and entries whose labels
have no order among themselves. Every other text is explained (`parse_explained`).
-/

namespace CrateGate.Manifest

open Discovery Version

variable {text crate : String} {path : Path} {fields package : List (String × Datum)}
  {w : Spelling} {published : Bool} {d : Option Datum} {slip : Slip}

/-! ## The package -/

/-- Reading the flag of a package goes well or finds a problem; it does not slip. -/
lemma readPublished_ne_slip : readPublished crate path d ≠ .error (.slip slip) := by
  intro h
  unfold readPublished at h
  split at h <;> cases h

/-- A package is valid if its name, its version and its flag can be read. -/
lemma validPackage_of_read (hname : fields.lookup "name" = some (.text crate))
    (hblank : Text.allBlank crate = false) (hversion : Declares id (fields.lookup "version") w)
    (hshort : w.Short)
    (hpublished : readPublished crate path (fields.lookup "publish") = .ok published) :
    ValidPackage fields crate w published := by
  obtain ⟨s, hs, hvalid, hchars⟩ := hversion
  refine ⟨hname, Text.allBlank_eq_false_iff.mp hblank, ⟨s, hs, hchars⟩, hvalid, hshort, ?_⟩
  unfold readPublished at hpublished
  split at hpublished
  · next habsent => exact .inl ⟨habsent, (Except.ok.inj hpublished).symm⟩
  · next flag hflag => exact .inr (.inl (Except.ok.inj hpublished ▸ hflag))
  · next items hitems =>
    refine .inr (.inr ⟨items, hitems, ?_⟩)
    rw [← Except.ok.inj hpublished, Bool.not_eq_true', List.isEmpty_eq_false_iff]
  · cases hpublished

/-- Why a package is not read from a table: a number of its version has too many digits, or it is
valid and its pins cannot be read. -/
inductive PackageSlip (entries : List Entry) (package : List (String × Datum)) : Slip → Prop
  | longVersion {crate : String} {w : Spelling} (name : package.lookup "name" = some (.text crate))
      (nonblank : ∃ c ∈ crate.toList, Text.isBlank c = false)
      (version : Declares id (package.lookup "version") w) (long : ¬w.Short) :
    PackageSlip entries package .badValue
  | pins {crate : String} {w : Spelling} {published : Bool} {slip : Slip}
      (valid : ValidPackage package crate w published) (slips : PinsSlip entries slip) :
    PackageSlip entries package slip

/-- Reading the pins of a document slips by just the reasons that its entries have for it. -/
lemma readPins_eq_slip_iff : readPins crate path (.record fields) = .error (.slip slip) ↔
    PinsSlip (pathEntries fields) slip := by
  show (collect crate path [] (entries (.record fields))).bind sortPins = _ ↔ _
  rw [entries_eq]
  exact collect_sortPins_eq_slip_iff

/-- The version of a package is read before its pins are. -/
lemma packageSlip_of_readPackage
    (h : readPackage path (.record fields) (.record package) = .error (.slip slip)) :
    PackageSlip (pathEntries fields) package slip := by
  unfold readPackage at h
  simp only at h
  split at h
  · next crate hname =>
    split at h
    · cases h
    · next hblank =>
      have hblank : Text.allBlank crate = false := Bool.eq_false_iff.mpr hblank
      rcases bind_eq_error_iff.mp h with h | ⟨version, hversion, h⟩
      · obtain ⟨rfl, w, hdeclares, hlong⟩ := readVersion_eq_slip_iff.mp h
        exact .longVersion hname (Text.allBlank_eq_false_iff.mp hblank) hdeclares hlong
      · obtain ⟨w, hdeclares, hshort, rfl⟩ := readVersion_eq_ok_iff.mp hversion
        rcases bind_eq_error_iff.mp h with h | ⟨published, hpublished, h⟩
        · exact absurd h readPublished_ne_slip
        · have hvalid := validPackage_of_read hname hblank hdeclares hshort hpublished
          rcases bind_eq_error_iff.mp h with h | ⟨pins, -, h⟩
          · exact .pins hvalid (readPins_eq_slip_iff.mp h)
          · cases h
  · cases h

/-! ## The whole manifest -/

/-- Why a manifest is not explained: its text holds a number with too many digits or values that lie
too deep in one another, or its package is not read. -/
inductive Unexplained (text : String) : Slip → Prop
  | longNumber (number : Toml.parse text = .error .oversized) : Unexplained text .badValue
  | deepDocument (deep : Toml.parse text = .error .tooDeep) : Unexplained text .tooDeep
  | package {fields package : List (String × Datum)} {slip : Slip}
      (document : Toml.parse text = .ok fields)
      (table : fields.lookup "package" = some (.record package))
      (slips : PackageSlip (pathEntries fields) package slip) : Unexplained text slip

/-- For every slip of a manifest there is a reason: in its document, in the version of its package,
or in its pins. -/
lemma unexplained_of_slip (h : parse text path = .error (.slip slip)) : Unexplained text slip := by
  unfold parse at h
  split at h
  · cases h
  · next hnumber =>
    cases h
    exact .longNumber hnumber
  · next hdeep =>
    cases h
    exact .deepDocument hdeep
  · next fields hdocument =>
    unfold ofDocument at h
    split at h
    · cases h
    · next package hpackage =>
      cases hread : readPackage path (.record fields) package with
      | ok p =>
        rw [hread] at h
        cases h
      | error fault =>
        rw [hread] at h
        cases h
        cases package with
        | record package => exact .package hdocument hpackage (packageSlip_of_readPackage hread)
        | _ => cases hread

/-- A reason for a slip is one wherever the manifest lies. -/
lemma slip_of_unexplained (h : Unexplained text slip) (path : Path) :
    parse text path = .error (.slip slip) := by
  cases h with
  | longNumber number => rw [parse, number]
  | deepDocument deep => rw [parse, deep]
  | @package fields package _ document table slips =>
    cases slips with
    | @longVersion crate w name nonblank version long =>
      have hfield (key : String) : (Datum.record package).field? key = package.lookup key := rfl
      have hblank : Text.allBlank crate = false := Text.allBlank_eq_false_iff.mpr nonblank
      have hversion : readVersion id (.crate crate) path (package.lookup "version") =
          .error (.slip .badValue) := readVersion_eq_slip_iff.mpr ⟨rfl, w, version, long⟩
      simp only [parse, document, ofDocument, table, readPackage, hfield, name, hblank, hversion]
      rfl
    | pins valid slips =>
      rw [parse_of_valid path document table valid, collect_sortPins_eq_slip_iff.mpr slips]
      rfl

/-- An operation on a manifest is explained if it ends in what it finds, or in a problem that names
the manifest and has one of two codes. -/
def Explained (path : Path) (outcome : Except Fault (Option Package)) : Prop :=
  (∃ found, outcome = .ok found) ∨
    ∃ problem, outcome = .error (.discovery problem) ∧ problem.path = some path ∧
      (problem.code = "MANIFEST_PARSE" ∨ problem.code = "VERSION_CONFLICT")

/-- **Which manifests are explained.** Reading one ends in a package, in none, or in a problem with
it, unless there is a reason for a slip; and it ends in each slip that there is a reason for. -/
theorem parse_explained (text : String) (path : Path) :
    (Explained path (parse text path) ↔ ¬∃ slip, Unexplained text slip) ∧
    ∀ slip, parse text path = .error (.slip slip) ↔ Unexplained text slip := by
  refine ⟨⟨?_, fun hnone => ?_⟩, fun slip => ⟨unexplained_of_slip, fun h =>
    slip_of_unexplained h path⟩⟩
  · rintro hexplained ⟨slip, hunexplained⟩
    rw [slip_of_unexplained hunexplained path] at hexplained
    rcases hexplained with ⟨found, h⟩ | ⟨problem, h, -⟩ <;> cases h
  · cases hparse : parse text path with
    | ok found => exact .inl ⟨found, rfl⟩
    | error fault =>
      cases confined_parse text path fault hparse with
      | slip slip => exact absurd ⟨slip, unexplained_of_slip hparse⟩ hnone
      | problem hpath hcode => exact .inr ⟨_, rfl, hpath, hcode⟩

/-- A manifest whose only dependency names a list. -/
def unlabelledText : String :=
  "[package]\nname = 'a'\nversion = '1.0.0'\n[dependencies]\n" ++
    "b = \x7bpath = '../b', package = [], version = '1.0.0'\x7d\n"

/-- Not every manifest is explained: the name of a dependency may be a list. -/
theorem not_explained_unlabelled :
    ¬∀ (text : String) (path : Path), Explained path (parse text path) := by
  intro hall
  have hparse : parse unlabelledText ⟨["a", "Cargo.toml"]⟩ = .error (.slip .badType) := by
    have htoml : Toml.parse unlabelledText = .ok [("package", .record [("name", .text "a"),
        ("version", .text "1.0.0")]), ("dependencies", .record [("b", .record
          [("path", .text "../b"), ("package", .list []), ("version", .text "1.0.0")])])] := by
      decide +kernel
    rw [parse, htoml]
    decide +kernel
  rcases hall unlabelledText ⟨["a", "Cargo.toml"]⟩ with ⟨found, h⟩ | ⟨problem, h, -⟩
  · cases hparse.symm.trans h
  · cases hparse.symm.trans h

end CrateGate.Manifest
