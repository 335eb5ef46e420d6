import CrateGate.Discovery.Read
import CrateGate.Proofs.Walk
import Mathlib.Data.List.Nodup
import Mathlib.Tactic.Lemma

/-!
# The packages that are read

Every package stands on the shelf under its own name (`Shelf.Labelled`), whatever is read and in
whatever order, so the packages of a tree come out in the order of their names and no name occurs
twice (`readPackages_sorted`).
-/

namespace CrateGate

namespace Discovery

variable {source source' : Source} {shelf shelf' : Shelf} {path location : Path} {paths : List Path}
  {settings : Settings} {packages : List Package} {p : Package}

/-! ## One more package -/

/-- Every package stands under its name. -/
def Shelf.Labelled (shelf : Shelf) : Prop :=
  ∀ a p, shelf.get? a = some p → p.name = a

/-- A package is put on the shelf if and only if there is none of its name yet, and the shelf then
has it as well. -/
lemma shelve_eq_ok_iff :
    shelve shelf p = .ok shelf' ↔ shelf.get? p.name = none ∧ shelf' = shelf.insert p.name p := by
  unfold shelve
  cases shelf.get? p.name with
  | none => simp [eq_comm]
  | some earlier => simp

/-- A shelf on which every package stands under its own name stays one when a package is put on
it. -/
lemma Shelf.Labelled.shelve (h : shelf.Labelled) (hshelve : shelve shelf p = .ok shelf') :
    shelf'.Labelled := by
  obtain ⟨-, rfl⟩ := shelve_eq_ok_iff.mp hshelve
  intro a q hget
  rw [SortedMap.get?_insert] at hget
  split at hget
  · next heq =>
    obtain rfl := Option.some.inj hget
    exact heq.symm
  · exact h a q hget

/-- The packages of a shelf, by name: the names are those they stand under. -/
lemma Shelf.Labelled.map_name_values (h : shelf.Labelled) :
    shelf.values.map (·.name) = shelf.keys := by
  unfold SortedMap.values SortedMap.keys
  rw [List.map_map]
  refine List.map_congr_left fun e he => ?_
  exact h e.1 e.2 (SortedMap.mem_toList_iff.mp he)

/-! ## More manifests -/

/-- How a reading ends that begins with one manifest. -/
lemma outcome_readManifests_cons (source : Source) (shelf : Shelf) (path : Path)
    (paths : List Path) :
    (readManifests source shelf (path :: paths)).outcome =
      (readManifest source path).bind fun
        | none => (readManifests source shelf paths).outcome
        | some p => (shelve shelf p).bind fun shelf =>
            (readManifests source shelf paths).outcome := by
  rw [readManifests, Report.outcome_bind, Report.outcome_ofExcept]
  congr 1
  funext found
  cases found with
  | none => rw [Report.outcome_bind, Report.outcome_note]; rfl
  | some p => rw [Report.outcome_bind, Report.outcome_ofExcept]

/-- So after reading any number of manifests every package stands under its own name. -/
lemma Shelf.Labelled.readManifests (h : shelf.Labelled)
    (hread : (readManifests source shelf paths).outcome = .ok shelf') : shelf'.Labelled := by
  induction paths generalizing shelf with
  | nil =>
    obtain rfl := Except.ok.inj hread
    exact h
  | cons path paths ih =>
    rw [outcome_readManifests_cons] at hread
    obtain ⟨found, -, hread⟩ := bind_eq_ok_iff.mp hread
    cases found with
    | none => exact ih h hread
    | some p =>
      obtain ⟨next, hshelve, hread⟩ := bind_eq_ok_iff.mp hread
      exact ih (h.shelve hshelve) hread

/-! ## All packages of a tree -/

/-- The packages of a tree are those of the shelf that its manifests fill. -/
lemma readPackages_eq_ok_iff :
    (readPackages source location settings).outcome = .ok packages ↔
      ∃ paths shelf, findManifests source location settings = .ok paths ∧
        (readManifests source SortedMap.empty paths).outcome = .ok shelf ∧
        packages = shelf.values := by
  unfold readPackages
  simp only [Report.outcome_bind, Report.outcome_ofExcept, Report.outcome_note,
    Report.outcome_pure, bind_eq_ok_iff]
  constructor
  · rintro ⟨paths, hfind, shelf, hread, -, -, heq⟩
    exact ⟨paths, shelf, hfind, hread, (Except.ok.inj heq).symm⟩
  · rintro ⟨paths, shelf, hfind, hread, rfl⟩
    exact ⟨paths, hfind, shelf, hread, (), trivial, rfl⟩

/-- **The packages of a tree come in the order of their names, and no name occurs twice.** -/
theorem readPackages_sorted (h : (readPackages source location settings).outcome = .ok packages) :
    packages.Pairwise fun p q => p.name < q.name := by
  obtain ⟨paths, shelf, -, hread, rfl⟩ := readPackages_eq_ok_iff.mp h
  have hempty : Shelf.Labelled SortedMap.empty := by
    intro a p hget
    cases hget
  have hnames : (shelf.values.map (·.name)).Pairwise (· < ·) := by
    rw [(hempty.readManifests hread).map_name_values]
    exact SortedMap.pairwise_keys shelf
  exact List.pairwise_map.mp hnames

/-- In the order of the names no name occurs twice. -/
lemma nodup_names (h : packages.Pairwise fun p q => p.name < q.name) :
    (packages.map (·.name)).Nodup := by
  unfold List.Nodup
  rw [List.pairwise_map]
  exact h.imp String.ne_of_lt

/-! ## What a reading sees of a source -/

/-- Reading manifests depends on nothing in the source but what each of them reads as. -/
lemma readManifests_congr (h : ∀ p ∈ paths, readManifest source p = readManifest source' p)
    (shelf : Shelf) : readManifests source shelf paths = readManifests source' shelf paths := by
  induction paths generalizing shelf with
  | nil => rfl
  | cons path paths ih =>
    obtain ⟨hpath, hpaths⟩ := List.forall_mem_cons.mp h
    simp only [readManifests, hpath, ih hpaths]

/-- Sources with the same manifests, which declare the same, make no difference to a reading. -/
lemma readPackages_congr
    (hfind : findManifests source location settings = findManifests source' location settings)
    (hread : ∀ paths, findManifests source location settings = .ok paths →
      ∀ p ∈ paths, readManifest source p = readManifest source' p) :
    readPackages source location settings = readPackages source' location settings := by
  unfold readPackages
  rw [← hfind]
  cases hpaths : findManifests source location settings with
  | error fault => rfl
  | ok paths =>
    have hbind {α : Type} (next : List Path → Report α) :
        (Report.ofExcept (.ok paths) >>= next) = next paths := rfl
    rw [hbind, hbind, readManifests_congr (hread paths hpaths) SortedMap.empty]

end Discovery

end CrateGate
