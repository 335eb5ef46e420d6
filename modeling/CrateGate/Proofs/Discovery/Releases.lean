import CrateGate.Proofs.Discovery.Manifests
import CrateGate.Proofs.Discovery.Versions

/-!
# Releases in a report

A report shows a package as its name, a hyphen and its version. Names and versions hold hyphens too,
so where one ends and the other begins is not always told. Packages of two names look the same if
and only if the longer name takes in the start of the other package's version (`Package.Overlaps`,
`Package.release_eq_iff`). Such a name holds the three numbers of that version
(`Package.Overlaps.exists_core`). Where no name does that, no two releases in the report of a
discovery are the same (`nodup_releases_iff`).
-/

namespace CrateGate

/-! ## Two parts with a mark between them -/

/-- Two texts that are joined by a mark come from the same parts, or the parts are cut at two marks
of the whole. -/
lemma append_cons_eq_append_cons_iff {α : Type} {mark : α} {a b x y : List α} :
    a ++ mark :: x = b ++ mark :: y ↔
      (a = b ∧ x = y) ∨ (∃ t, b = a ++ mark :: t ∧ x = t ++ mark :: y) ∨
        ∃ t, a = b ++ mark :: t ∧ y = t ++ mark :: x := by
  constructor
  · intro h
    rcases List.append_eq_append_iff.mp h with ⟨c, rfl, hc⟩ | ⟨c, rfl, hc⟩
    · cases c with
      | nil => exact .inl ⟨(List.append_nil a).symm, (List.cons.inj hc).2⟩
      | cons d t =>
        obtain ⟨rfl, hx⟩ := List.cons.inj hc
        exact .inr (.inl ⟨t, rfl, hx⟩)
    · cases c with
      | nil => exact .inl ⟨List.append_nil b, (List.cons.inj hc).2.symm⟩
      | cons d t =>
        obtain ⟨rfl, hy⟩ := List.cons.inj hc
        exact .inr (.inr ⟨t, rfl, hy⟩)
  · rintro (⟨rfl, rfl⟩ | ⟨t, rfl, rfl⟩ | ⟨t, rfl, rfl⟩) <;> simp

namespace Version

variable {v : Version}

/-- The numbers of a version that can be read hold no hyphen. -/
lemma Canonical.hyphen_notMem_core (h : v.Canonical) : '-' ∉ v.core.toList := by
  have hnumber {i : Int} (hi : Computed i) : '-' ∉ (toString i).toList := by
    rw [toList_toString hi.1]
    exact fun hmem => absurd (Text.isDigit_of_mem_toDigits hmem) (by decide)
  have hdot : '-' ∉ ".".toList := by decide
  simp only [Version.core, String.toList_append, List.mem_append, not_or]
  exact ⟨⟨⟨⟨hnumber h.major, hdot⟩, hnumber h.minor⟩, hdot⟩, hnumber h.patch⟩

/-- The numbers of a version have dots between them, so a dot is always in its core. -/
lemma dot_mem_core (v : Version) : '.' ∈ v.core.toList := by
  simp [Version.core]

end Version

namespace Package

variable {p q : Package}

/-! ## Releases that look the same -/

/-- The name of the second package is the name of the first one, a hyphen, and a text that starts
the version of the first one; after a hyphen that goes on with the version of the second. -/
def Overlaps (p q : Package) : Prop :=
  ∃ start, q.name = p.name ++ "-" ++ start ∧
    p.version.render = start ++ "-" ++ q.version.render

/-- A release is written as the name, a hyphen, and the version. -/
lemma toList_release (p : Package) :
    p.release.toList = p.name.toList ++ '-' :: p.version.render.toList := by
  simp [release]

/-- Two packages overlap if and only if the name of one goes on, behind a hyphen, with the start of
the other's version. -/
lemma overlaps_iff : p.Overlaps q ↔
    ∃ t, q.name.toList = p.name.toList ++ '-' :: t ∧
      p.version.render.toList = t ++ '-' :: q.version.render.toList := by
  constructor
  · rintro ⟨start, hname, hversion⟩
    exact ⟨start.toList, by rw [hname]; simp, by rw [hversion]; simp⟩
  · rintro ⟨t, hname, hversion⟩
    refine ⟨String.ofList t, String.toList_inj.mp ?_, String.toList_inj.mp ?_⟩
    · rw [hname]; simp
    · rw [hversion]; simp

/-- **When releases look the same**: their names and versions are, or one name takes in the start of
the other version. -/
lemma release_eq_iff : p.release = q.release ↔
    (p.name = q.name ∧ p.version.render = q.version.render) ∨ p.Overlaps q ∨ q.Overlaps p := by
  rw [← String.toList_inj, toList_release, toList_release, append_cons_eq_append_cons_iff,
    String.toList_inj, String.toList_inj, overlaps_iff, overlaps_iff]

/-- A name that overlaps with a release is another one. -/
lemma Overlaps.name_ne (h : p.Overlaps q) : p.name ≠ q.name := by
  intro heq
  obtain ⟨t, hname, -⟩ := overlaps_iff.mp h
  have hlength := congrArg List.length (heq ▸ hname)
  rw [List.length_append, List.length_cons] at hlength
  omega

/-- **A name that takes in the start of a version takes in its three numbers.** -/
lemma Overlaps.exists_core (h : p.Overlaps q) (hcanonical : p.version.Canonical) :
    ∃ more, q.name = p.name ++ "-" ++ p.version.core ++ more := by
  obtain ⟨start, hname, hversion⟩ := h
  have hsplit : start.toList ++ '-' :: q.version.render.toList = p.version.core.toList ++
      (Version.marked "-" p.version.pre ++ Version.marked "+" p.version.build).toList := by
    have hlists := congrArg String.toList hversion
    simpa [Version.render] using hlists.symm
  have hprefix : ∃ more, start.toList = p.version.core.toList ++ more := by
    rcases List.append_eq_append_iff.mp hsplit with ⟨c, hcore, hc⟩ | ⟨c, hstart, -⟩
    · cases c with
      | nil => exact ⟨[], by rw [hcore]; simp⟩
      | cons d t =>
        -- the numbers would hold the hyphen
        obtain ⟨rfl, -⟩ := List.cons.inj hc
        exact absurd (hcore ▸ List.mem_append_right _ List.mem_cons_self)
          hcanonical.hyphen_notMem_core
    · exact ⟨c, hstart⟩
  obtain ⟨more, hmore⟩ := hprefix
  refine ⟨String.ofList more, String.toList_inj.mp ?_⟩
  rw [hname]
  simp [hmore]

end Package

namespace Discovery

variable {source : Source} {location : Path} {settings : Settings} {packages : List Package}
  {s : Schedule}

/-! ## Releases of a discovery -/

/-- The releases in a report are those of the packages in a schedule, in some order. -/
lemma ScheduleOf.releases_perm (h : ScheduleOf packages s) :
    (s.releases.flatten ++ s.unpublishedReleases).Perm (packages.map Package.release) := by
  have hreleases : s.releases.flatten ++ s.unpublishedReleases =
      (s.layers.flatten ++ s.unpublished).map Package.release := by
    rw [Schedule.releases, Schedule.unpublishedReleases, List.map_append, List.map_flatten]
  rw [hreleases]
  exact h.perm.map _

/-- **When the releases in a report are distinct.** In the report of a discovery no release stands
twice if and only if no name of a package takes in the start of another package's version. Such a
name would hold a hyphen and the three numbers of that version, so there is none where no name holds
a dot. -/
theorem nodup_releases_iff (h : (discover source location settings).outcome = .ok s) :
    let printed := s.releases.flatten ++ s.unpublishedReleases
    (printed.Nodup ↔ ∀ p ∈ s.packages, ∀ q ∈ s.packages, ¬p.Overlaps q) ∧
    (∀ p ∈ s.packages, ∀ q ∈ s.packages, p.Overlaps q →
      ∃ more, q.name = p.name ++ "-" ++ p.version.core ++ more) ∧
    ((∀ p ∈ s.packages, '.' ∉ p.name.toList) → printed.Nodup) := by
  intro printed
  obtain ⟨packages, hread, hschedule⟩ := exists_scheduleOf h
  have hsorted := readPackages_sorted hread
  rw [hschedule.packages_eq hsorted]
  have hsame : printed.Nodup ↔ ∀ p ∈ packages, ∀ q ∈ packages, p.release = q.release → p = q := by
    rw [hschedule.releases_perm.nodup_iff]
    exact List.nodup_map_iff_inj_on (nodup_names hsorted).of_map
  have hdistinct : printed.Nodup ↔ ∀ p ∈ packages, ∀ q ∈ packages, ¬p.Overlaps q := by
    rw [hsame]
    constructor
    · intro hinj p hp q hq hoverlap
      have heq := hinj p hp q hq (Package.release_eq_iff.mpr (.inr (.inl hoverlap)))
      exact hoverlap.name_ne (congrArg Package.name heq)
    · intro hnone p hp q hq heq
      rcases Package.release_eq_iff.mp heq with ⟨hname, -⟩ | hoverlap | hoverlap
      · exact eq_of_name_eq hsorted hp hq hname
      · exact absurd hoverlap (hnone p hp q hq)
      · exact absurd hoverlap (hnone q hq p hp)
  have hcore : ∀ p ∈ packages, ∀ q ∈ packages, p.Overlaps q →
      ∃ more, q.name = p.name ++ "-" ++ p.version.core ++ more := fun p hp q _ hoverlap =>
    hoverlap.exists_core (canonical_of_readPackages hread hp)
  refine ⟨hdistinct, hcore, fun hdots => hdistinct.mpr fun p hp q hq hoverlap => ?_⟩
  obtain ⟨more, hname⟩ := hcore p hp q hq hoverlap
  refine hdots q hq ?_
  rw [hname]
  simp [p.version.dot_mem_core]

/-- In the schedule of three crates without dots in their names no release is written like another
one. -/
theorem nodup_releases_threeCrates :
    let s : Schedule := ⟨[[threeCratesPackage "base" []], [threeCratesPackage "app" ["base"]]],
      [{ threeCratesPackage "tool" ["base"] with published := false }]⟩
    (discover threeCrates.source ⟨["repo"]⟩ {}).outcome = .ok s ∧
      (∀ p ∈ s.packages, '.' ∉ p.name.toList) ∧
      (s.releases.flatten ++ s.unpublishedReleases).Nodup := by
  intro s
  have h : (discover threeCrates.source ⟨["repo"]⟩ {}).outcome = .ok s := by
    decide +kernel
  have hdots : ∀ p ∈ s.packages, '.' ∉ p.name.toList := by
    intro p hp
    rw [Schedule.packages, List.mem_mergeSort] at hp
    revert p
    decide
  exact ⟨h, hdots, (nodup_releases_iff h).2.2 hdots⟩

/-- Two crates, of which one has a name that ends as the version of the other one starts. -/
def overlappingCrates : Files.Memory :=
  .ofFiles [
    (⟨["a", "Cargo.toml"]⟩, "[package]\nname = 'a'\nversion = '1.0.0-2.0.0'\n"),
    (⟨["b", "Cargo.toml"]⟩, "[package]\nname = 'a-1.0.0'\nversion = '2.0.0'\n")]

/-- A discovery may come to two releases that look the same. -/
theorem releases_overlappingCrates :
    ∃ s, (discover overlappingCrates.source .here {}).outcome = .ok s ∧
      s.releases = [["a-1.0.0-2.0.0", "a-1.0.0-2.0.0"]] ∧
      ¬(s.releases.flatten ++ s.unpublishedReleases).Nodup := by
  refine ⟨⟨[[⟨"a", ⟨1, 0, 0, "2.0.0", ""⟩, ⟨["a", "Cargo.toml"]⟩, [], true⟩,
    ⟨"a-1.0.0", ⟨2, 0, 0, "", ""⟩, ⟨["b", "Cargo.toml"]⟩, [], true⟩]], []⟩, ?_, ?_, ?_⟩
  · decide +kernel
  · decide
  · decide

end Discovery

end CrateGate
