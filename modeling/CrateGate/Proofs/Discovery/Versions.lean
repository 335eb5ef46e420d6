import CrateGate.Proofs.Discovery.Run

/-!
# The versions of a tree and its packages

A tree is read in two ways: for the versions of its packages, and for a schedule of them. Both begin
with the same packages. Since no name occurs twice among them, their versions never differ, so
loading the versions fails only where reading the packages does; and a schedule parts the packages
and puts them into layers without losing any, so that by name they are what was read
(`ScheduleOf.packages_eq`). Hence the versions that are loaded are those of the scheduled packages
(`loadVersions_agrees`).
-/

namespace CrateGate.Discovery

variable {source : Source} {location : Path} {settings : Settings} {packages : List Package}
  {versions : VersionMap} {s : Schedule} {fault : Fault}

/-! ## The versions of packages that are read -/

/-- Among packages in the order of their names only one has a name. -/
lemma eq_of_name_eq (hsorted : packages.Pairwise fun p q => p.name < q.name) {p q : Package}
    (hp : p ∈ packages) (hq : q ∈ packages) (hname : p.name = q.name) : p = q :=
  List.inj_on_of_nodup_map (nodup_names hsorted) hp hq hname

/-- The versions of packages in the order of their names never differ. -/
lemma exists_versions (hsorted : packages.Pairwise fun p q => p.name < q.name) :
    ∃ versions, VersionMap.build (packages.map declaration) = .ok versions := by
  refine VersionMap.exists_build_eq_ok ?_ ?_
  · intro pair hpair
    obtain ⟨p, -, rfl⟩ := List.mem_map.mp hpair
    exact ⟨p.version, rfl⟩
  · intro a declared later v w hdeclared hlater hv hw
    obtain ⟨p, hp, hpair⟩ := List.mem_map.mp hdeclared
    obtain ⟨q, hq, hpair'⟩ := List.mem_map.mp hlater
    obtain ⟨rfl, rfl⟩ := Prod.mk.inj hpair
    obtain ⟨hname, rfl⟩ := Prod.mk.inj hpair'
    obtain rfl := eq_of_name_eq hsorted hp hq hname.symm
    exact (Except.ok.inj hv).symm.trans (Except.ok.inj hw)

/-- The map of the versions of packages lists them as the packages are listed by name. -/
lemma VersionsOf.toList_eq (h : VersionsOf packages versions)
    (hsorted : packages.Pairwise fun p q => p.name < q.name) :
    versions.toList = packages.map fun p => (p.name, p.version) := by
  refine SortedMap.eq_of_mem_iff versions.ordered (List.pairwise_map.mpr hsorted) fun ⟨a, v⟩ => ?_
  rw [SortedMap.mem_toList_iff, h a v, List.mem_map]
  simp only [Prod.mk.injEq]

/-- Loading versions reads the packages and builds the map of what they declare; its notes change
nothing of that. -/
lemma outcome_loadVersions (source : Source) (location : Path) (settings : Settings) :
    (loadVersions source location settings).outcome =
      (readPackages source location settings).outcome.bind fun packages =>
        VersionMap.build (packages.map declaration) := by
  unfold loadVersions
  rw [Report.outcome_bind]
  rfl

/-- If the packages can be read, so can their versions. -/
lemma loadVersions_of_readPackages
    (h : (readPackages source location settings).outcome = .ok packages) :
    ∃ versions, VersionMap.build (packages.map declaration) = .ok versions ∧
      (loadVersions source location settings).outcome = .ok versions := by
  obtain ⟨versions, hbuild⟩ := exists_versions (readPackages_sorted h)
  refine ⟨versions, hbuild, ?_⟩
  rw [outcome_loadVersions, h]
  exact hbuild

/-- Loading the versions fails as reading the packages does, and only then. -/
lemma loadVersions_eq_error_iff :
    (loadVersions source location settings).outcome = .error fault ↔
      (readPackages source location settings).outcome = .error fault := by
  cases h : (readPackages source location settings).outcome with
  | error earlier => simp [outcome_loadVersions, h, Except.bind]
  | ok packages =>
    obtain ⟨versions, -, hload⟩ := loadVersions_of_readPackages h
    simp [hload]

/-! ## The packages of a schedule -/

/-- No package is lost in a schedule, and none is repeated. -/
lemma ScheduleOf.perm (h : ScheduleOf packages s) :
    (s.layers.flatten ++ s.unpublished).Perm packages := by
  rw [h.unpublished]
  exact (h.published.append_right _).trans (List.filter_append_perm _ _)

/-- By name, the packages of a schedule are those that it was made of. -/
lemma ScheduleOf.packages_eq (h : ScheduleOf packages s)
    (hsorted : packages.Pairwise fun p q => p.name < q.name) : s.packages = packages := by
  have hperm : s.packages.Perm packages := (List.mergeSort_perm _ _).trans h.perm
  have hpairwise : s.packages.Pairwise fun p q => decide (p.name ≤ q.name) := by
    refine List.pairwise_mergeSort ?_ ?_ _
    · intro p q r
      simpa using String.le_trans
    · intro p q
      simpa using String.le_total p.name q.name
  refine hperm.eq_of_pairwise ?_ (hpairwise.imp of_decide_eq_true) (hsorted.imp Std.le_of_lt)
  intro p q hp hq hpq hqp
  exact eq_of_name_eq hsorted (hperm.mem_iff.mp hp) hq (String.le_antisymm hpq hqp)

/-- The packages to be published and those that are kept are together as many as there are
packages. -/
lemma ScheduleOf.size_add_length (h : ScheduleOf packages s) :
    s.size + s.unpublished.length = packages.length := by
  rw [← h.perm.length_eq, List.length_append]
  rfl

/-- There is a schedule only where the packages can be read. -/
lemma exists_readPackages_eq_ok (h : (discover source location settings).outcome = .ok s) :
    ∃ packages, (readPackages source location settings).outcome = .ok packages := by
  unfold discover at h
  rw [Report.outcome_bind] at h
  obtain ⟨packages, hread, -⟩ := bind_eq_ok_iff.mp h
  exact ⟨packages, hread⟩

/-- What is scheduled are the packages that are read. -/
lemma exists_scheduleOf (h : (discover source location settings).outcome = .ok s) :
    ∃ packages, (readPackages source location settings).outcome = .ok packages ∧
      ScheduleOf packages s := by
  obtain ⟨packages, hread⟩ := exists_readPackages_eq_ok h
  obtain ⟨s', hdiscover, hs'⟩ := discover_of_schedulable hread (schedulable_of_discover hread h)
  obtain rfl := Except.ok.inj (h.symm.trans hdiscover)
  exact ⟨packages, hread, hs'⟩

/-! ## Both together -/

/-- **The two readings of a tree agree.** The versions can be loaded if and only if the packages can
be read, and otherwise the same is reported; in particular no two versions of one crate are found.
If there is a schedule, the versions are those of its packages, in the order of their names, and as
many as it has packages. -/
theorem loadVersions_agrees (source : Source) (location : Path) (settings : Settings) :
    let read := (readPackages source location settings).outcome
    let load := (loadVersions source location settings).outcome
    (∀ fault, load = .error fault ↔ read = .error fault) ∧
    (∀ packages, read = .ok packages →
      ∃ versions, VersionMap.build (packages.map declaration) = .ok versions ∧
        load = .ok versions) ∧
    ∀ s, (discover source location settings).outcome = .ok s →
      ∃ versions, load = .ok versions ∧
        versions.toList = s.packages.map (fun p => (p.name, p.version)) ∧
        versions.size = s.size + s.unpublished.length := by
  intro read load
  refine ⟨fun fault => loadVersions_eq_error_iff, fun packages => loadVersions_of_readPackages, ?_⟩
  intro s hdiscover
  obtain ⟨packages, hread, hs⟩ := exists_scheduleOf hdiscover
  have hsorted := readPackages_sorted hread
  obtain ⟨versions, hbuild, hload⟩ := loadVersions_of_readPackages hread
  have hlist := (versionsOf_of_build_eq_ok hbuild).toList_eq hsorted
  refine ⟨versions, hload, ?_, ?_⟩
  · rw [hs.packages_eq hsorted, hlist]
  · rw [hs.size_add_length, SortedMap.size, hlist, List.length_map]

/-- The versions of the three crates, and that they agree with the schedule of the same tree. -/
theorem loadVersions_threeCrates :
    let schedule : Schedule :=
      ⟨[[threeCratesPackage "base" []], [threeCratesPackage "app" ["base"]]],
        [{ threeCratesPackage "tool" ["base"] with published := false }]⟩
    (discover threeCrates.source ⟨["repo"]⟩ {}).outcome = .ok schedule ∧
      ∃ versions, (loadVersions threeCrates.source ⟨["repo"]⟩ {}).outcome = .ok versions ∧
        versions.toList = schedule.packages.map (fun p => (p.name, p.version)) ∧
        versions.size = 3 := by
  intro schedule
  have h : (discover threeCrates.source ⟨["repo"]⟩ {}).outcome = .ok schedule := by
    decide +kernel
  exact ⟨h, (loadVersions_agrees threeCrates.source ⟨["repo"]⟩ {}).2.2 schedule h⟩

end CrateGate.Discovery
