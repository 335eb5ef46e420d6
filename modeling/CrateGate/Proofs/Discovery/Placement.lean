import CrateGate.CommandLine.Run
import CrateGate.Proofs.Discovery.Selection
import CrateGate.Proofs.Discovery.Versions
import CrateGate.Proofs.Graph.Map
import CrateGate.Proofs.Manifest.Placement

/-!
# Trees whose manifests lie elsewhere

What is read of a tree is decided by the texts of its manifests, in whatever order they come:
whether they can be read, whether two of them declare one crate (`Coherent`), and which packages
there are, but for their places (`readPackages_of_texts_perm`). The order in which manifests are
found does not survive, since packages are ordered by name, and their places are not looked at by
the check and the layering. So trees with the same texts, placed in whatever way, have the same
versions and the same schedule in reports (`results_of_same_texts`).
-/

namespace CrateGate

open CrateGate.Graph

namespace Package

/-- Where a manifest lies makes no difference to what its package needs. -/
lemma keepsNeeds_placed (path : Path) : KeepsNeeds (Package.placed path) where
  name _ := rfl
  pinned _ := rfl

/-- Whether packages pass the check does not depend on where their manifests lie, though what is
reported does. -/
lemma check_placed_eq_ok_iff (path : Path) {packages : List Package} :
    Graph.check (packages.map (Package.placed path)) = .ok () ↔ Graph.check packages = .ok () :=
  check_map_eq_ok_iff (fun _ => rfl) (fun _ => rfl) (fun _ => rfl) fun _ => rfl

end Package

/-- The schedule with its packages at another place. -/
def Schedule.placed (path : Path) (s : Schedule) : Schedule where
  layers := s.layers.map (List.map (Package.placed path))
  unpublished := s.unpublished.map (Package.placed path)

/-- A report of a schedule does not say where its packages are. -/
lemma scheduleMembers_placed (path : Path) (s : Schedule) :
    CommandLine.scheduleMembers (s.placed path) = CommandLine.scheduleMembers s := by
  have hsize : (s.placed path).size = s.size := by
    rw [Schedule.size, Schedule.placed, ← List.map_flatten, List.length_map, Schedule.size]
  have hreleases : (s.placed path).releases = s.releases := by
    simp [Schedule.releases, Schedule.placed, Function.comp_def, Package.release, Package.placed]
  have hunpublished : (s.placed path).unpublishedReleases = s.unpublishedReleases := by
    simp [Schedule.unpublishedReleases, Schedule.placed, Function.comp_def, Package.release,
      Package.placed]
  rw [CommandLine.scheduleMembers, CommandLine.scheduleMembers, hsize, hreleases, hunpublished]

namespace Discovery

open Files

variable {m m' : Memory} {location location' : Path} {settings settings' : Settings}
  {packages packages' : List Package} {texts texts' : List String} {s : Schedule}
  {versions : VersionMap} {p : Package} {path : Path} {text : String}

/-! ## Texts of manifests -/

/-- The package that a text declares, at no place of its own. -/
def crateIn? (text : String) : Option Package :=
  match Manifest.parse text .here with
  | .ok found => found
  | .error _ => none

/-- Texts of manifests are coherent if each can be read and no two declare one crate. -/
structure Coherent (texts : List String) : Prop where
  readable : ∀ text ∈ texts, ∃ found, Manifest.parse text .here = .ok found
  distinct : ((texts.filterMap crateIn?).map (·.name)).Nodup

/-- Whether texts are coherent does not depend on their order. -/
lemma Coherent.perm (h : Coherent texts) (hperm : texts.Perm texts') : Coherent texts' where
  readable text htext := h.readable text (hperm.mem_iff.mpr htext)
  distinct := ((hperm.filterMap crateIn?).map _).nodup_iff.mp h.distinct

/-- The package of a manifest is that of its text, at the place of the manifest. -/
lemma declared?_placed (hget : m.get? path = some text) :
    (declared? m.source path).map (Package.placed .here) = crateIn? text := by
  rw [declared?, readManifest_memory hget, crateIn?]
  cases hparse : Manifest.parse text path with
  | ok found => rw [Manifest.parse_placed hparse .here]
  | error fault =>
    cases hhere : Manifest.parse text .here with
    | error fault' => rfl
    | ok found =>
      rw [Manifest.parse_placed hhere path] at hparse
      cases hparse

/-- The packages of a tree are those of its texts, but for their places. -/
lemma declaredBy_placed (h : m.IsDirectory location) (name : Text) (excluded : List Text) :
    (declaredBy m.source ((m.selection location name excluded).map (·.1))).map
        (Package.placed .here) =
      (m.selectedTexts location name excluded).filterMap crateIn? := by
  unfold declaredBy Memory.selectedTexts
  rw [List.map_filterMap, List.filterMap_map, List.filterMap_map]
  refine List.filterMap_congr fun file hfile => ?_
  exact declared?_placed ((Memory.mem_selection h).mp hfile).1

/-- The manifests of a tree are consistent if and only if their texts are coherent. -/
lemma consistent_iff_coherent (h : m.IsDirectory location) (name : Text)
    (excluded : List Text) :
    Consistent m.source ((m.selection location name excluded).map (·.1)) ↔
      Coherent (m.selectedTexts location name excluded) := by
  have hreadable : (∀ path ∈ (m.selection location name excluded).map (·.1),
        ∃ found, readManifest m.source path = .ok found) ↔
      ∀ text ∈ m.selectedTexts location name excluded,
        ∃ found, Manifest.parse text .here = .ok found := by
    unfold Memory.selectedTexts
    rw [List.forall_mem_map, List.forall_mem_map]
    refine forall₂_congr fun file hfile => ?_
    rw [readManifest_memory ((Memory.mem_selection h).mp hfile).1]
    exact ⟨fun ⟨_, hread⟩ => ⟨_, Manifest.parse_placed hread _⟩,
      fun ⟨_, hread⟩ => ⟨_, Manifest.parse_placed hread _⟩⟩
  have hnames : (declaredBy m.source ((m.selection location name excluded).map (·.1))).map
        (·.name) = ((m.selectedTexts location name excluded).filterMap crateIn?).map (·.name) := by
    rw [← declaredBy_placed h, List.map_map]
    rfl
  constructor
  · rintro ⟨readable, distinct⟩
    exact ⟨hreadable.mp readable, hnames ▸ distinct⟩
  · rintro ⟨readable, distinct⟩
    exact ⟨hreadable.mpr readable, hnames ▸ distinct⟩

/-! ## Packages -/

/-- **Where the texts are the same, so are the packages**, but for their places. -/
lemma readPackages_of_texts_perm (h : m.IsDirectory location) (h' : m'.IsDirectory location')
    (htexts : (m.selectedTexts location settings.manifestName settings.excludedDirs).Perm
      (m'.selectedTexts location' settings'.manifestName settings'.excludedDirs))
    (hread : (readPackages m.source location settings).outcome = .ok packages) :
    ∃ packages', (readPackages m'.source location' settings').outcome = .ok packages' ∧
      packages'.map (Package.placed .here) = packages.map (Package.placed .here) := by
  obtain ⟨paths, hfind, hconsistent, hperm⟩ := exists_consistent_of_readPackages hread
  rw [findManifests_of_isDirectory h] at hfind
  obtain rfl := Except.ok.inj hfind
  have hcoherent := ((consistent_iff_coherent h _ _).mp hconsistent).perm htexts
  obtain ⟨packages', hread', hperm'⟩ := readPackages_of_consistent
    (findManifests_of_isDirectory h' settings') ((consistent_iff_coherent h' _ _).mpr hcoherent)
  refine ⟨packages', hread', ?_⟩
  -- both lists hold the packages of the texts, and both are in the order of the names
  have hsame :
      (packages'.map (Package.placed .here)).Perm (packages.map (Package.placed .here)) := by
    refine (hperm'.map _).trans (.trans ?_ (hperm.map _).symm)
    rw [declaredBy_placed h, declaredBy_placed h']
    exact (htexts.filterMap crateIn?).symm
  have hsorted {packages : List Package} (h : packages.Pairwise fun p q => p.name < q.name) :
      (packages.map (Package.placed .here)).Pairwise fun p q => p.name < q.name :=
    List.pairwise_map.mpr h
  refine hsame.eq_of_pairwise (fun p q _ _ hpq hqp => ?_) (hsorted (readPackages_sorted hread'))
    (hsorted (readPackages_sorted hread))
  exact absurd (String.lt_trans hpq hqp) (String.lt_irrefl _)

/-- The versions of packages do not depend on their places. -/
lemma map_declaration_placed (packages : List Package) :
    (packages.map (Package.placed .here)).map declaration = packages.map declaration := by
  rw [List.map_map]
  rfl

/-! ## Schedules -/

/-- **Where the packages are the same but for their places, so is the schedule.** -/
lemma discover_of_placed_eq
    (hread : (readPackages m.source location settings).outcome = .ok packages)
    (hread' : (readPackages m'.source location' settings').outcome = .ok packages')
    (hsame : packages'.map (Package.placed .here) = packages.map (Package.placed .here))
    (hdiscover : (discover m.source location settings).outcome = .ok s) :
    ∃ s', (discover m'.source location' settings').outcome = .ok s' ∧
      s'.placed .here = s.placed .here := by
  obtain ⟨hne, hcheck, layers, hlayers, rfl⟩ := (discover_eq_ok_iff hread).mp hdiscover
  have hfilter (flag : Package → Bool) (hflag : ∀ p, flag (p.placed .here) = flag p) :
      (packages'.filter flag).map (Package.placed .here) =
        (packages.filter flag).map (Package.placed .here) := by
    have hplaced (packages : List Package) : (packages.filter flag).map (Package.placed .here) =
        (packages.map (Package.placed .here)).filter flag := by
      rw [List.filter_map]
      congr 2
      exact funext fun p => (hflag p).symm
    rw [hplaced, hplaced, hsame]
  have hcheck' : Graph.check packages' = .ok () := by
    rw [← Package.check_placed_eq_ok_iff .here] at hcheck ⊢
    rwa [hsame]
  have hlayers' := layers_map (Package.keepsNeeds_placed .here) (packages'.filter (·.published))
  rw [hfilter _ fun _ => rfl, layers_map (Package.keepsNeeds_placed .here), hlayers] at hlayers'
  cases hfound : Graph.layers (packages'.filter (·.published)) with
  | error fault =>
    rw [hfound] at hlayers'
    cases hlayers'
  | ok layers' =>
    rw [hfound] at hlayers'
    have hne' : packages' ≠ [] := by
      rintro rfl
      exact hne (List.map_eq_nil_iff.mp hsame.symm)
    refine ⟨_, (discover_eq_ok_iff hread').mpr ⟨hne', hcheck', layers', hfound, rfl⟩, ?_⟩
    simp only [Schedule.placed, hfilter (fun p => !p.published) fun _ => rfl]
    rw [Except.ok.inj hlayers']

/-! ## Both trees -/

/-- A schedule of one tree is one of every tree with the same texts. -/
lemma discover_of_texts_perm (h : m.IsDirectory location) (h' : m'.IsDirectory location')
    (htexts : (m.selectedTexts location settings.manifestName settings.excludedDirs).Perm
      (m'.selectedTexts location' settings'.manifestName settings'.excludedDirs))
    (hdiscover : (discover m.source location settings).outcome = .ok s) :
    ∃ s', (discover m'.source location' settings').outcome = .ok s' ∧
      CommandLine.scheduleMembers s' = CommandLine.scheduleMembers s := by
  obtain ⟨packages, hread⟩ := exists_readPackages_eq_ok hdiscover
  obtain ⟨packages', hread', hsame⟩ := readPackages_of_texts_perm h h' htexts hread
  obtain ⟨s', hdiscover', hplaced⟩ := discover_of_placed_eq hread hread' hsame hdiscover
  refine ⟨s', hdiscover', ?_⟩
  rw [← scheduleMembers_placed .here s', hplaced, scheduleMembers_placed]

/-- The versions of one tree are those of every tree with the same texts. -/
lemma loadVersions_of_texts_perm (h : m.IsDirectory location) (h' : m'.IsDirectory location')
    (htexts : (m.selectedTexts location settings.manifestName settings.excludedDirs).Perm
      (m'.selectedTexts location' settings'.manifestName settings'.excludedDirs))
    (hload : (loadVersions m.source location settings).outcome = .ok versions) :
    (loadVersions m'.source location' settings').outcome = .ok versions := by
  rw [outcome_loadVersions] at hload
  obtain ⟨packages, hread, hbuild⟩ := bind_eq_ok_iff.mp hload
  obtain ⟨packages', hread', hsame⟩ := readPackages_of_texts_perm h h' htexts hread
  rw [outcome_loadVersions, bind_eq_ok_iff]
  refine ⟨packages', hread', ?_⟩
  rwa [← map_declaration_placed, hsame, map_declaration_placed]

/-- **It makes no difference where manifests lie.** If two trees have directories at two locations,
and the same texts in what is selected there, as often and in whatever order, a schedule can be made
of both or of neither, and in a report the two are the same: the same layers of releases, the same
releases that are not to be published, and the same count. Likewise both have the same versions, or
neither has any. -/
theorem results_of_same_texts (h : m.IsDirectory location) (h' : m'.IsDirectory location')
    (htexts : (m.selectedTexts location settings.manifestName settings.excludedDirs).Perm
      (m'.selectedTexts location' settings'.manifestName settings'.excludedDirs)) :
    let discovered := (discover m.source location settings).outcome
    let discovered' := (discover m'.source location' settings').outcome
    let loaded := (loadVersions m.source location settings).outcome
    let loaded' := (loadVersions m'.source location' settings').outcome
    ((∃ s, discovered = .ok s) ↔ ∃ s, discovered' = .ok s) ∧
    (∀ s s', discovered = .ok s → discovered' = .ok s' →
      CommandLine.scheduleMembers s = CommandLine.scheduleMembers s') ∧
    ((∃ versions, loaded = .ok versions) ↔ ∃ versions, loaded' = .ok versions) ∧
    ∀ versions versions', loaded = .ok versions → loaded' = .ok versions' →
      versions = versions' := by
  intro discovered discovered' loaded loaded'
  refine ⟨⟨?_, ?_⟩, fun s s' hs hs' => ?_, ⟨?_, ?_⟩, fun versions versions' hload hload' => ?_⟩
  · rintro ⟨s, hs⟩
    obtain ⟨s', hs', -⟩ := discover_of_texts_perm h h' htexts hs
    exact ⟨s', hs'⟩
  · rintro ⟨s, hs⟩
    obtain ⟨s', hs', -⟩ := discover_of_texts_perm h' h htexts.symm hs
    exact ⟨s', hs'⟩
  · obtain ⟨t, ht, hmembers⟩ := discover_of_texts_perm h h' htexts hs
    obtain rfl := Except.ok.inj (hs'.symm.trans ht)
    exact hmembers.symm
  · rintro ⟨versions, hload⟩
    exact ⟨versions, loadVersions_of_texts_perm h h' htexts hload⟩
  · rintro ⟨versions, hload⟩
    exact ⟨versions, loadVersions_of_texts_perm h' h htexts.symm hload⟩
  · exact Except.ok.inj ((loadVersions_of_texts_perm h h' htexts hload).symm.trans hload')

/-- The manifests of the tree of three crates in other directories, in another order, and under
another name. -/
def movedCrates : Memory :=
  .ofFiles ((threeCrates.toList.zip ["z", "a", "m"]).map fun (file, folder) =>
    (⟨[folder, "Crate.toml"]⟩, file.2))

/-- The settings for that tree. -/
def movedSettings : Settings where
  manifestName := "Crate.toml"
  excludedDirs := ["repo"]

/-- The three crates are scheduled alike in either place, though directories, names of manifests and
the order of the files all differ. -/
theorem results_movedCrates :
    let app := threeCratesPackage "app" ["base"]
    let base := threeCratesPackage "base" []
    let tool := { threeCratesPackage "tool" ["base"] with published := false }
    let settings : Settings := {}
    threeCrates.IsDirectory ⟨["repo"]⟩ ∧ movedCrates.IsDirectory .here ∧
      (threeCrates.selectedTexts ⟨["repo"]⟩ settings.manifestName settings.excludedDirs).Perm
        (movedCrates.selectedTexts .here movedSettings.manifestName movedSettings.excludedDirs) ∧
      (discover threeCrates.source ⟨["repo"]⟩ settings).outcome = .ok ⟨[[base], [app]], [tool]⟩ ∧
      ∃ s, (discover movedCrates.source .here movedSettings).outcome = .ok s ∧
        CommandLine.scheduleMembers ⟨[[base], [app]], [tool]⟩ = CommandLine.scheduleMembers s := by
  intro app base tool settings
  have h : threeCrates.IsDirectory ⟨["repo"]⟩ :=
    ⟨rfl, ⟨["repo", "app", "Cargo.toml"]⟩, _, ["app", "Cargo.toml"], rfl, rfl, by decide⟩
  have h' : movedCrates.IsDirectory .here :=
    ⟨rfl, ⟨["z", "Crate.toml"]⟩, _, ["z", "Crate.toml"], rfl, rfl, by decide⟩
  have htexts :
      (threeCrates.selectedTexts ⟨["repo"]⟩ settings.manifestName settings.excludedDirs).Perm
        (movedCrates.selectedTexts .here movedSettings.manifestName movedSettings.excludedDirs) := by
    decide +kernel
  have hdiscover : (discover threeCrates.source ⟨["repo"]⟩ settings).outcome =
      .ok ⟨[[base], [app]], [tool]⟩ := by decide +kernel
  obtain ⟨hboth, hmembers, -⟩ := results_of_same_texts h h' htexts
  obtain ⟨s, hs⟩ := hboth.mp ⟨_, hdiscover⟩
  exact ⟨h, h', htexts, hdiscover, s, hs, hmembers _ _ hdiscover hs⟩

end Discovery

end CrateGate
