import CrateGate.Discovery.Run
import CrateGate.Files.Memory
import CrateGate.Proofs.Discovery.Read
import CrateGate.Proofs.Graph.Cycle
import CrateGate.Proofs.Graph.Pins
import CrateGate.Proofs.VersionMap

/-!
# What a discovery ends in

The layering looks at the packages to be published alone and passes over pins that lead elsewhere.
The check of the pins makes that harmless: after it, what a package to be published pins is to be
published too.

* `loadVersions_eq_ok`: the versions are those of the packages.
* `layers_below`: in the layers of checked packages every pin leads to an earlier layer.
* `Schedulable`, `ScheduleOf`: when there is a schedule, and what it holds.
-/

namespace CrateGate

open CrateGate.Graph

namespace Discovery

variable {source : Source} {location : Path} {settings : Settings} {packages : List Package}
  {layers : List (List Package)} {s : Schedule}

/-! ## The versions of the packages -/

/-- The map of the versions that packages have. -/
def VersionsOf (packages : List Package) (versions : VersionMap) : Prop :=
  ∀ a v, versions.get? a = some v ↔ ∃ p ∈ packages, p.name = a ∧ p.version = v

/-- A map that is built of what packages declare has their versions, and no others. -/
lemma versionsOf_of_build_eq_ok {versions : VersionMap}
    (h : VersionMap.build (packages.map declaration) = .ok versions) :
    VersionsOf packages versions := by
  intro a v
  rw [VersionMap.get?_of_build_eq_ok h]
  constructor
  · rintro ⟨declared, hmem, hread⟩
    obtain ⟨p, hp, heq⟩ := List.mem_map.mp hmem
    obtain ⟨rfl, rfl⟩ := Prod.mk.inj heq
    exact ⟨p, hp, rfl, Except.ok.inj hread⟩
  · rintro ⟨p, hp, rfl, rfl⟩
    exact ⟨.version p.version, List.mem_map_of_mem hp, rfl⟩

/-- The versions that are loaded are those of the packages that are read. -/
lemma loadVersions_eq_ok {versions : VersionMap}
    (h : (loadVersions source location settings).outcome = .ok versions) :
    ∃ packages, (readPackages source location settings).outcome = .ok packages ∧
      VersionsOf packages versions := by
  unfold loadVersions at h
  rw [Report.outcome_bind] at h
  obtain ⟨packages, hread, hbuild⟩ := bind_eq_ok_iff.mp h
  exact ⟨packages, hread, versionsOf_of_build_eq_ok hbuild⟩

/-- A check before the change passes if and only if the versions can be loaded and are aligned. -/
lemma checkBefore_eq_ok_iff {versions : VersionMap} :
    (checkBefore source location settings).outcome = .ok versions ↔
      (loadVersions source location settings).outcome = .ok versions ∧
        Alignment.check versions = .ok () := by
  unfold checkBefore Alignment.report
  simp only [Report.outcome_bind, bind_eq_ok_iff, Report.outcome_note,
    Report.outcome_ofExcept, Report.outcome_pure]
  constructor
  · rintro ⟨loaded, hload, ⟨⟩, ⟨⟨⟩, -, haligned⟩, heq⟩
    obtain rfl := Except.ok.inj heq
    exact ⟨hload, haligned⟩
  · rintro ⟨hload, haligned⟩
    exact ⟨versions, hload, (), ⟨(), trivial, haligned⟩, rfl⟩

/-- A check after the change ends as the discovery does. -/
lemma outcome_checkAfter (source : Source) (location : Path) (settings : Settings) :
    (checkAfter source location settings).outcome = (discover source location settings).outcome :=
  Report.outcome_bind _ _

/-! ## The layers of checked packages -/

/-- Every pin of a package in a layer leads to a package in an earlier layer, at the version it
asks for. -/
def PinsBelow (layers : List (List Package)) : Prop :=
  ∀ (i : Nat) (layer : List Package), layers[i]? = some layer → ∀ p ∈ layer, ∀ pin ∈ p.pins,
    ∃ j < i, ∃ lower : List Package, layers[j]? = some lower ∧
      ∃ q ∈ lower, pin.label = .crate q.name ∧ pin.version = q.version

/-- If no two packages have one name, no two of those to be published do. -/
lemma nodup_published (hnodup : (packages.map (·.name)).Nodup) :
    ((packages.filter (·.published)).map (·.name)).Nodup :=
  hnodup.sublist (List.filter_sublist.map _)

/-- What a package to be published pins is a package to be published, if the pins are in order. -/
lemma exists_published_of_pin (hresolved : Resolved packages) (hapart : PublishedApart packages)
    {p : Package} (hp : p ∈ packages.filter (·.published)) {pin : Pin} (hpin : pin ∈ p.pins) :
    ∃ q ∈ packages.filter (·.published), pin.label = .crate q.name ∧ pin.version = q.version := by
  obtain ⟨hp, hpublished⟩ := List.mem_filter.mp hp
  obtain ⟨q, hq, hlabel, hversion⟩ := hresolved p hp pin hpin
  have hq' := hapart p hp hpublished pin hpin q hq hlabel
  exact ⟨q, List.mem_filter.mpr ⟨hq, hq'⟩, hlabel, hversion⟩

/-- **No pin is lost**: in the layers of packages whose pins are in order every pin leads to an
earlier layer. -/
lemma layers_below (hnodup : (packages.map (·.name)).Nodup) (hresolved : Resolved packages)
    (hapart : PublishedApart packages)
    (h : Layering (packages.filter (·.published)) layers) : PinsBelow layers := by
  intro i layer hlayer p hp pin hpin
  obtain ⟨hlast, hplaced⟩ := (h.mem_layer_iff hlayer).mp hp
  obtain ⟨q, hq, hlabel, hversion⟩ := exists_published_of_pin hresolved hapart hlast.mem hpin
  have hlast' := (isLast_iff_mem (nodup_published hnodup)).mpr hq
  have hneeds : Needs (packages.filter (·.published)) p.name q.name :=
    ⟨⟨p, hlast, rfl, pin, hpin, hlabel⟩, q, hq, rfl⟩
  obtain ⟨j, hplaced'⟩ := h.exists_placedAt hneeds.2
  have hlt : j < i := h.before i j _ _ hneeds hplaced hplaced'
  obtain ⟨lower, hlower, -⟩ := id hplaced'
  exact ⟨j, hlt, lower, hlower, q, (h.mem_layer_iff hlower).mpr ⟨hlast', hplaced'⟩, hlabel,
    hversion⟩

/-- The layers hold every package once, if no name occurs twice. -/
lemma layers_perm (hnodup : (packages.map (·.name)).Nodup) (h : Layering packages layers) :
    layers.flatten.Perm packages := by
  rw [List.perm_ext_iff_of_nodup h.once.of_map hnodup.of_map]
  intro p
  rw [h.members, isLast_iff_mem hnodup]

/-! ## Schedules -/

/-- A list of packages that can be scheduled. -/
structure Schedulable (packages : List Package) : Prop where
  /-- There is a package. -/
  nonempty : packages ≠ []
  /-- Every pin is on a package of the list, at the version that package has. -/
  resolved : Resolved packages
  /-- No package to be published pins one that is not. -/
  apart : PublishedApart packages
  /-- Among the packages to be published none needs itself, be it through others. -/
  acyclic : Acyclic (packages.filter (·.published))

/-- A schedule of a list of packages. -/
structure ScheduleOf (packages : List Package) (s : Schedule) : Prop where
  /-- The packages that are not to be published are set apart. -/
  unpublished : s.unpublished = packages.filter fun p => !p.published
  /-- They are in the order of their names. -/
  byName : s.unpublished.Pairwise fun p q => p.name < q.name
  /-- The layers hold the packages to be published. -/
  published : s.layers.flatten.Perm (packages.filter (·.published))
  /-- They hold none of them twice. -/
  once : s.layers.flatten.Nodup
  /-- Every pin of a package in a layer is on a package in an earlier one, at its version. -/
  below : PinsBelow s.layers

/-- If the packages to be published have layers, these and the packages that are kept make a
schedule of all of them. -/
lemma scheduleOf_of_layers_eq_ok (hsorted : packages.Pairwise fun p q => p.name < q.name)
    (hresolved : Resolved packages) (hapart : PublishedApart packages)
    (h : Graph.layers (packages.filter (·.published)) = .ok layers) :
    ScheduleOf packages ⟨layers, packages.filter fun p => !p.published⟩ := by
  have hnodup := nodup_names hsorted
  have hlayering := layering_of_eq_ok h
  exact {
    unpublished := rfl
    byName := hsorted.sublist List.filter_sublist
    published := layers_perm (nodup_published hnodup) hlayering
    once := hlayering.once.of_map
    below := layers_below hnodup hresolved hapart hlayering }

/-! ## Discoveries -/

/-- Without packages there is nothing to discover. -/
lemma outcome_discover_of_eq_nil
    (h : (readPackages source location settings).outcome = .ok packages) (hempty : packages = []) :
    (discover source location settings).outcome =
      .error (.discovery (.noPackages settings.manifestName location)) := by
  unfold discover
  rw [Report.outcome_bind, h, hempty]
  rfl

/-- With packages a discovery is the check of their pins, and then the layering of those to be
published. -/
lemma outcome_discover_of_ne_nil
    (h : (readPackages source location settings).outcome = .ok packages) (hne : packages ≠ []) :
    (discover source location settings).outcome =
      (Graph.check packages).bind fun _ =>
        (Graph.layers (packages.filter (·.published))).map fun layers =>
          ⟨layers, packages.filter fun p => !p.published⟩ := by
  unfold discover schedule
  rw [Report.outcome_bind, h]
  simp only [Except.bind, List.isEmpty_iff, if_neg hne, Report.outcome_bind,
    Report.outcome_ofExcept, Report.outcome_note, Report.outcome_pure]
  cases Graph.check packages with
  | error fault => rfl
  | ok => cases Graph.layers (packages.filter (·.published)) <;> rfl

/-- A discovery comes to a schedule where there are packages, their pins are in order, and those to
be published can be put into layers. -/
lemma discover_eq_ok_iff (h : (readPackages source location settings).outcome = .ok packages) :
    (discover source location settings).outcome = .ok s ↔
      packages ≠ [] ∧ Graph.check packages = .ok () ∧
        ∃ layers, Graph.layers (packages.filter (·.published)) = .ok layers ∧
          s = ⟨layers, packages.filter fun p => !p.published⟩ := by
  by_cases hne : packages = []
  · rw [outcome_discover_of_eq_nil h hne]
    simp [hne]
  · rw [outcome_discover_of_ne_nil h hne, bind_eq_ok_iff]
    constructor
    · rintro ⟨⟨⟩, hcheck, hlayers⟩
      cases hfound : Graph.layers (packages.filter (·.published)) with
      | error fault =>
        rw [hfound] at hlayers
        cases hlayers
      | ok layers =>
        rw [hfound] at hlayers
        exact ⟨hne, hcheck, layers, rfl, (Except.ok.inj hlayers).symm⟩
    · rintro ⟨-, hcheck, layers, hlayers, rfl⟩
      exact ⟨(), hcheck, by rw [hlayers]; rfl⟩

/-- Packages that can be scheduled are. -/
lemma discover_of_schedulable
    (h : (readPackages source location settings).outcome = .ok packages)
    (hschedulable : Schedulable packages) :
    ∃ s, (discover source location settings).outcome = .ok s ∧ ScheduleOf packages s := by
  obtain ⟨hne, hresolved, hapart, hacyclic⟩ := hschedulable
  have hsorted := readPackages_sorted h
  have hcheck := (check_eq_ok_iff_resolved (nodup_names hsorted)).mpr ⟨hresolved, hapart⟩
  rcases layers_cases (packages.filter (·.published)) with ⟨-, layers, hlayers⟩ | ⟨hcycle, -⟩
  · exact ⟨_, (discover_eq_ok_iff h).mpr ⟨hne, hcheck, layers, hlayers, rfl⟩,
      scheduleOf_of_layers_eq_ok hsorted hresolved hapart hlayers⟩
  · exact absurd hacyclic hcycle

/-- Where there is no package, that is reported. -/
lemma discover_of_empty (h : (readPackages source location settings).outcome = .ok packages)
    (hempty : packages = []) :
    ∃ problem, (discover source location settings).outcome = .error (.discovery problem) ∧
      problem.code = "NO_PACKAGES" := by
  exact ⟨_, outcome_discover_of_eq_nil h hempty, rfl⟩

/-- If the pins are not in order, what the check finds is reported. -/
lemma discover_of_flaw (h : (readPackages source location settings).outcome = .ok packages)
    (hne : packages ≠ []) (hpins : ¬(Resolved packages ∧ PublishedApart packages)) :
    ∃ problem, (discover source location settings).outcome = .error (.discovery problem) ∧
      Graph.check packages = .error (.discovery problem) := by
  rw [← check_eq_ok_iff_resolved (nodup_names (readPackages_sorted h))] at hpins
  obtain ⟨problem, herror⟩ := (check_cases packages).resolve_left hpins
  refine ⟨problem, ?_, herror⟩
  rw [outcome_discover_of_ne_nil h hne, herror]
  rfl

/-- If the pins are in order but go round in a circle, that is reported. -/
lemma discover_of_cycle (h : (readPackages source location settings).outcome = .ok packages)
    (hne : packages ≠ []) (hpins : Resolved packages ∧ PublishedApart packages)
    (hcycle : ¬Acyclic (packages.filter (·.published))) :
    ∃ problem, (discover source location settings).outcome = .error (.discovery problem) ∧
      problem.code = "DEPENDENCY_CYCLE" := by
  have hcheck := (check_eq_ok_iff_resolved (nodup_names (readPackages_sorted h))).mpr hpins
  rcases layers_cases (packages.filter (·.published)) with
    ⟨hacyclic, -⟩ | ⟨-, problem, walk, hlayers, hreport⟩
  · exact absurd hacyclic hcycle
  · refine ⟨problem, ?_, hreport.code⟩
    rw [outcome_discover_of_ne_nil h hne, hcheck, hlayers]
    rfl

/-- Only packages that can be scheduled are: each thing that is missing is reported. -/
lemma schedulable_of_discover (h : (readPackages source location settings).outcome = .ok packages)
    (hok : (discover source location settings).outcome = .ok s) : Schedulable packages := by
  have hno {P : Problem → Prop} : ¬∃ problem,
      (discover source location settings).outcome = .error (.discovery problem) ∧ P problem := by
    rintro ⟨problem, herror, -⟩
    rw [hok] at herror
    cases herror
  have hne : packages ≠ [] := fun hempty => hno (discover_of_empty h hempty)
  have hpins : Resolved packages ∧ PublishedApart packages := by
    by_contra hpins
    exact hno (discover_of_flaw h hne hpins)
  refine ⟨hne, hpins.1, hpins.2, ?_⟩
  by_contra hcycle
  exact hno (discover_of_cycle h hne hpins hcycle)

/-- **When there is a schedule, what it holds, and what is reported otherwise.** -/
theorem discover_outcome (h : (readPackages source location settings).outcome = .ok packages) :
    let outcome := (discover source location settings).outcome
    ((∃ s, outcome = .ok s) ↔ Schedulable packages) ∧
    (∀ s, outcome = .ok s → ScheduleOf packages s) ∧
    (packages = [] → ∃ problem, outcome = .error (.discovery problem) ∧
      problem.code = "NO_PACKAGES") ∧
    (packages ≠ [] → ¬(Resolved packages ∧ PublishedApart packages) →
      ∃ problem, outcome = .error (.discovery problem) ∧
        Graph.check packages = .error (.discovery problem)) ∧
    (packages ≠ [] → Resolved packages ∧ PublishedApart packages →
      ¬Acyclic (packages.filter (·.published)) →
      ∃ problem, outcome = .error (.discovery problem) ∧ problem.code = "DEPENDENCY_CYCLE") := by
  intro outcome
  refine ⟨⟨?_, ?_⟩, ?_, discover_of_empty h, discover_of_flaw h, discover_of_cycle h⟩
  · rintro ⟨s, hok⟩
    exact schedulable_of_discover h hok
  · intro hschedulable
    obtain ⟨s, hok, -⟩ := discover_of_schedulable h hschedulable
    exact ⟨s, hok⟩
  · intro s hok
    obtain ⟨s', hok', hs'⟩ := discover_of_schedulable h (schedulable_of_discover h hok)
    obtain rfl := Except.ok.inj (hok.symm.trans hok')
    exact hs'

/-- A tree of three crates: the second one is pinned by both others, and the third is not to be
published. -/
def threeCrates : Files.Memory :=
  .ofFiles [
    (⟨["repo", "app", "Cargo.toml"]⟩,
      "[package]\nname = 'app'\nversion = '1.0.0'\n[dependencies]\n" ++
        "base.path = '../base'\nbase.version = '=1.0.0'\n"),
    (⟨["repo", "base", "Cargo.toml"]⟩, "[package]\nname = 'base'\nversion = '1.0.0'\n"),
    (⟨["repo", "tool", "Cargo.toml"]⟩,
      "[package]\nname = 'tool'\nversion = '1.0.0'\npublish = false\n[dependencies]\n" ++
        "base.path = '../base'\nbase.version = '1.0.0'\n")]

/-- A package of that tree. -/
def threeCratesPackage (name : String) (pins : List String) : Package :=
  { simple name pins with manifest := ⟨["repo", name, "Cargo.toml"]⟩ }

/-- The three crates can be scheduled: the one that the others need comes first, and the one that is
not to be published is kept apart. -/
theorem discover_threeCrates :
    let app := threeCratesPackage "app" ["base"]
    let base := threeCratesPackage "base" []
    let tool := { threeCratesPackage "tool" ["base"] with published := false }
    (readPackages threeCrates.source ⟨["repo"]⟩ {}).outcome = .ok [app, base, tool] ∧
      Schedulable [app, base, tool] ∧ ScheduleOf [app, base, tool] ⟨[[base], [app]], [tool]⟩ := by
  intro app base tool
  have h : (readPackages threeCrates.source ⟨["repo"]⟩ {}).outcome = .ok [app, base, tool] := by
    decide +kernel
  have hok : (discover threeCrates.source ⟨["repo"]⟩ {}).outcome =
      .ok ⟨[[base], [app]], [tool]⟩ := by
    rw [outcome_discover_of_ne_nil h (List.cons_ne_nil _ _)]
    decide +kernel
  exact ⟨h, (discover_outcome h).1.mp ⟨_, hok⟩, (discover_outcome h).2.1 _ hok⟩

end Discovery

end CrateGate
