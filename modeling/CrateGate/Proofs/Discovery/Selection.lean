import CrateGate.Discovery.Run
import CrateGate.Proofs.Discovery.Manifests
import CrateGate.Proofs.Files.Memory

/-!
# What a reading of a tree depends on

Everything that is read of a tree in memory begins with the selected manifests and their texts, so
trees that agree on those leave the same behind: the same notes, and the same result or the same
fault (`readings_of_same_selection`). Files elsewhere can come and go: those outside the location,
those of another name, and those inside an excluded directory (`Unselected`).
-/

namespace CrateGate.Discovery

open Files

variable {source source' : Source} {m m' : Memory} {location p : Path} {settings : Settings}
  {text : String} {name : Text} {excluded : List Text}

/-! ## Readings -/

/-- Two sources of which every reading leaves the same behind: that of the packages, that of their
versions, and the discovery of a schedule. -/
structure SameReadings (source source' : Source) (location : Path) (settings : Settings) :
    Prop where
  packages : readPackages source location settings = readPackages source' location settings
  versions : loadVersions source location settings = loadVersions source' location settings
  schedule : discover source location settings = discover source' location settings

/-- All readings begin with that of the packages. -/
lemma SameReadings.of_readPackages
    (h : readPackages source location settings = readPackages source' location settings) :
    SameReadings source source' location settings where
  packages := h
  versions := by rw [loadVersions, loadVersions, h]
  schedule := by rw [discover, discover, h]

/-! ## Trees in memory -/

/-- Below a directory in memory the manifests found are those of the selection, in its order. -/
lemma findManifests_of_isDirectory (h : m.IsDirectory location) (settings : Settings) :
    findManifests m.source location settings =
      .ok ((m.selection location settings.manifestName settings.excludedDirs).map (·.1)) := by
  rw [findManifests_memory, Memory.find_of_isDirectory h]

/-- Two trees with the same selected files make no difference to a reading. -/
lemma sameReadings_of_selection_eq (h : m.IsDirectory location) (h' : m'.IsDirectory location)
    (hsame : m.selection location settings.manifestName settings.excludedDirs =
      m'.selection location settings.manifestName settings.excludedDirs) :
    SameReadings m.source m'.source location settings := by
  refine .of_readPackages (readPackages_congr ?_ fun paths hfind p hp => ?_)
  · rw [findManifests_of_isDirectory h, findManifests_of_isDirectory h', hsame]
  · rw [findManifests_of_isDirectory h] at hfind
    obtain rfl := Except.ok.inj hfind
    obtain ⟨⟨p, text⟩, hfile, rfl⟩ := List.mem_map.mp hp
    have hget := ((Memory.mem_selection h).mp hfile).1
    have hget' := ((Memory.mem_selection h').mp (hsame ▸ hfile)).1
    rw [readManifest_memory hget, readManifest_memory hget']

/-- A file that is not selected: it is outside the location, has another name, or lies inside an
excluded directory below the location. -/
inductive Unselected (location : Path) (name : Text) (excluded : List Text) (p : Path) : Prop
  | outside (apart : ∀ way, ¬location.Below p way)
  | named (differs : (p.name : Text) ≠ name)
  | inside {before after : List String} {part : String}
      (below : location.Below p (before ++ part :: after)) (directory : after ≠ [])
      (mem : (part : Text) ∈ excluded)

/-- Each way not to be selected is one: the name differs, a directory on the way is excluded, or the
path is not below the location. -/
lemma Unselected.not_selected (h : Unselected location name excluded p) :
    ¬Selected location name excluded p := by
  rintro ⟨between, found, hbelow, hname, hbetween⟩
  cases h with
  | outside apart => exact apart _ hbelow
  | named differs => exact differs (hbelow.name_eq ▸ hname)
  | @inside before after part below directory mem =>
    obtain ⟨inner, last, rfl⟩ := List.eq_nil_or_concat after |>.resolve_left directory
    have hway : between ++ [found] = (before ++ part :: inner) ++ [last] := by
      have hparts := hbelow.1.symm.trans below.1
      simpa using List.append_cancel_left hparts
    obtain ⟨rfl, -⟩ := List.append_inj' hway rfl
    exact hbetween part (by simp) mem

/-- **Only the selected manifests count.** If two trees have a directory at a location and agree on
what is selected there, every reading leaves the same behind. What is selected is what a search
comes to: of the parts of a path only those between the location and the name can exclude it. So a
file may be written anywhere outside the location, under another name or inside an excluded
directory. -/
theorem readings_of_same_selection (h : m.IsDirectory location) :
    (∀ m' : Memory, m'.IsDirectory location →
      (∀ p, Selected location settings.manifestName settings.excludedDirs p →
        m.get? p = m'.get? p) →
      SameReadings m.source m'.source location settings) ∧
    (∃ paths, m.find location settings.manifestName settings.excludedDirs = .ok paths ∧
      ∀ p, p ∈ paths ↔ (∃ text, m.get? p = some text) ∧
        Selected location settings.manifestName settings.excludedDirs p) ∧
    ∀ p text, p ≠ location →
      Unselected location settings.manifestName settings.excludedDirs p →
      SameReadings m.source (m.write p text).source location settings := by
  have hcongr (m' : Memory) (h' : m'.IsDirectory location)
      (hsame : ∀ p, Selected location settings.manifestName settings.excludedDirs p →
        m.get? p = m'.get? p) : SameReadings m.source m'.source location settings :=
    sameReadings_of_selection_eq h h' ((Memory.selection_eq_iff h h').mpr hsame)
  refine ⟨hcongr, ⟨_, Memory.find_of_isDirectory h _ _, fun p => Memory.mem_map_selection h⟩,
    fun p text hne hout => ?_⟩
  refine hcongr _ (h.write hne text) fun q hselected => ?_
  rw [Memory.write, SortedMap.get?_insert, if_neg]
  rintro rfl
  exact hout.not_selected hselected

/-- A tree with one crate, in a directory whose name is excluded where it is not part of a
location. -/
def bareTree : Memory :=
  .ofFiles [
    (⟨["target", "repo", "a", "Cargo.toml"]⟩, "[package]\nname = 'a'\nversion = '1.0.0'\n")]

/-- The same tree with other files around it: a broken manifest in an excluded directory, another
outside the location, and a file of another name. -/
def litteredTree : Memory :=
  ((bareTree.write ⟨["target", "repo", "target", "Cargo.toml"]⟩ "[").write
    ⟨["target", "other", "Cargo.toml"]⟩ "[").write ⟨["target", "repo", "a", "lib.rs"]⟩ "\n"

/-- The tree reads as it does without the other files, though its location lies in a directory with
an excluded name: only directories below the location are excluded. -/
theorem readings_littered :
    let location : Path := ⟨["target", "repo"]⟩
    bareTree.IsDirectory location ∧ litteredTree.IsDirectory location ∧
      (∀ p, Selected location "Cargo.toml" ["target", ".git"] p →
        bareTree.get? p = litteredTree.get? p) ∧
      Unselected location "Cargo.toml" ["target", ".git"]
        ⟨["target", "repo", "target", "Cargo.toml"]⟩ ∧
      SameReadings bareTree.source litteredTree.source location {} ∧
      (readPackages litteredTree.source location {}).outcome =
        .ok [⟨"a", ⟨1, 0, 0, "", ""⟩, ⟨["target", "repo", "a", "Cargo.toml"]⟩, [], true⟩] := by
  intro location
  have hbelow : location.Below ⟨["target", "repo", "a", "Cargo.toml"]⟩ ["a", "Cargo.toml"] :=
    ⟨rfl, fun hnil => by cases hnil⟩
  have hbare : bareTree.IsDirectory location := ⟨rfl, _, _, _, rfl, hbelow⟩
  have hlittered : litteredTree.IsDirectory location := ⟨rfl, _, _, _, rfl, hbelow⟩
  have hsame : ∀ p, Selected location "Cargo.toml" ["target", ".git"] p →
      bareTree.get? p = litteredTree.get? p :=
    (Memory.selection_eq_iff hbare hlittered).mp (by decide +kernel)
  have hinside : location.Below ⟨["target", "repo", "target", "Cargo.toml"]⟩
      ([] ++ "target" :: ["Cargo.toml"]) := ⟨rfl, fun hnil => by cases hnil⟩
  have hreadings : SameReadings bareTree.source litteredTree.source location {} :=
    (readings_of_same_selection hbare).1 litteredTree hlittered hsame
  refine ⟨hbare, hlittered, hsame, .inside hinside (by decide) (by decide), hreadings, ?_⟩
  rw [← hreadings.packages]
  decide +kernel

end CrateGate.Discovery
