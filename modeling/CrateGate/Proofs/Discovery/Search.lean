import CrateGate.Proofs.Discovery.Trees
import CrateGate.Settings.Load
import CrateGate.Yaml.Read

/-!
# Searches for a name

In memory a search finds the files of the name, whatever the name is. On disk a name is a pattern:
it finds the files whose way has the form of the pattern, and those are the files of the name if the
name means itself (`find_named`). A name with brackets, stars or question marks is accepted by the
settings too, and may find files that are not called so, and pass over those that are
(`find_bracketed`).
-/

namespace CrateGate.Discovery

open Files Entry

variable {m : Memory} {location : Path}

/-- In memory the files of a name are found, at every directory. -/
lemma find_memory (h : m.IsDirectory location) (name : Text) (excluded : List Text) :
    ∃ paths, m.find location name excluded = .ok paths ∧
      FindsBelow (m.FileBelow location) (EndsIn name) location excluded paths := by
  refine ⟨_, Memory.find_of_isDirectory h name excluded, Memory.pairwise_selection .., fun p => ?_⟩
  rw [Memory.mem_map_selection h]
  constructor
  · rintro ⟨⟨text, hget⟩, between, last, hbelow, hlast, hexcluded⟩
    refine ⟨between ++ [last], Path.ext hbelow.1, ⟨p, text, hbelow, hget⟩,
      ⟨between, last, rfl, hlast⟩, ?_⟩
    rwa [List.dropLast_concat]
  · rintro ⟨way, rfl, ⟨q, text, hbelow, hget⟩, ⟨between, last, rfl, hlast⟩, hexcluded⟩
    obtain rfl : q = ⟨location.parts ++ (between ++ [last])⟩ := Path.ext hbelow.1
    rw [List.dropLast_concat] at hexcluded
    exact ⟨⟨text, hget⟩, between, last, hbelow, hlast, hexcluded⟩

/-- **What searches find.** In memory they find the files of the name that lie below the directory,
outside the excluded ones. On disk they find the files there whose way has the form of the pattern
that the name is, unless a path that is looked up is too long; and a text that is no pattern is not
looked for. A name that means itself as a pattern finds the files of the name. -/
theorem find_named (location : Path) (name : Text) (excluded : List Text) :
    (∀ m : Memory, m.IsDirectory location →
      ∃ paths, m.find location name excluded = .ok paths ∧
        FindsBelow (m.FileBelow location) (EndsIn name) location excluded paths) ∧
    ∀ (d : Disk) (e : Entry), d.look location = .ok (some e) → e.isFolder = true → e.Sound →
      (∀ slip, Disk.Pattern.ofText name = .error slip →
        d.find location name excluded = .error slip) ∧
      (∀ pattern, Disk.Pattern.ofText name = .ok pattern → .name ".." ∉ pattern.parts →
        (∃ paths, d.find location name excluded = .ok paths ∧
          FindsBelow e.FileAt
            (fun way =>
              pattern.folderOnly = false ∧ Disk.Part.Fits (.anyDepth :: pattern.parts) way)
            location excluded paths) ∨
        d.find location name excluded = .error .nameTooLong ∧
          ∃ p, Disk.Tried e location pattern.parts p ∧ Disk.TooLong p) ∧
      (LiteralName name →
        (∃ paths, d.find location name excluded = .ok paths ∧
          FindsBelow e.FileAt (EndsIn name) location excluded paths) ∨
        d.find location name excluded = .error .nameTooLong ∧
          ∃ p, Disk.Tried e location [.name name] p ∧ Disk.TooLong p) := by
  refine ⟨fun m h => find_memory h name excluded, fun d e hlook hfolder h => ?_⟩
  obtain ⟨children, rfl⟩ : ∃ children, e = .folder children := by
    cases e with
    | file bytes => cases hfolder
    | folder children => exact ⟨children, rfl⟩
  refine ⟨fun slip hslip => Disk.find_of_ofText_error hlook hslip excluded,
    fun pattern hpattern hup => ?_, fun hname => ?_⟩
  · exact (Disk.find_pattern_cases hlook h hpattern (Disk.Pattern.descends hpattern hup)
      excluded).imp_left fun ⟨paths, hfind, hfinds, _⟩ => ⟨paths, hfind, hfinds⟩
  · rcases Disk.find_pattern_cases hlook h hname.pattern_eq hname.descends excluded with
      ⟨paths, hfind, ⟨hsorted, hmem⟩, -⟩ | htooLong
    · refine .inl ⟨paths, hfind, hsorted, fun p => ?_⟩
      simp only [hmem, Disk.Part.fits_name_iff, true_and]
    · exact .inr htooLong

/-- In a small tree the files of the usual name are found, on disk as in memory, and none in an
excluded directory. -/
theorem find_named_smallTree :
    let fits := EndsIn "Cargo.toml"
    let found : List Path := [⟨["a", "Cargo.toml"]⟩]
    smallTree.IsDirectory .here ∧ LiteralName "Cargo.toml" ∧
      smallDisk.look .here = .ok (some smallTree.layOut) ∧ smallTree.layOut.Sound ∧
      FindsBelow (smallTree.FileBelow .here) fits .here ["target"] found ∧
      FindsBelow smallTree.layOut.FileAt fits .here ["target"] found := by
  intro fits found
  have hdirectory : smallTree.IsDirectory .here :=
    ⟨by decide +kernel, ⟨["a", "Cargo.toml"]⟩, _, ["a", "Cargo.toml"], rfl, rfl, fun _ => by decide⟩
  have hlook : smallDisk.look .here = .ok (some smallTree.layOut) := rfl
  have hsound := laid_smallTree.holds.sound
  have hmemory : smallTree.find .here "Cargo.toml" ["target"] = .ok found := by decide +kernel
  have hdisk : smallDisk.find .here "Cargo.toml" ["target"] = .ok found := by decide +kernel
  have hfind := find_named .here "Cargo.toml" ["target"]
  obtain ⟨paths, hpaths, hfinds⟩ := hfind.1 smallTree hdirectory
  obtain rfl : found = paths := Except.ok.inj (hmemory.symm.trans hpaths)
  refine ⟨hdirectory, literalName_default, hlook, hsound, hfinds, ?_⟩
  rcases (hfind.2 smallDisk smallTree.layOut hlook laid_smallTree.holds.folder hsound).2.2
    literalName_default with ⟨paths, hpaths, hfinds⟩ | ⟨hlong, -⟩
  · obtain rfl : found = paths := Except.ok.inj (hdisk.symm.trans hpaths)
    exact hfinds
  · rw [hdisk] at hlong
    cases hlong

/-- A disk with settings that ask for a name in brackets, with a file of that name, and with a file
of another name. -/
def bracketedDisk : Disk where
  root := .folder [("gate.yaml", .file "manifest_name: '[ab]'\n".toUTF8),
    ("[ab]", .file .empty), ("a", .file .empty)]
  standing := []

/-- The settings ask for the first file, and the search finds the second. -/
theorem find_bracketed :
    ∃ settings, Settings.load Yaml.read bracketedDisk (some ⟨["gate.yaml"]⟩) = .ok settings ∧
      settings.manifestName = "[ab]" ∧ bracketedDisk.isFile ⟨["[ab]"]⟩ = .ok true ∧
      bracketedDisk.find .here settings.manifestName settings.excludedDirs = .ok [⟨["a"]⟩] := by
  refine ⟨{ manifestName := "[ab]" }, ?_, rfl, ?_, ?_⟩
  · decide +kernel
  · decide +kernel
  · decide +kernel

end CrateGate.Discovery
