import CrateGate.Discovery.Run
import CrateGate.Proofs.Discovery.Read
import CrateGate.Proofs.Files.Find
import CrateGate.Proofs.Files.Layout
import CrateGate.Proofs.Text.LineEnds

/-!
# One tree on disk and in memory

A discovery sees of a source which manifests there are and what they declare, and nothing else
(`discover_congr`). On a disk and in memory these are the same if the same files lie there, so a
discovery leaves the same behind: the same notes, and the same schedule or the same problem
(`discover_eq_or_tooLong`). Only a path that is too long to be looked up on a disk makes a
difference, and then the disk has the last word (`discover_longLocation`).
-/

namespace CrateGate.Discovery

open Files Entry

variable {source source' : Source} {location p : Path} {settings : Settings} {paths : List Path}
  {d : Disk} {tree : Entry} {m : Memory} {name text : String}

/-! ## What a discovery sees of a source -/

/-- Sources with the same manifests, which declare the same, make no difference to a discovery. -/
lemma discover_congr
    (hfind : findManifests source location settings = findManifests source' location settings)
    (hread : ∀ paths, findManifests source location settings = .ok paths →
      ∀ p ∈ paths, readManifest source p = readManifest source' p) :
    discover source location settings = discover source' location settings := by
  rw [discover, discover, readPackages_congr hfind hread]

/-- What the search finds are the manifests that are read. -/
lemma findManifests_of_ok
    (h : source.find location settings.manifestName settings.excludedDirs = .ok paths) :
    findManifests source location settings = .ok paths := by
  rw [findManifests, h]

/-- If the search finds no directory at the location, that is the problem to be reported. -/
lemma findManifests_of_noDirectoryAt
    (h : source.find location settings.manifestName settings.excludedDirs =
      .error (.noDirectoryAt p)) :
    findManifests source location settings = .error (.discovery (.missingLocation location)) := by
  rw [findManifests, h]

/-- If the location is too long for the disk, the search slips and so does discovery: nothing turns
this into a problem. -/
lemma findManifests_of_nameTooLong
    (h : source.find location settings.manifestName settings.excludedDirs =
      .error .nameTooLong) :
    findManifests source location settings = .error (.slip .nameTooLong) := by
  rw [findManifests, h]

/-- A search that goes wrong ends the discovery. -/
lemma outcome_discover_of_findManifests_error {fault : Fault}
    (hfind : findManifests source location settings = .error fault) :
    (discover source location settings).outcome = .error fault := by
  simp only [discover, readPackages, hfind]
  rfl

/-! ## Reading one manifest -/

/-- It makes no difference to a document how its lines end: its reader has the same text. -/
lemma joined_universalNewlines (h : Text.ReturnsEndLines text.toList) :
    Toml.joined (String.ofList (Text.universalNewlines text.toList)) = Toml.joined text := by
  simp only [Toml.joined, String.toList_ofList, Text.joinLineEnds_universalNewlines h]

/-- A manifest on disk declares what the same one in memory does. -/
lemma readManifest_disk (hlook : d.look p = .ok (some (.file text.toUTF8)))
    (hget : m.get? p = some text) (hends : Text.ReturnsEndLines text.toList) :
    readManifest d.source p = readManifest m.source p := by
  have hdisk : d.source.read p = .ok (String.ofList (Text.universalNewlines text.toList)) :=
    Disk.read_of_look hlook
  have hmemory : m.source.read p = .ok text := by
    change Memory.read m p = .ok text
    rw [Memory.read, hget]
  rw [readManifest, readManifest, hdisk, hmemory]
  simp only [Manifest.parse, Toml.parse, joined_universalNewlines hends]

/-- In memory a location that is no directory is missing. -/
lemma findManifests_memory_of_not_folder (h : tree.Holds m)
    (hfolder : ∀ children, tree.at? location.parts ≠ some (.folder children)) :
    findManifests m.source location settings = .error (.discovery (.missingLocation location)) :=
  findManifests_of_noDirectoryAt (Memory.find_of_not_folder _ _ h hfolder)

/-! ## One tree -/

/-- **A tree on disk and the same tree in memory.** Let the reader stand on a disk in a tree that
holds the files of a tree in memory, with every carriage return in front of a line feed. A discovery
at a relative location without `..`, for manifests of a literal name, leaves the same behind: the
same notes and the same outcome. Otherwise a path that has to be looked up on the disk is too long,
and the discovery ends with that. -/
theorem discover_eq_or_tooLong (hstanding : d.root.at? d.standing = some tree)
    (h : tree.Holds m)
    (hends : ∀ p text, m.get? p = some text → Text.ReturnsEndLines text.toList)
    (hrelative : location.isAbsolute = false) (hup : ".." ∉ location.parts)
    (hname : LiteralName settings.manifestName) :
    discover d.source location settings = discover m.source location settings ∨
      ((discover d.source location settings).outcome = .error (.slip .nameTooLong) ∧
        ∃ p, Disk.LookedUp tree location settings.manifestName p ∧ Disk.TooLong p) := by
  rcases Disk.find_cases settings.excludedDirs hstanding h hrelative hup hname with
    ⟨children, paths, hfolder, hfind, hfinds, hlook⟩ | ⟨hfolder, hfind⟩ | ⟨hfind, hlong⟩
  · -- both searches come to the same files
    obtain ⟨others, hothers, hfinds'⟩ := Memory.find_of_folder settings.manifestName
      settings.excludedDirs h hfolder
    rw [← hfinds.unique hfinds'] at hothers
    have hdisk : findManifests d.source location settings = .ok paths :=
      findManifests_of_ok hfind
    have hmemory : findManifests m.source location settings = .ok paths :=
      findManifests_of_ok hothers
    refine .inl (discover_congr (hdisk.trans hmemory.symm) fun found hfound p hp => ?_)
    obtain rfl : paths = found := Except.ok.inj (hdisk.symm.trans hfound)
    obtain ⟨way, last, bytes, -, -, hat, -⟩ := (hfinds.mem_iff p).mp hp
    obtain ⟨text, hget, rfl⟩ := (h.file_iff p.parts bytes).mp hat
    exact readManifest_disk ((hlook p hp).trans (congrArg Except.ok hat)) hget (hends p text hget)
  · have hdisk : findManifests d.source location settings =
        .error (.discovery (.missingLocation location)) := findManifests_of_noDirectoryAt hfind
    have hmemory : findManifests m.source location settings =
        .error (.discovery (.missingLocation location)) :=
      findManifests_memory_of_not_folder h hfolder
    refine .inl (discover_congr (hdisk.trans hmemory.symm) fun found hfound => ?_)
    rw [hdisk] at hfound
    cases hfound
  · have hdisk : findManifests d.source location settings = .error (.slip .nameTooLong) :=
      findManifests_of_nameTooLong hfind
    exact .inr ⟨outcome_discover_of_findManifests_error hdisk, hlong⟩

/-- A small tree in memory: a manifest with lines that end in `\r\n`, another file beside it, and a
manifest in a directory that is not looked into. -/
def smallTree : Memory :=
  .ofFiles [
    (⟨["a", "Cargo.toml"]⟩, "[package]\r\nname='a'\r\nversion='1.0.0'\r\n"),
    (⟨["a", "src", "lib.rs"]⟩, "\n"),
    (⟨["target", "Cargo.toml"]⟩, "[package]\n")]

/-- A disk on which the reader stands in that tree. -/
def smallDisk : Disk :=
  ⟨.folder [("home", smallTree.layOut)], ["home"]⟩

/-- The small tree can be laid out on disk: its names are proper and no file lies on the way to
another. -/
lemma laid_smallTree : smallTree.Laid :=
  ⟨by decide, by decide, by decide, by decide⟩

/-- In the files of the small tree no carriage return stands alone. -/
lemma ends_smallTree (p : Path) (text : String) (h : smallTree.get? p = some text) :
    Text.ReturnsEndLines text.toList := by
  have hall : ∀ file ∈ smallTree.toList, Text.ReturnsEndLines file.2.toList := by decide
  exact hall (p, text) (SortedMap.mem_toList_iff.mpr h)

/-- The name of manifests in the settings without a file means itself as a pattern. -/
lemma literalName_default : LiteralName ({} : Settings).manifestName := by
  have hplain : (({} : Settings).manifestName.letters.all fun a =>
      decide (a ≠ .char '/' ∧ a ≠ .char '*' ∧ a ≠ .char '?' ∧ a ≠ .char '[')) = true := by decide
  exact ⟨by decide, by decide, by decide, fun a ha =>
    of_decide_eq_true (List.all_eq_true.mp hplain a ha)⟩

/-- The small tree on disk and in memory: the same notes and the same schedule of one crate. -/
theorem discover_smallDisk :
    smallDisk.root.at? smallDisk.standing = some smallTree.layOut ∧
      smallTree.layOut.Holds smallTree ∧
      discover smallDisk.source ⟨["a"]⟩ {} = discover smallTree.source ⟨["a"]⟩ {} ∧
      (discover smallTree.source ⟨["a"]⟩ {}).outcome =
        .ok ⟨[[⟨"a", ⟨1, 0, 0, "", ""⟩, ⟨["a", "Cargo.toml"]⟩, [], true⟩]], []⟩ := by
  have hsame := (discover_eq_or_tooLong rfl laid_smallTree.holds ends_smallTree
    (show Path.isAbsolute ⟨["a"]⟩ = false from rfl) (by decide) literalName_default
    : discover smallDisk.source ⟨["a"]⟩ {} = _ ∨ _)
  have hdisk : (discover smallDisk.source ⟨["a"]⟩ {}).outcome =
      .ok ⟨[[⟨"a", ⟨1, 0, 0, "", ""⟩, ⟨["a", "Cargo.toml"]⟩, [], true⟩]], []⟩ := by
    decide +kernel
  rcases hsame with heq | ⟨hlong, -⟩
  · exact ⟨rfl, laid_smallTree.holds, heq, heq ▸ hdisk⟩
  · rw [hlong] at hdisk
    cases hdisk

/-- A name of that many letters. -/
def longName (n : Nat) : String :=
  String.ofList (List.replicate n 'a')

/-- A name of so many letters takes up as many bytes. -/
lemma utf8ByteSize_longName (n : Nat) : (longName n).utf8ByteSize = n := by
  have hsize : (List.replicate n 'a').utf8Encode.size = n := by
    induction n with
    | zero => rfl
    | succ n ih =>
      have hone : ['a'].utf8Encode.size = 1 := rfl
      rw [List.replicate_succ, List.utf8Encode_cons, ByteArray.size_append, ih, hone, Nat.add_comm]
  rw [longName, String.utf8ByteSize, String.toByteArray_ofList, hsize]

/-- A long name is still one that a directory could have: it is not empty, no dots alone, and has no
slash. -/
lemma properName_longName (n : Nat) : ProperName (longName n) := by
  have hmem (c : Char) (hc : c ∈ (longName n).toList) : c = 'a' := by
    rw [longName, String.toList_ofList] at hc
    exact List.eq_of_mem_replicate hc
  refine ⟨fun hup => ?_, fun hslash => ?_, fun hzero => ?_⟩
  · have hdot : '.' = 'a' := hmem '.' (by rw [hup]; decide)
    exact absurd hdot (by decide)
  · exact absurd (hmem '/' hslash) (by decide)
  · exact absurd (hmem '\x00' hzero) (by decide)

/-- A name of 256 letters is too long to be looked up in the small tree, where it is not. -/
lemma look_longName : smallDisk.look ⟨[longName 256]⟩ = .error .nameTooLong := by
  obtain ⟨children, hat⟩ : ∃ children,
      smallDisk.root.at? smallDisk.standing = some (.folder children) := ⟨_, rfl⟩
  have hnone : children.lookup (longName 256) = none := by
    rw [← at?_concat hat]
    decide +kernel
  refine Disk.look_eq_nameTooLong (properName_longName 256) ?_ ?_ hat hnone
  · rw [utf8ByteSize_longName]
    decide
  · rw [utf8ByteSize_longName]
    decide

/-- At a location whose name is too long the disk reports that, and the tree in memory a missing
directory. -/
theorem discover_longLocation :
    ¬∀ (d : Disk) (tree : Entry) (m : Memory) (location : Path) (settings : Settings),
      d.root.at? d.standing = some tree → tree.Holds m →
      (∀ p text, m.get? p = some text → Text.ReturnsEndLines text.toList) →
      location.isAbsolute = false → ".." ∉ location.parts → LiteralName settings.manifestName →
      (discover d.source location settings).outcome =
        (discover m.source location settings).outcome := by
  intro hall
  let location : Path := ⟨[longName 256]⟩
  have hproper : ProperName (longName 256) := properName_longName 256
  have hup : ".." ∉ location.parts := fun hmem => hproper.ne_up (List.mem_singleton.mp hmem).symm
  have heq := hall smallDisk smallTree.layOut smallTree location {} rfl laid_smallTree.holds
    ends_smallTree (Path.isAbsolute_singleton hproper.slash) hup literalName_default
  have hdisk : findManifests smallDisk.source location {} = .error (.slip .nameTooLong) :=
    findManifests_of_nameTooLong (Disk.find_of_look_error look_longName)
  have hnot : ∀ children, smallTree.layOut.at? location.parts ≠ some (.folder children) := by
    have hat : smallTree.layOut.at? location.parts = none := by decide +kernel
    intro children hchildren
    rw [hat] at hchildren
    cases hchildren
  have hmemory : findManifests smallTree.source location {} =
      .error (.discovery (.missingLocation location)) :=
    findManifests_memory_of_not_folder laid_smallTree.holds hnot
  rw [outcome_discover_of_findManifests_error hdisk,
    outcome_discover_of_findManifests_error hmemory] at heq
  cases heq

end CrateGate.Discovery
