import CrateGate.Files.Memory
import CrateGate.Proofs.Discovery.Read
import CrateGate.Proofs.Manifest.Problems

/-!
# Which manifest decides a reading

Manifests are consistent if each of them can be read and no two declare one crate (`Consistent`).
While they are, the shelf holds what they declare and nothing else (`Stocked`), in the order of the
names. The first manifest with which they are not ends the reading with a fault of its own
(`ManifestFault`), whatever comes after it.
-/

namespace CrateGate

namespace Files.Memory

variable {m : Memory} {root : Path} {name : Text} {excluded : List Text} {paths : List Path}
  {slip : Slip}

/-- The files that are found come by path, and each has a text. -/
lemma find_eq_ok (h : m.find root name excluded = .ok paths) :
    paths.Pairwise (· < ·) ∧ ∀ path ∈ paths, ∃ text, m.get? path = some text := by
  unfold find at h
  split at h
  · cases h
  · obtain rfl := Except.ok.inj h
    refine ⟨(SortedMap.pairwise_keys m).sublist List.filter_sublist, fun path hpath => ?_⟩
    exact SortedMap.mem_keys_iff.mp (List.mem_filter.mp hpath).1

/-- A search goes wrong only where there is no directory. -/
lemma find_eq_error (h : m.find root name excluded = .error slip) :
    slip = .noDirectoryAt root := by
  unfold find at h
  split at h
  · exact (Except.error.inj h).symm
  · cases h

end Files.Memory

namespace Discovery

open Files

variable {source : Source} {shelf shelf' : Shelf} {path : Path}
  {paths before rest : List Path} {packages : List Package} {p q : Package} {fault : Fault}
  {m : Memory} {location : Path} {settings : Settings}

/-! ## What manifests declare -/

/-- The package that a manifest declares, if it can be read and has one. -/
def declared? (source : Source) (path : Path) : Option Package :=
  match readManifest source path with
  | .ok found => found
  | .error _ => none

/-- The packages that manifests declare, in the order of the manifests. -/
def declaredBy (source : Source) (paths : List Path) : List Package :=
  paths.filterMap (declared? source)

/-- Manifests are consistent if each can be read and no two declare one crate. -/
structure Consistent (source : Source) (paths : List Path) : Prop where
  readable : ∀ path ∈ paths, ∃ found, readManifest source path = .ok found
  distinct : ((declaredBy source paths).map (·.name)).Nodup

/-- What is wrong with a manifest that comes after others: it cannot be read, or it declares a crate
that an earlier one declares. -/
inductive ManifestFault (source : Source) (before : List Path) (path : Path) : Fault → Prop
  | unread {fault : Fault} (read : readManifest source path = .error fault) :
      ManifestFault source before path fault
  | repeated {p q : Package} {earlier : Path} (read : readManifest source path = .ok (some p))
      (mem : earlier ∈ before) (declares : declared? source earlier = some q)
      (same : q.name = p.name) :
      ManifestFault source before path (.discovery (.declaredTwice p.name earlier path))

/-- What a manifest declares is what reading it comes to, if reading it goes well. -/
lemma declared?_of_read {found : Option Package} (h : readManifest source path = .ok found) :
    declared? source path = found := by
  rw [declared?, h]

/-- A manifest declares a package if and only if reading it comes to that package. -/
lemma declared?_eq_some_iff :
    declared? source path = some p ↔ readManifest source path = .ok (some p) := by
  unfold declared?
  cases readManifest source path <;> simp

/-- The packages that some manifests declare are those that one of them declares. -/
lemma mem_declaredBy :
    p ∈ declaredBy source paths ↔ ∃ path ∈ paths, declared? source path = some p :=
  List.mem_filterMap

/-- One manifest more adds the package that it declares, at the end, or nothing. -/
lemma declaredBy_concat (source : Source) (before : List Path) (path : Path) :
    declaredBy source (before ++ [path]) =
      declaredBy source before ++ (declared? source path).toList := by
  unfold declaredBy
  rw [List.filterMap_append]
  cases h : declared? source path <;> simp [h]

/-- A package is declared by the text of a manifest. -/
lemma exists_parse_of_declared? (h : declared? source path = some p) :
    ∃ text, Manifest.parse text path = .ok (some p) := by
  have hread := declared?_eq_some_iff.mp h
  unfold readManifest at hread
  split at hread
  · next text _ => exact ⟨text, hread⟩
  · cases hread
  · cases hread

/-- A package is at the path of the manifest that declares it. -/
lemma manifest_of_declared? (h : declared? source path = some p) : p.manifest = path := by
  obtain ⟨text, hparse⟩ := exists_parse_of_declared? h
  exact Manifest.manifest_of_parse hparse

/-- With a manifest that has something wrong with it manifests are not consistent. -/
lemma ManifestFault.not_consistent (h : ManifestFault source before path fault) :
    ¬Consistent source (before ++ path :: rest) := by
  intro hconsistent
  cases h with
  | unread read =>
    obtain ⟨found, hfound⟩ := hconsistent.readable path (by simp)
    rw [read] at hfound
    cases hfound
  | @repeated p q earlier read mem declares same =>
    have hdistinct := hconsistent.distinct
    rw [declaredBy, List.filterMap_append, List.map_append, List.nodup_append] at hdistinct
    have hq : q ∈ before.filterMap (declared? source) := List.mem_filterMap.mpr ⟨_, mem, declares⟩
    have hp : p ∈ (path :: rest).filterMap (declared? source) :=
      List.mem_filterMap.mpr ⟨path, List.mem_cons_self, declared?_of_read read⟩
    exact hdistinct.2.2 _ (List.mem_map_of_mem hq) _ (List.mem_map_of_mem hp) same

/-! ## One manifest more -/

/-- A shelf holds what consistent manifests declare, and nothing else. -/
structure Stocked (source : Source) (paths : List Path) (shelf : Shelf) : Prop where
  consistent : Consistent source paths
  get?_iff : ∀ a p, shelf.get? a = some p ↔ p ∈ declaredBy source paths ∧ p.name = a

/-- Before the first manifest the shelf is empty, and that is what no manifests declare. -/
lemma stocked_empty (source : Source) : Stocked source [] SortedMap.empty := by
  refine ⟨⟨by simp, List.nodup_nil⟩, fun a p => ?_⟩
  simp [declaredBy]

/-- If one more manifest can be read, all manifests so far can be. -/
lemma Stocked.readable_concat (h : Stocked source before shelf) {found : Option Package}
    (hread : readManifest source path = .ok found) :
    ∀ path' ∈ before ++ [path], ∃ found, readManifest source path' = .ok found := by
  rw [List.forall_mem_append]
  refine ⟨h.consistent.readable, fun path' hpath => ?_⟩
  obtain rfl := List.mem_singleton.mp hpath
  exact ⟨found, hread⟩

/-- A manifest without a package changes nothing. -/
lemma Stocked.skip (h : Stocked source before shelf) (hread : readManifest source path = .ok none) :
    Stocked source (before ++ [path]) shelf := by
  have hsame : declaredBy source (before ++ [path]) = declaredBy source before := by
    rw [declaredBy_concat, declared?_of_read hread]
    exact List.append_nil _
  refine ⟨⟨h.readable_concat hread, ?_⟩, ?_⟩
  · rw [hsame]
    exact h.consistent.distinct
  · rw [hsame]
    exact h.get?_iff

/-- A package of a new name is put on the shelf. -/
lemma Stocked.shelve (h : Stocked source before shelf)
    (hread : readManifest source path = .ok (some p)) (hnew : shelf.get? p.name = none) :
    Stocked source (before ++ [path]) (shelf.insert p.name p) := by
  have hmore : declaredBy source (before ++ [path]) = declaredBy source before ++ [p] := by
    rw [declaredBy_concat, declared?_of_read hread]
    rfl
  have hapart : ∀ q ∈ declaredBy source before, q.name ≠ p.name := by
    intro q hq hname
    rw [(h.get?_iff p.name q).mpr ⟨hq, hname⟩] at hnew
    cases hnew
  refine ⟨⟨h.readable_concat hread, ?_⟩, fun a q => ?_⟩
  · rw [hmore, List.map_append, List.nodup_append]
    refine ⟨h.consistent.distinct, by simp, fun a ha b hb => ?_⟩
    obtain ⟨q, hq, rfl⟩ := List.mem_map.mp ha
    obtain rfl := List.mem_singleton.mp hb
    exact hapart q hq
  · rw [SortedMap.get?_insert, hmore, List.mem_append, List.mem_singleton]
    split
    · next ha =>
      rw [Option.some.injEq]
      constructor
      · rintro rfl
        exact ⟨.inr rfl, ha.symm⟩
      · rintro ⟨hq | rfl, hname⟩
        · exact absurd (hname.trans ha) (hapart q hq)
        · rfl
    · next ha =>
      rw [h.get?_iff]
      constructor
      · rintro ⟨hq, hname⟩
        exact ⟨.inl hq, hname⟩
      · rintro ⟨hq | rfl, hname⟩
        · exact ⟨hq, hname⟩
        · exact absurd hname.symm ha

/-- A manifest with something wrong with it ends the reading. -/
lemma Stocked.outcome_of_fault (h : Stocked source before shelf)
    (hfault : ManifestFault source before path fault) (rest : List Path) :
    (readManifests source shelf (path :: rest)).outcome = .error fault := by
  rw [outcome_readManifests_cons]
  cases hfault with
  | unread read =>
    rw [read]
    rfl
  | @repeated p q earlier read mem declares same =>
    have hget := (h.get?_iff p.name q).mpr ⟨mem_declaredBy.mpr ⟨earlier, mem, declares⟩, same⟩
    have hmanifest := manifest_of_declared? (declared?_of_read read)
    have hshelve : Discovery.shelve shelf p =
        .error (.discovery (.declaredTwice p.name earlier path)) := by
      simp only [Discovery.shelve, hget, manifest_of_declared? declares, hmanifest]
    simp only [read, Except.bind, hshelve]

/-! ## All manifests -/

/-- **How a reading ends**: with what all manifests declare, or with the first that has something
wrong with it. -/
lemma Stocked.readManifests_cases (h : Stocked source before shelf) (rest : List Path) :
    (∃ shelf', (readManifests source shelf rest).outcome = .ok shelf' ∧
        Stocked source (before ++ rest) shelf') ∨
      ∃ left path right fault, before ++ rest = left ++ path :: right ∧ Consistent source left ∧
        ManifestFault source left path fault := by
  induction rest generalizing shelf before with
  | nil =>
    rw [List.append_nil]
    exact .inl ⟨shelf, rfl, h⟩
  | cons path rest ih =>
    rw [outcome_readManifests_cons]
    have hsplit : before ++ path :: rest = before ++ [path] ++ rest := by simp
    cases hread : readManifest source path with
    | error fault =>
      exact .inr ⟨before, path, rest, fault, rfl, h.consistent, .unread hread⟩
    | ok found =>
      rw [hsplit, Except.bind]
      cases found with
      | none => exact ih (h.skip hread)
      | some p =>
        cases hget : shelf.get? p.name with
        | none =>
          simp only [shelve_eq_ok_iff.mpr ⟨hget, rfl⟩]
          exact ih (h.shelve hread hget)
        | some q =>
          obtain ⟨hq, hname⟩ := (h.get?_iff p.name q).mp hget
          obtain ⟨earlier, hearlier, hdeclares⟩ := mem_declaredBy.mp hq
          exact .inr ⟨before, path, rest, _, hsplit.symm, h.consistent,
            .repeated hread hearlier hdeclares hname⟩

/-- If the manifests that are left are consistent with those already read, reading them goes well to
the end. -/
lemma Stocked.exists_of_consistent (h : Stocked source before shelf)
    (hconsistent : Consistent source (before ++ rest)) :
    ∃ shelf', (readManifests source shelf rest).outcome = .ok shelf' ∧
      Stocked source (before ++ rest) shelf' := by
  refine (h.readManifests_cases rest).resolve_right ?_
  rintro ⟨left, path, right, fault, hsplit, -, hfault⟩
  exact hfault.not_consistent (hsplit ▸ hconsistent)

/-- In manifests that are not consistent there is a first one at which that shows, and all before it
are. -/
lemma exists_fault_of_not_consistent (h : ¬Consistent source paths) :
    ∃ left path right fault, paths = left ++ path :: right ∧ Consistent source left ∧
      ManifestFault source left path fault := by
  rcases (stocked_empty source).readManifests_cases paths with ⟨shelf, -, hstocked⟩ | hfault
  · exact absurd hstocked.consistent h
  · exact hfault

/-- Manifests can be read in two parts, the second onto the shelf that the first one left. -/
lemma outcome_readManifests_append (source : Source) (shelf : Shelf) (before rest : List Path) :
    (readManifests source shelf (before ++ rest)).outcome =
      (readManifests source shelf before).outcome.bind fun shelf =>
        (readManifests source shelf rest).outcome := by
  induction before generalizing shelf with
  | nil => rfl
  | cons path before ih =>
    rw [List.cons_append, outcome_readManifests_cons, outcome_readManifests_cons]
    cases readManifest source path with
    | error fault => rfl
    | ok found =>
      cases found with
      | none => exact ih shelf
      | some p =>
        simp only [Except.bind]
        cases Discovery.shelve shelf p with
        | error fault => rfl
        | ok next => exact ih next

/-- The fault of the first manifest with which they are not consistent is that of the reading. -/
lemma outcome_readManifests_of_fault (hconsistent : Consistent source before)
    (hfault : ManifestFault source before path fault) (rest : List Path) :
    (readManifests source SortedMap.empty (before ++ path :: rest)).outcome = .error fault := by
  obtain ⟨shelf, hread, hstocked⟩ := (stocked_empty source).exists_of_consistent
    (show Consistent source ([] ++ before) from hconsistent)
  rw [outcome_readManifests_append, hread]
  exact hstocked.outcome_of_fault hfault rest

/-! ## The packages of a tree -/

/-- What is on the shelf is what the manifests declare, in the order of the names. -/
lemma Stocked.values_perm (h : Stocked source paths shelf) :
    shelf.values.Perm (declaredBy source paths) := by
  have hlabelled : shelf.Labelled := fun a p hget => ((h.get?_iff a p).mp hget).2
  have hnodup : (shelf.values.map (·.name)).Nodup := by
    rw [hlabelled.map_name_values]
    exact (SortedMap.pairwise_keys shelf).imp String.ne_of_lt
  rw [List.perm_ext_iff_of_nodup hnodup.of_map h.consistent.distinct.of_map]
  intro p
  constructor
  · intro hp
    obtain ⟨⟨a, q⟩, hmem, rfl⟩ := List.mem_map.mp hp
    exact ((h.get?_iff a q).mp (SortedMap.mem_toList_iff.mp hmem)).1
  · intro hp
    have hget := (h.get?_iff p.name p).mpr ⟨hp, rfl⟩
    exact List.mem_map.mpr ⟨(p.name, p), SortedMap.mem_toList_iff.mpr hget, rfl⟩

/-- A reading of a tree ends as that of its manifests. -/
lemma outcome_readPackages (h : findManifests source location settings = .ok paths) :
    (readPackages source location settings).outcome =
      (readManifests source SortedMap.empty paths).outcome.map SortedMap.values := by
  unfold readPackages
  simp only [Report.outcome_bind, Report.outcome_ofExcept, Report.outcome_note,
    Report.outcome_pure, h]
  simp only [Except.bind]
  cases (readManifests source SortedMap.empty paths).outcome <;> rfl

/-- Consistent manifests are read as packages in the order of their names. -/
lemma readPackages_of_consistent (hfind : findManifests source location settings = .ok paths)
    (h : Consistent source paths) :
    ∃ packages, (readPackages source location settings).outcome = .ok packages ∧
      packages.Perm (declaredBy source paths) := by
  obtain ⟨shelf, hread, hstocked⟩ := (stocked_empty source).exists_of_consistent
    (show Consistent source ([] ++ paths) from h)
  refine ⟨shelf.values, ?_, hstocked.values_perm⟩
  rw [outcome_readPackages hfind, hread]
  rfl

/-- If a manifest is at fault and all before it are consistent, reading the packages ends in its
fault, whatever comes after it. -/
lemma readPackages_of_fault (hfind : findManifests source location settings =
      .ok (before ++ path :: rest))
    (hconsistent : Consistent source before) (hfault : ManifestFault source before path fault) :
    (readPackages source location settings).outcome = .error fault := by
  rw [outcome_readPackages hfind, outcome_readManifests_of_fault hconsistent hfault rest]
  rfl

/-- Packages are read only from consistent manifests, and are what those declare. -/
lemma exists_consistent_of_readPackages
    (h : (readPackages source location settings).outcome = .ok packages) :
    ∃ paths, findManifests source location settings = .ok paths ∧ Consistent source paths ∧
      packages.Perm (declaredBy source paths) := by
  obtain ⟨paths, shelf, hfind, -, -⟩ := readPackages_eq_ok_iff.mp h
  have hconsistent : Consistent source paths := by
    by_contra hnot
    obtain ⟨before, path, rest, fault, rfl, hbefore, hfault⟩ := exists_fault_of_not_consistent hnot
    rw [readPackages_of_fault hfind hbefore hfault] at h
    cases h
  obtain ⟨packages', hread, hperm⟩ := readPackages_of_consistent hfind hconsistent
  obtain rfl := Except.ok.inj (h.symm.trans hread)
  exact ⟨paths, hfind, hconsistent, hperm⟩

/-- The versions of the packages are such as texts write. -/
lemma canonical_of_readPackages
    (h : (readPackages source location settings).outcome = .ok packages) (hp : p ∈ packages) :
    p.version.Canonical := by
  obtain ⟨paths, -, -, hperm⟩ := exists_consistent_of_readPackages h
  obtain ⟨path, -, hdeclared⟩ := mem_declaredBy.mp (hperm.mem_iff.mp hp)
  obtain ⟨text, hparse⟩ := exists_parse_of_declared? hdeclared
  exact Manifest.canonical_version_of_parse hparse

/-! ## Locations -/

/-- No manifest has a location missing. -/
lemma ManifestFault.code_ne {problem : Problem}
    (h : ManifestFault source before path (.discovery problem)) :
    problem.code ≠ "MISSING_LOCATION" := by
  generalize hdiscovery : Fault.discovery problem = fault at h
  cases h with
  | unread read =>
    subst hdiscovery
    unfold readManifest at read
    split at read
    · cases Manifest.confined_parse _ _ _ read with
      | problem path code => rcases code with hcode | hcode <;> rw [hcode] <;> decide
    · cases read
    · obtain rfl := Fault.discovery.inj (Except.error.inj read)
      exact (by decide : "MANIFEST_PARSE" ≠ "MISSING_LOCATION")
  | repeated =>
    obtain rfl := Fault.discovery.inj hdiscovery
    exact (by decide : "DUPLICATE_PACKAGE" ≠ "MISSING_LOCATION")

/-- In memory a search that goes wrong finds no directory. -/
lemma findManifests_memory (m : Memory) (location : Path) (settings : Settings) :
    findManifests m.source location settings =
      match m.find location settings.manifestName settings.excludedDirs with
      | .ok paths => .ok paths
      | .error _ => .error (.discovery (.missingLocation location)) := by
  have hfind : m.source.find location settings.manifestName settings.excludedDirs =
      m.find location settings.manifestName settings.excludedDirs := rfl
  rw [findManifests, hfind]
  cases hfound : m.find location settings.manifestName settings.excludedDirs with
  | ok paths => rfl
  | error slip =>
    obtain rfl := Memory.find_eq_error hfound
    rfl

/-- In memory a location is reported as missing if and only if the search below it fails. -/
lemma missingLocation_iff :
    (∃ problem, (readPackages m.source location settings).outcome = .error (.discovery problem) ∧
        problem.code = "MISSING_LOCATION") ↔
      ∃ slip, m.find location settings.manifestName settings.excludedDirs = .error slip := by
  have hmanifests := findManifests_memory m location settings
  cases hfind : m.find location settings.manifestName settings.excludedDirs with
  | error slip =>
    rw [hfind] at hmanifests
    have hread : (readPackages m.source location settings).outcome =
        .error (.discovery (.missingLocation location)) := by
      unfold readPackages
      rw [Report.outcome_bind, Report.outcome_ofExcept, hmanifests]
      rfl
    exact ⟨fun _ => ⟨slip, rfl⟩, fun _ => ⟨_, hread, rfl⟩⟩
  | ok paths =>
    rw [hfind] at hmanifests
    constructor
    · rintro ⟨problem, houtcome, hcode⟩
      by_cases hconsistent : Consistent m.source paths
      · obtain ⟨packages, hok, -⟩ := readPackages_of_consistent hmanifests hconsistent
        rw [hok] at houtcome
        cases houtcome
      · obtain ⟨before, path, rest, fault, rfl, hbefore, hfault⟩ :=
          exists_fault_of_not_consistent hconsistent
        rw [readPackages_of_fault hmanifests hbefore hfault] at houtcome
        obtain rfl := Except.error.inj houtcome
        exact absurd hcode hfault.code_ne
    · rintro ⟨slip, hslip⟩
      cases hslip

/-- In memory the manifest at a path is parsed from the text that is there. -/
lemma readManifest_memory {text : String} (h : m.get? path = some text) :
    readManifest m.source path = Manifest.parse text path := by
  have hread : m.source.read path = .ok text := by
    change Memory.read m path = .ok text
    rw [Memory.read, h]
  rw [readManifest, hread]

/-- **Which packages a tree has, and what is reported otherwise.** The location is missing exactly
where nothing can be looked for. Otherwise the manifests are read by path. If they are consistent,
the packages are those that they declare, by name; if not, the first of them that cannot be read or
that declares a crate once more decides, and the others do not count. -/
theorem readPackages_outcome (m : Memory) (location : Path) (settings : Settings) :
    let outcome := (readPackages m.source location settings).outcome
    let found := m.find location settings.manifestName settings.excludedDirs
    ((∃ problem, outcome = .error (.discovery problem) ∧ problem.code = "MISSING_LOCATION") ↔
      ∃ slip, found = .error slip) ∧
    ∀ paths, found = .ok paths →
      paths.Pairwise (· < ·) ∧
      (∀ path ∈ paths, ∃ text, m.get? path = some text ∧
        readManifest m.source path = Manifest.parse text path) ∧
      (Consistent m.source paths → ∃ packages, outcome = .ok packages ∧
        (packages.Pairwise fun p q => p.name < q.name) ∧
        packages.Perm (declaredBy m.source paths) ∧
        ∀ path ∈ paths, ∀ p, declared? m.source path = some p → p.manifest = path) ∧
      (¬Consistent m.source paths → ∃ before path after fault, paths = before ++ path :: after ∧
        Consistent m.source before ∧ ManifestFault m.source before path fault) ∧
      ∀ before path after, paths = before ++ path :: after → Consistent m.source before →
        (∀ fault, readManifest m.source path = .error fault → outcome = .error fault) ∧
        ∀ p q earlier, readManifest m.source path = .ok (some p) → earlier ∈ before →
          declared? m.source earlier = some q → q.name = p.name →
          ∃ problem, outcome = .error (.discovery problem) ∧ problem.code = "DUPLICATE_PACKAGE" ∧
            problem.path = none ∧ problem.details = [earlier.render, path.render] := by
  intro outcome found
  refine ⟨missingLocation_iff, fun paths hfound => ?_⟩
  have hfind : findManifests m.source location settings = .ok paths := by
    rw [findManifests_memory, show m.find _ _ _ = .ok paths from hfound]
  obtain ⟨hsorted, hread⟩ := Memory.find_eq_ok hfound
  refine ⟨hsorted, fun path hpath => ?_, fun hconsistent => ?_, exists_fault_of_not_consistent,
    fun before path after hsplit hbefore => ?_⟩
  · obtain ⟨text, hget⟩ := hread path hpath
    exact ⟨text, hget, readManifest_memory hget⟩
  · obtain ⟨packages, hok, hperm⟩ := readPackages_of_consistent hfind hconsistent
    exact ⟨packages, hok, readPackages_sorted hok, hperm, fun path _ p => manifest_of_declared?⟩
  · rw [hsplit] at hfind
    refine ⟨fun fault hfault => readPackages_of_fault hfind hbefore (.unread hfault),
      fun p q earlier hp hearlier hq hname => ?_⟩
    exact ⟨_, readPackages_of_fault hfind hbefore (.repeated hp hearlier hq hname), rfl, rfl, rfl⟩

/-- A tree in which a crate is declared twice, at one version: between the two declarations stands a
manifest without a package, and after them one that is no document. -/
def twiceDeclared : Memory :=
  .ofFiles [
    (⟨["repo", "a", "Cargo.toml"]⟩, "[package]\nname = 'base'\nversion = '1.0.0'\n"),
    (⟨["repo", "b", "Cargo.toml"]⟩, "[workspace]\n"),
    (⟨["repo", "c", "Cargo.toml"]⟩, "[package]\nname = 'base'\nversion = '1.0.0'\n"),
    (⟨["repo", "d", "Cargo.toml"]⟩, "[package\n")]

/-- A manifest of that tree. -/
def twiceDeclaredPath (folder : String) : Path :=
  ⟨["repo", folder, "Cargo.toml"]⟩

/-- A tree that declares a crate twice: the second declaration is reported with both places, and a
location that is not there is reported as missing. -/
theorem readPackages_twiceDeclared :
    (∃ problem, (readPackages twiceDeclared.source ⟨["none"]⟩ {}).outcome =
        .error (.discovery problem) ∧ problem.code = "MISSING_LOCATION") ∧
      twiceDeclared.find ⟨["repo"]⟩ "Cargo.toml" ({} : Settings).excludedDirs =
        .ok (["a", "b", "c", "d"].map twiceDeclaredPath) ∧
      Consistent twiceDeclared.source (["a", "b"].map twiceDeclaredPath) ∧
      ∃ problem, (readPackages twiceDeclared.source ⟨["repo"]⟩ {}).outcome =
        .error (.discovery problem) ∧ problem.code = "DUPLICATE_PACKAGE" ∧ problem.path = none ∧
        problem.details = ["repo/a/Cargo.toml", "repo/c/Cargo.toml"] := by
  have hnone : twiceDeclared.find ⟨["none"]⟩ "Cargo.toml" ({} : Settings).excludedDirs =
      .error (.noDirectoryAt ⟨["none"]⟩) := by rfl
  have hfind : twiceDeclared.find ⟨["repo"]⟩ "Cargo.toml" ({} : Settings).excludedDirs =
      .ok (["a", "b", "c", "d"].map twiceDeclaredPath) := by rfl
  have hbase (folder : String) (hfolder : folder ∈ ["a", "c"]) :
      readManifest twiceDeclared.source (twiceDeclaredPath folder) =
        .ok (some ⟨"base", ⟨1, 0, 0, "", ""⟩, twiceDeclaredPath folder, [], true⟩) := by
    rcases List.mem_pair.mp hfolder with rfl | rfl <;> decide +kernel
  have hbare : readManifest twiceDeclared.source (twiceDeclaredPath "b") = .ok none := by
    decide +kernel
  have hconsistent : Consistent twiceDeclared.source (["a", "b"].map twiceDeclaredPath) :=
    (((stocked_empty _).shelve (hbase "a" (by decide)) rfl).skip hbare).consistent
  obtain ⟨hmissing, hread⟩ := readPackages_outcome twiceDeclared ⟨["repo"]⟩ {}
  obtain ⟨-, -, -, -, hfirst⟩ := hread _ hfind
  have hrepeated := (hfirst _ _ _ rfl hconsistent).2 _ _ _ (hbase "c" (by decide))
    List.mem_cons_self (declared?_of_read (hbase "a" (by decide))) rfl
  exact ⟨(readPackages_outcome twiceDeclared ⟨["none"]⟩ {}).1.mpr ⟨_, hnone⟩, hfind, hconsistent,
    hrepeated⟩

end Discovery

end CrateGate
