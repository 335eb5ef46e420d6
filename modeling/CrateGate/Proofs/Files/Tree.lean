import CrateGate.Files.Disk
import CrateGate.Files.Memory
import Mathlib.Tactic.Lemma

/-!
# Ways down a tree

A tree of directories is known by what stands at the end of each way down. Where no directory has
two entries of one name, the directories that a walk over the tree meets are those at which a way
ends (`mem_folders_iff`). A tree holds the same files as a tree in memory if its ways to files are
the paths there, and if no directory is without a file (`Holds`): then the directories are the
proper beginnings of the paths.
-/

namespace CrateGate.Files.Entry

variable {e tree : Entry} {names more way : List String} {name : String} {path q : Path}
  {children : List (String × Entry)} {bytes : ByteArray} {m : Memory}

/-! ## Ways -/

/-- A way down can be cut anywhere: the second part is gone from where the first one leads. -/
lemma at?_append (names more : List String) (e : Entry) :
    e.at? (names ++ more) = (e.at? names).bind (at? more) := by
  induction names generalizing e with
  | nil => rfl
  | cons name names ih =>
    cases e with
    | file bytes => rfl
    | folder children =>
      rw [List.cons_append, at?, at?]
      cases children.lookup name with
      | none => rfl
      | some child => exact ih child

/-- What stands below an entry stands there in the tree. -/
lemma at?_append_of_eq_some (h : tree.at? names = some e) (more : List String) :
    tree.at? (names ++ more) = e.at? more := by
  rw [at?_append, h]
  rfl

/-- The last step of a way takes a child of the directory that the steps before it lead to. -/
lemma at?_concat (h : e.at? names = some (folder children)) :
    e.at? (names ++ [name]) = children.lookup name := by
  rw [at?_append_of_eq_some h]
  change (children.lookup name).bind (at? []) = children.lookup name
  cases children.lookup name <;> rfl

/-- Whatever stands on the way to an entry below is a directory. -/
lemma exists_folder_of_at?_append (h : (e.at? (names ++ name :: more)).isSome) :
    ∃ children, e.at? names = some (folder children) := by
  rw [at?_append] at h
  cases hat : e.at? names with
  | none =>
    rw [hat] at h
    cases h
  | some child =>
    cases child with
    | file bytes =>
      rw [hat] at h
      cases h
    | folder children => exact ⟨children, rfl⟩

/-! ## Walking over a tree -/

/-- No directory of a tree has two entries of one name. -/
def Distinct (e : Entry) : Prop :=
  ∀ way children, e.at? way = some (folder children) → (children.map (·.1)).Nodup

/-- Where no name stands twice, every child is found by its name. -/
lemma lookup_eq_some_of_mem (h : (children.map (·.1)).Nodup) (hmem : (name, e) ∈ children) :
    children.lookup name = some e := by
  obtain ⟨left, right, rfl⟩ := List.append_of_mem hmem
  refine List.lookup_eq_some_iff.mpr ⟨left, right, rfl, fun child hchild => ?_⟩
  rw [List.map_append, List.nodup_append] at h
  rw [bne_iff_ne]
  exact fun heq => h.2.2 child.1 (List.mem_map_of_mem hchild) name List.mem_cons_self heq.symm

/-- What is found by a name is a child of that name. -/
lemma mem_of_lookup_eq_some (h : children.lookup name = some e) : (name, e) ∈ children := by
  obtain ⟨left, right, rfl, -⟩ := List.lookup_eq_some_iff.mp h
  exact List.mem_append_right _ List.mem_cons_self

/-- Ways down a child are ways down its directory. -/
lemma Distinct.at?_cons (h : (folder children).Distinct) (hmem : (name, e) ∈ children) :
    (folder children).at? (name :: way) = e.at? way := by
  rw [at?, lookup_eq_some_of_mem (h [] children rfl) hmem]
  rfl

/-- What holds of a whole tree holds of each child: there is no name twice in its directories
either. -/
lemma Distinct.child (h : (folder children).Distinct) (hmem : (name, e) ∈ children) :
    e.Distinct :=
  fun way below hat => h (name :: way) below ((h.at?_cons hmem).trans hat)

mutual

/-- Every directory that the walk over a tree lists lies at the end of a way down from where the
walk begins. -/
lemma exists_way_of_mem_folders : ∀ (path : Path) (e : Entry), e.Distinct → q ∈ folders path e →
    ∃ way children, e.at? way = some (folder children) ∧ q = ⟨path.parts ++ way⟩
  | path, file _, _, hq => by cases hq
  | path, folder children, hdistinct, hq => by
    rcases List.mem_cons.mp hq with rfl | hq
    · exact ⟨[], children, rfl, by rw [List.append_nil]⟩
    · obtain ⟨name, e, hmem, way, below, hat, rfl⟩ := exists_way_of_mem_foldersIn path children
        (fun name e hmem => hdistinct.child hmem) hq
      exact ⟨name :: way, below, (hdistinct.at?_cons hmem).trans hat, rfl⟩

/-- The same for a list of children: what the walk lists of them lies below one of them. -/
lemma exists_way_of_mem_foldersIn : ∀ (path : Path) (children : List (String × Entry)),
    (∀ name e, (name, e) ∈ children → e.Distinct) → q ∈ foldersIn path children →
    ∃ name e, (name, e) ∈ children ∧ ∃ way below, e.at? way = some (folder below) ∧
      q = ⟨path.parts ++ name :: way⟩
  | path, [], _, hq => by cases hq
  | path, (name, e) :: rest, hdistinct, hq => by
    rcases List.mem_append.mp hq with hq | hq
    · obtain ⟨way, below, hat, rfl⟩ := exists_way_of_mem_folders (path.child name) e
        (hdistinct name e List.mem_cons_self) hq
      exact ⟨name, e, List.mem_cons_self, way, below, hat, by simp [Path.child]⟩
    · obtain ⟨name', e', hmem, hway⟩ := exists_way_of_mem_foldersIn path rest
        (fun name e hmem => hdistinct name e (List.mem_cons_of_mem _ hmem)) hq
      exact ⟨name', e', List.mem_cons_of_mem _ hmem, hway⟩

end

/-- The walk over children lists what the walk over each of them does. -/
lemma mem_foldersIn_of_mem (hmem : (name, e) ∈ children) (hq : q ∈ folders (path.child name) e) :
    q ∈ foldersIn path children := by
  induction children with
  | nil => cases hmem
  | cons child rest ih =>
    rw [foldersIn]
    rcases List.mem_cons.mp hmem with rfl | hmem
    · exact List.mem_append_left _ hq
    · exact List.mem_append_right _ (ih hmem)

/-- The walk over a tree lists every directory at the end of a way down. -/
lemma mem_folders_of_at? (h : e.at? way = some (folder children)) :
    ⟨path.parts ++ way⟩ ∈ folders path e := by
  induction way generalizing e path with
  | nil =>
    obtain rfl : e = folder children := Option.some.inj h
    rw [folders, List.append_nil]
    exact List.mem_cons_self
  | cons name way ih =>
    cases e with
    | file bytes => cases h
    | folder others =>
      obtain ⟨child, hlookup, hat⟩ := Option.bind_eq_some_iff.mp h
      have hmem : ⟨(path.child name).parts ++ way⟩ ∈ folders (path.child name) child := ih hat
      rw [Path.child, List.append_assoc, List.singleton_append] at hmem
      rw [folders]
      exact List.mem_cons_of_mem _ (mem_foldersIn_of_mem (mem_of_lookup_eq_some hlookup) hmem)

/-- **The directories that are met are those at which a way down ends.** -/
lemma Distinct.mem_folders_iff (h : e.Distinct) :
    q ∈ folders path e ↔
      ∃ way children, e.at? way = some (folder children) ∧ q = ⟨path.parts ++ way⟩ := by
  constructor
  · exact exists_way_of_mem_folders path e h
  · rintro ⟨way, children, hat, rfl⟩
    exact mem_folders_of_at? hat

/-! ## Trees that hold the same files -/

/-- What a disk can have as a name: it is not the way up, and holds neither a slash nor the
character zero. -/
structure ProperName (name : String) : Prop where
  ne_up : name ≠ ".."
  slash : '/' ∉ name.toList
  zero : '\x00' ∉ name.toList

instance : DecidablePred ProperName := fun name =>
  decidable_of_iff (name ≠ ".." ∧ '/' ∉ name.toList ∧ '\x00' ∉ name.toList)
    ⟨fun h => ⟨h.1, h.2.1, h.2.2⟩, fun h => ⟨h.ne_up, h.slash, h.zero⟩⟩

/-- A tree as a disk can have it: no directory has two entries of one name, and the names are ones
that a disk can have. -/
structure Sound (tree : Entry) : Prop where
  distinct : tree.Distinct
  proper : ∀ way children, tree.at? way = some (.folder children) →
    ∀ child ∈ children, ProperName child.1

/-- All parts of a way that leads somewhere are proper names. -/
lemma Sound.properName (h : tree.Sound) (hat : (tree.at? way).isSome) :
    ∀ name ∈ way, ProperName name := by
  intro name hname
  obtain ⟨before, after, rfl⟩ := List.append_of_mem hname
  obtain ⟨children, hfolder⟩ := exists_folder_of_at?_append hat
  rw [List.append_cons, at?_append] at hat
  cases hlookup : tree.at? (before ++ [name]) with
  | none =>
    rw [hlookup] at hat
    cases hat
  | some e =>
    rw [at?_concat hfolder] at hlookup
    exact h.proper before children hfolder (name, e) (mem_of_lookup_eq_some hlookup)

/-- What stands in a sound tree is a sound tree. -/
lemma Sound.below (h : tree.Sound) (hat : tree.at? way = some e) : e.Sound := by
  have hbelow := at?_append_of_eq_some hat
  exact ⟨fun more children hmore => h.distinct (way ++ more) children ((hbelow more).trans hmore),
    fun more children hmore => h.proper (way ++ more) children ((hbelow more).trans hmore)⟩

/-- A tree of directories holds the files of a tree in memory, and has no directory besides those in
which they lie. -/
structure Holds (tree : Entry) (m : Memory) : Prop where
  folder : tree.isFolder = true
  distinct : tree.Distinct
  proper : ∀ way children, tree.at? way = some (.folder children) →
    ∀ child ∈ children, ProperName child.1
  inhabited : ∀ way children, tree.at? way = some (.folder children) →
    ∃ more bytes, tree.at? (way ++ more) = some (.file bytes)
  file_iff : ∀ way bytes, tree.at? way = some (.file bytes) ↔
    ∃ text, m.get? ⟨way⟩ = some text ∧ bytes = text.toUTF8

namespace Holds

/-- A tree that holds a memory can be searched: its names are proper ones and none stands twice in a
directory. -/
lemma sound (h : Holds tree m) : tree.Sound :=
  ⟨h.distinct, h.proper⟩

/-- All parts of a way that leads somewhere are proper names. -/
lemma properName (h : Holds tree m) (hat : (tree.at? way).isSome) :
    ∀ name ∈ way, ProperName name :=
  h.sound.properName hat

/-- Paths in memory are ways to files. -/
lemma get?_eq_some_iff (h : Holds tree m) {text : String} :
    m.get? ⟨way⟩ = some text ↔ tree.at? way = some (.file text.toUTF8) := by
  constructor
  · exact fun hget => (h.file_iff way _).mpr ⟨text, hget, rfl⟩
  · intro hat
    obtain ⟨text', hget, hbytes⟩ := (h.file_iff way _).mp hat
    rw [hget, String.toByteArray_inj.mp hbytes]

end Holds

end CrateGate.Files.Entry
