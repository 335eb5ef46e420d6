import CrateGate.Proofs.Files.Tree
import Mathlib.Data.List.Nodup

/-!
# Laying out a tree

Files in memory can be laid out as a tree of directories if their paths can be: they go down by
names that a disk can have, and none of them is the beginning of another (`Memory.Laid`). One file
more changes what stands on the way to it and below it, and nothing else (`at?_put_of_apart`), so
the tree that is made file by file holds exactly those files (`Memory.Laid.holds`).
-/

namespace CrateGate.Files

namespace Entry

variable {e new tree : Entry} {names more way : List String} {name : String}
  {children : List (String × Entry)} {bytes : ByteArray} {files : List (List String × ByteArray)}

/-! ## Putting an entry -/

/-- The first child of a name hides all others of that name, and no children of another name. -/
lemma lookup_cons_eq (m n : String) (e : Entry) (rest : List (String × Entry)) :
    ((m, e) :: rest).lookup n = if n = m then some e else rest.lookup n := by
  rw [List.lookup_cons]
  by_cases hn : n = m
  · simp [hn]
  · simp [hn, beq_eq_false_iff_ne.mpr hn]

/-- A child that is put into a directory is found there afterwards, and all others are found as
before. -/
lemma lookup_setChild (name n : String) (e : Entry) (children : List (String × Entry)) :
    (setChild name e children).lookup n = if n = name then some e else children.lookup n := by
  induction children with
  | nil => exact lookup_cons_eq name n e []
  | cons child rest ih =>
    obtain ⟨m, old⟩ := child
    rw [setChild, lookup_cons_eq]
    split
    · next hm =>
      subst hm
      rw [lookup_cons_eq]
      split <;> rfl
    · next hm =>
      rw [lookup_cons_eq, ih]
      by_cases hn : n = m
      · rw [if_pos hn, if_pos hn, if_neg (hn ▸ hm)]
      · rw [if_neg hn, if_neg hn]

/-- Putting a child into a directory brings in its name at most. -/
lemma mem_map_fst_setChild {n : String} (h : n ∈ (setChild name e children).map (·.1)) :
    n = name ∨ n ∈ children.map (·.1) := by
  induction children with
  | nil => simpa [setChild] using h
  | cons child rest ih =>
    rw [setChild] at h
    split at h
    · next hm =>
      rcases List.mem_cons.mp h with rfl | h
      · exact .inl rfl
      · exact .inr (List.mem_cons_of_mem _ h)
    · rcases List.mem_cons.mp h with rfl | h
      · exact .inr List.mem_cons_self
      · exact (ih h).imp_right (List.mem_cons_of_mem _)

/-- Putting a child in by its name makes no name occur twice, as a child of that name is
replaced. -/
lemma nodup_setChild (h : (children.map (·.1)).Nodup) :
    ((setChild name e children).map (·.1)).Nodup := by
  induction children with
  | nil => exact List.nodup_singleton _
  | cons child rest ih =>
    obtain ⟨hnotMem, hrest⟩ := List.nodup_cons.mp h
    rw [setChild]
    split
    · next hm => exact List.nodup_cons.mpr ⟨hm ▸ hnotMem, hrest⟩
    · next hm =>
      refine List.nodup_cons.mpr ⟨fun hmem => ?_, ih hrest⟩
      exact (mem_map_fst_setChild hmem).elim hm hnotMem

/-- A way down first takes the child of the first name, and goes on from there; a file has no
children. -/
lemma at?_cons (name : String) (names : List String) (e : Entry) :
    e.at? (name :: names) = (e.children.lookup name).bind (at? names) := by
  cases e <;> rfl

/-- Putting an entry deep into a tree changes only the child on the way to it, and that one in the
same manner. -/
lemma at?_put_cons (n : String) :
    (new.put (name :: names) e).at? (n :: way) =
      if n = name then (new.put names ((e.children.lookup name).getD (folder []))).at? way
      else e.at? (n :: way) := by
  rw [at?_cons n way e, put, at?_cons]
  simp only [Entry.children, lookup_setChild]
  split <;> rfl

/-- Below the place of a new entry stands what stands in the entry. -/
lemma at?_put_append : (new.put names e).at? (names ++ more) = new.at? more := by
  induction names generalizing e with
  | nil => rfl
  | cons name names ih => rw [List.cons_append, at?_put_cons, if_pos rfl, ih]

/-- On the way to a new entry stand directories. -/
lemma exists_folder_put (new e : Entry) (names : List String) (name : String)
    (more : List String) :
    ∃ children, (new.put (names ++ name :: more) e).at? names = some (folder children) := by
  induction names generalizing e with
  | nil => exact ⟨_, rfl⟩
  | cons n names ih =>
    rw [List.cons_append, at?_put_cons, if_pos rfl]
    exact ih _

/-- Elsewhere nothing is changed. -/
lemma at?_put_of_apart (h : ¬names <+: way) (h' : ¬way <+: names) :
    (new.put names e).at? way = e.at? way := by
  induction names generalizing e way with
  | nil => exact absurd List.nil_prefix h
  | cons name names ih =>
    cases way with
    | nil => exact absurd List.nil_prefix h'
    | cons n way =>
      rw [at?_put_cons]
      split
      · next hn =>
        subst hn
        have hnames : ¬names <+: way := fun hp => h (List.cons_prefix_cons.mpr ⟨rfl, hp⟩)
        have hway : ¬way <+: names := fun hp => h' (List.cons_prefix_cons.mpr ⟨rfl, hp⟩)
        rw [ih hnames hway, at?_cons]
        cases e.children.lookup n with
        | some child => rfl
        | none =>
          -- a new directory is empty
          cases way with
          | nil => exact absurd List.nil_prefix hway
          | cons n way => rfl
      · rfl

/-- A tree in which no name stands twice in a directory stays so when another one of that sort is
put into it. -/
lemma Distinct.put (h : e.Distinct) (hnew : new.Distinct) : (new.put names e).Distinct := by
  induction names generalizing e with
  | nil => exact hnew
  | cons name names ih =>
    have hchild : ((e.children.lookup name).getD (folder [])).Distinct := by
      cases hlookup : e.children.lookup name with
      | none =>
        intro way children hat
        cases way with
        | nil =>
          cases hat
          exact List.nodup_nil
        | cons n way => cases hat
      | some child =>
        intro way children hat
        refine h (name :: way) children ?_
        rw [Entry.at?_cons, hlookup]
        exact hat
    intro way children hat
    cases way with
    | nil =>
      cases hat
      refine nodup_setChild ?_
      cases e with
      | file bytes => exact List.nodup_nil
      | folder children => exact h [] children rfl
    | cons n way =>
      rw [at?_put_cons] at hat
      split at hat
      · exact ih hchild way children hat
      · exact h (n :: way) children hat

/-! ## File by file -/

/-- A tree of these files at the end of their ways, with no directory besides those on the ways. -/
structure Layout (tree : Entry) (files : List (List String × ByteArray)) : Prop where
  folder : tree.isFolder = true
  distinct : tree.Distinct
  file_iff : ∀ way bytes, tree.at? way = some (.file bytes) ↔ (way, bytes) ∈ files
  inhabited : ∀ way children, tree.at? way = some (.folder children) →
    way = [] ∨ ∃ more bytes, (way ++ more, bytes) ∈ files

/-- Before any file is written there is an empty directory, which is a layout of no files. -/
lemma layout_nil : Layout (.folder []) [] := by
  refine ⟨rfl, fun way children hat => ?_, fun way bytes => ?_, fun way children hat => ?_⟩
  · cases way with
    | nil =>
      cases hat
      exact List.nodup_nil
    | cons n way => cases hat
  · cases way <;> simp [at?]
  · cases way with
    | nil => exact .inl rfl
    | cons n way => cases hat

/-- Where a way leads once a file has been put: past the file, to it, on the way to it, or
elsewhere. -/
lemma at?_put_file_cases (bytes : ByteArray) (tree : Entry) (way q : List String) :
    (∃ name more, q = way ++ name :: more ∧ ((Entry.file bytes).put way tree).at? q = none) ∨
    (q = way ∧ ((Entry.file bytes).put way tree).at? q = some (.file bytes)) ∨
    (∃ name more children, way = q ++ name :: more ∧
      ((Entry.file bytes).put way tree).at? q = some (.folder children)) ∨
    (¬way <+: q ∧ ¬q <+: way ∧ ((Entry.file bytes).put way tree).at? q = tree.at? q) := by
  by_cases hpast : way <+: q
  · obtain ⟨more, rfl⟩ := hpast
    cases more with
    | nil => exact .inr (.inl ⟨List.append_nil _, at?_put_append⟩)
    | cons name more => exact .inl ⟨name, more, rfl, at?_put_append⟩
  · by_cases htowards : q <+: way
    · obtain ⟨more, rfl⟩ := htowards
      cases more with
      | nil => exact absurd (List.prefix_refl _) (by rwa [List.append_nil] at hpast)
      | cons name more =>
        obtain ⟨children, hat⟩ := exists_folder_put (.file bytes) tree q name more
        exact .inr (.inr (.inl ⟨name, more, children, rfl, hat⟩))
    · exact .inr (.inr (.inr ⟨hpast, htowards, at?_put_of_apart hpast htowards⟩))

/-- **One file more** on a way apart from those of the others. -/
lemma Layout.put (h : Layout tree files) (hway : way ≠ [])
    (hapart : ∀ f ∈ files, ¬way <+: f.1 ∧ ¬f.1 <+: way) :
    Layout ((Entry.file bytes).put way tree) ((way, bytes) :: files) := by
  have hfile : (Entry.file bytes).Distinct := fun way children hat => by
    cases way <;> cases hat
  refine ⟨?_, h.distinct.put hfile, fun q c => ?_, fun q children hat => ?_⟩
  · cases way with
    | nil => exact absurd rfl hway
    | cons name names => rfl
  · rw [List.mem_cons, Prod.mk.injEq]
    rcases at?_put_file_cases bytes tree way q with ⟨name, more, rfl, hat⟩ | ⟨rfl, hat⟩ |
      ⟨name, more, children, rfl, hat⟩ | ⟨hpast, -, hat⟩
    · have hnot : (way ++ name :: more, c) ∉ files :=
        fun hmem => (hapart _ hmem).1 (List.prefix_append _ _)
      simp [hat, hnot]
    · have hnot : (q, c) ∉ files := fun hmem => (hapart _ hmem).1 (List.prefix_refl _)
      simp [hat, hnot, eq_comm]
    · have hnot : (q, c) ∉ files := fun hmem => (hapart _ hmem).2 (List.prefix_append _ _)
      simp [hat, hnot]
    · have hne : q ≠ way := fun heq => hpast (heq ▸ List.prefix_refl _)
      simp [hat, hne, h.file_iff]
  · rcases at?_put_file_cases bytes tree way q with ⟨name, more, rfl, hq⟩ | ⟨rfl, hq⟩ |
      ⟨name, more, below, rfl, -⟩ | ⟨-, -, hq⟩
    · rw [hq] at hat
      cases hat
    · rw [hq] at hat
      cases hat
    · exact .inr ⟨name :: more, bytes, List.mem_cons_self⟩
    · obtain hnil | ⟨more, c, hmem⟩ := h.inhabited q children (hq.symm.trans hat)
      · exact .inl hnil
      · exact .inr ⟨more, c, List.mem_cons_of_mem _ hmem⟩

end Entry

namespace Memory

open Entry

variable {m : Memory} {way : List String} {bytes : ByteArray}

/-- Files that can be laid out as a tree: there is one at least, the paths go down by names that a
disk can have, and none is the beginning of another. -/
structure Laid (m : Memory) : Prop where
  nonempty : m.keys ≠ []
  ne_here : ∀ p ∈ m.keys, p.parts ≠ []
  proper : ∀ p ∈ m.keys, ∀ part ∈ p.parts, ProperName part
  apart : ∀ p ∈ m.keys, ∀ q ∈ m.keys, p.parts <+: q.parts → p = q

/-- The files of a tree in memory, each as the way to it and its bytes. -/
def files (m : Memory) : List (List String × ByteArray) :=
  m.toList.map fun f => (f.1.parts, f.2.toUTF8)

/-- The files of a memory are its paths with the bytes of their texts, and no others. -/
lemma mem_files_iff : (way, bytes) ∈ m.files ↔
    ∃ text, m.get? ⟨way⟩ = some text ∧ bytes = text.toUTF8 := by
  rw [files, List.mem_map]
  constructor
  · rintro ⟨⟨p, text⟩, hf, heq⟩
    obtain ⟨rfl, rfl⟩ := Prod.mk.inj heq
    exact ⟨text, SortedMap.mem_toList_iff.mp hf, rfl⟩
  · rintro ⟨text, hget, rfl⟩
    exact ⟨(⟨way⟩, text), SortedMap.mem_toList_iff.mpr hget, rfl⟩

/-- The tree of directories in which the files of a tree in memory lie. -/
def layOut (m : Memory) : Entry :=
  m.files.foldr (fun file tree => (Entry.file file.2).put file.1 tree) (.folder [])

/-- Files of which none lies on the way to another one can be written one after another, and all of
them are there in the end. -/
lemma layout_foldr (files : List (List String × ByteArray))
    (hapart : files.Pairwise fun f g => ¬f.1 <+: g.1 ∧ ¬g.1 <+: f.1)
    (hne : ∀ f ∈ files, f.1 ≠ []) :
    Layout (files.foldr (fun file tree => (Entry.file file.2).put file.1 tree) (.folder []))
      files := by
  induction files with
  | nil => exact layout_nil
  | cons f files ih =>
    obtain ⟨hfirst, hapart⟩ := List.pairwise_cons.mp hapart
    obtain ⟨hparts, hne⟩ := List.forall_mem_cons.mp hne
    exact (ih hapart hne).put hparts hfirst

namespace Laid

/-- The tree of a memory that can be laid out holds its files, each at its path, and nothing else
but the directories on the way. -/
lemma layout (h : m.Laid) : Layout m.layOut m.files := by
  have hkey {f : Path × String} (hf : f ∈ m.toList) : f.1 ∈ m.keys := List.mem_map_of_mem hf
  refine layout_foldr m.files (List.pairwise_map.mpr ?_) fun f hf => ?_
  · refine m.ordered.imp_of_mem fun {f g} hf hg hlt => ⟨fun hprefix => ?_, fun hprefix => ?_⟩
    · exact Std.ne_of_lt hlt (h.apart f.1 (hkey hf) g.1 (hkey hg) hprefix)
    · exact Std.ne_of_lt hlt (h.apart g.1 (hkey hg) f.1 (hkey hf) hprefix).symm
  · obtain ⟨file, hfile, rfl⟩ := List.mem_map.mp hf
    exact h.ne_here file.1 (hkey hfile)

/-- The names on the way to a file are names that a disk can have. -/
lemma properName {more : List String} {name : String} (h : m.Laid)
    (hfile : (way ++ [name] ++ more, bytes) ∈ m.files) : ProperName name := by
  obtain ⟨text, hget, -⟩ := mem_files_iff.mp hfile
  refine h.proper _ (SortedMap.mem_keys_iff.mpr ⟨text, hget⟩) name ?_
  simp

/-- **The tree that is laid out holds the files.** -/
theorem holds (h : m.Laid) : m.layOut.Holds m := by
  have hlayout := h.layout
  refine ⟨hlayout.folder, hlayout.distinct, fun way children hat child hchild => ?_,
    fun way children hat => ?_, fun way bytes => (hlayout.file_iff way bytes).trans mem_files_iff⟩
  · have hlookup : m.layOut.at? (way ++ [child.1]) = some child.2 := by
      rw [at?_concat hat]
      exact lookup_eq_some_of_mem (hlayout.distinct way children hat) hchild
    cases hentry : child.2 with
    | file bytes =>
      rw [hentry, ← List.append_nil (way ++ [child.1])] at hlookup
      exact h.properName ((hlayout.file_iff _ _).mp hlookup)
    | folder below =>
      rw [hentry] at hlookup
      obtain hnil | ⟨more, bytes, hfile⟩ := hlayout.inhabited _ below hlookup
      · exact absurd hnil (List.append_ne_nil_of_right_ne_nil _ (List.cons_ne_nil _ _))
      · exact h.properName hfile
  · obtain rfl | ⟨more, bytes, hfile⟩ := hlayout.inhabited way children hat
    · -- the top directory is inhabited because there is a file
      obtain ⟨p, hp⟩ := List.exists_mem_of_ne_nil _ h.nonempty
      obtain ⟨text, hget⟩ := SortedMap.mem_keys_iff.mp hp
      exact ⟨p.parts, text.toUTF8,
        (hlayout.file_iff _ _).mpr (mem_files_iff.mpr ⟨text, hget, rfl⟩)⟩
    · exact ⟨more, bytes, (hlayout.file_iff _ _).mpr hfile⟩

end Laid

end Memory

end CrateGate.Files
