import CrateGate.Files.Memory
import Mathlib.Tactic.Lemma

/-!
# What is looked for in memory

A location is a directory of a tree in memory if it is no file and a file lies below it
(`Memory.IsDirectory`). There a search comes to the files that are selected: those of the name below
the location, by ways through no excluded directory (`Selected`, `Memory.find_of_isDirectory`). The
parts of the location itself do not count, and no other file does (`Memory.selection_eq_iff`).
-/

namespace CrateGate

namespace Path

variable {root p : Path} {way between : List String} {last : String}

/-- A path lies below a root, by a way from there. No absolute path lies below the path of no
parts. -/
def Below (root p : Path) (way : List String) : Prop :=
  p.parts = root.parts ++ way ∧ (root.parts = [] → p.isAbsolute = false)

/-- The way down from one path to another is what remains of the second one if the first starts
it. -/
lemma below?_eq_some_iff : root.below? p = some way ↔ root.Below p way := by
  have hdrop : root.parts.isPrefixOf p.parts = true ∧ p.parts.drop root.parts.length = way ↔
      p.parts = root.parts ++ way := by
    rw [List.isPrefixOf_iff_prefix]
    constructor
    · rintro ⟨hleft, rfl⟩
      exact (List.prefix_iff_eq_append.mp hleft).symm
    · intro hparts
      rw [hparts]
      exact ⟨List.prefix_append _ _, List.drop_left⟩
  have hskip : (root.parts.isEmpty && p.isAbsolute) = false ↔
      (root.parts = [] → p.isAbsolute = false) := by
    cases root.parts <;> simp
  rw [Below, below?, ← hdrop, ← hskip]
  cases root.parts.isEmpty && p.isAbsolute <;> simp

/-- The name of a path is the last part of the way to it. -/
lemma Below.name_eq (h : root.Below p (between ++ [last])) : p.name = last := by
  obtain ⟨hparts, hrelative⟩ := h
  have hnoRoot : (decide (p.parts.length = 1) && isRoot last) = false := by
    rw [Bool.and_eq_false_imp, decide_eq_true_eq]
    intro hlength
    rw [hparts, List.length_append, List.length_append, List.length_singleton] at hlength
    have hroot : root.parts = [] := List.length_eq_zero_iff.mp (by omega)
    have hbetween : between = [] := List.length_eq_zero_iff.mp (by omega)
    have habsolute := hrelative hroot
    rwa [isAbsolute, hparts, hroot, hbetween] at habsolute
  rw [name, hparts, ← List.append_assoc, List.getLast?_concat, List.append_assoc, ← hparts]
  simp only [hnoRoot, Bool.false_eq_true, if_false]

end Path

namespace Files

variable {m m' : Memory} {location p : Path} {name : Text} {text : String}
  {excluded : List Text}

/-- A path is looked for at a location: it ends in the name, and no part of it between the location
and the name is excluded. -/
def Selected (location : Path) (name : Text) (excluded : List Text) (p : Path) : Prop :=
  ∃ (between : List String) (last : String), location.Below p (between ++ [last]) ∧
    (last : Text) = name ∧ ∀ part ∈ between, (part : Text) ∉ excluded

/-- A way passes through an excluded directory if a part of it before the last is one. -/
lemma passesThrough_concat_eq_false_iff {between : List String} {last : String} :
    Path.passesThrough excluded (between ++ [last]) = false ↔
      ∀ part ∈ between, (part : Text) ∉ excluded := by
  simp [Path.passesThrough]

namespace Memory

/-- A location is a directory: it is no file, and a file lies below it. -/
structure IsDirectory (m : Memory) (location : Path) : Prop where
  notFile : m.get? location = none
  inhabited : ∃ p text way, m.get? p = some text ∧ location.Below p way

/-- The test that a search makes of a path other than its location is what it means to be
selected. -/
lemma isSelected_iff (hne : p ≠ location) :
    isSelected location name excluded p = true ↔ Selected location name excluded p := by
  rw [isSelected, Bool.and_eq_true, decide_eq_true_eq, Option.any_eq_true]
  constructor
  · rintro ⟨hname, way, hbelow, hway⟩
    rw [Path.below?_eq_some_iff] at hbelow
    rcases List.eq_nil_or_concat way with rfl | ⟨between, last, rfl⟩
    · exact absurd (Path.ext (by simpa using hbelow.1)) hne
    · rw [List.concat_eq_append] at hbelow hway
      rw [hbelow.name_eq] at hname
      exact ⟨between, last, hbelow, hname,
        passesThrough_concat_eq_false_iff.mp (by simpa using hway)⟩
  · rintro ⟨between, last, hbelow, hname, hbetween⟩
    refine ⟨hbelow.name_eq ▸ hname, between ++ [last], Path.below?_eq_some_iff.mpr hbelow, ?_⟩
    rw [passesThrough_concat_eq_false_iff.mpr hbetween]
    rfl

/-- The files that a search comes to, by path. -/
def selection (m : Memory) (location : Path) (name : Text) (excluded : List Text) :
    List (Path × String) :=
  m.toList.filter fun file => isSelected location name excluded file.1

/-- The texts of these files. -/
def selectedTexts (m : Memory) (location : Path) (name : Text) (excluded : List Text) :
    List String :=
  (m.selection location name excluded).map (·.2)

/-- Below a directory the selection has just the files that are there, have the name, and lie in no
excluded directory. -/
lemma mem_selection (h : m.IsDirectory location) :
    (p, text) ∈ m.selection location name excluded ↔
      m.get? p = some text ∧ Selected location name excluded p := by
  rw [selection, List.mem_filter, SortedMap.mem_toList_iff]
  refine and_congr_right fun hget => isSelected_iff ?_
  rintro rfl
  rw [h.notFile] at hget
  cases hget

/-- The paths of the files that a search comes to. -/
lemma mem_map_selection (h : m.IsDirectory location) :
    p ∈ (m.selection location name excluded).map (·.1) ↔
      (∃ text, m.get? p = some text) ∧ Selected location name excluded p := by
  rw [List.mem_map]
  constructor
  · rintro ⟨⟨p, text⟩, hfile, rfl⟩
    obtain ⟨hget, hselected⟩ := (mem_selection h).mp hfile
    exact ⟨⟨text, hget⟩, hselected⟩
  · rintro ⟨⟨text, hget⟩, hselected⟩
    exact ⟨(p, text), (mem_selection h).mpr ⟨hget, hselected⟩, rfl⟩

/-- The selection comes in strictly increasing order of its paths, since the files of a memory
do. -/
lemma pairwise_selection (m : Memory) (location : Path) (name : Text) (excluded : List Text) :
    ((m.selection location name excluded).map (·.1)).Pairwise (· < ·) :=
  List.pairwise_map.mpr (m.ordered.filter _)

/-- **At a directory a search comes to the selected files.** -/
lemma find_of_isDirectory (h : m.IsDirectory location) (name : Text) (excluded : List Text) :
    m.find location name excluded = .ok ((m.selection location name excluded).map (·.1)) := by
  obtain ⟨p, text, way, hget, hbelow⟩ := h.inhabited
  have hunder : m.keys.any (isUnder location) = true := by
    refine List.any_eq_true.mpr ⟨p, SortedMap.mem_keys_iff.mpr ⟨text, hget⟩, ?_⟩
    rw [isUnder, Path.below?_eq_some_iff.mpr hbelow]
    rfl
  rw [find, h.notFile, hunder, SortedMap.keys, List.filter_map]
  rfl

/-- Anywhere else a search goes wrong. -/
lemma find_of_not_isDirectory (h : ¬m.IsDirectory location) (name : Text)
    (excluded : List Text) : m.find location name excluded = .error (.noDirectoryAt location) := by
  unfold find
  split
  · rfl
  · next hdirectory =>
    simp only [Bool.or_eq_true, not_or, Bool.not_eq_true, Bool.not_eq_false',
      Option.isSome_eq_false_iff, Option.isNone_iff_eq_none, List.any_eq_true] at hdirectory
    obtain ⟨hnotFile, p, hp, hunder⟩ := hdirectory
    obtain ⟨text, hget⟩ := SortedMap.mem_keys_iff.mp hp
    obtain ⟨way, hbelow⟩ := Option.isSome_iff_exists.mp hunder
    exact absurd ⟨hnotFile, p, text, way, hget, Path.below?_eq_some_iff.mp hbelow⟩ h

/-- **Trees have the same selection if and only if they agree on what is selected.** -/
lemma selection_eq_iff (h : m.IsDirectory location) (h' : m'.IsDirectory location) :
    m.selection location name excluded = m'.selection location name excluded ↔
      ∀ p, Selected location name excluded p → m.get? p = m'.get? p := by
  constructor
  · intro heq p hselected
    refine Option.ext fun text => ?_
    have hfile : (p, text) ∈ m.selection location name excluded ↔
        (p, text) ∈ m'.selection location name excluded := by rw [heq]
    simpa [mem_selection h, mem_selection h', hselected] using hfile
  · intro hsame
    refine SortedMap.eq_of_mem_iff (m.ordered.filter _) (m'.ordered.filter _) fun file => ?_
    obtain ⟨p, text⟩ := file
    rw [mem_selection h, mem_selection h']
    exact and_congr_left fun hselected => by rw [hsame p hselected]

/-- A directory stays one if a file is written elsewhere. -/
lemma IsDirectory.write (h : m.IsDirectory location) (hne : p ≠ location) (text : String) :
    (m.write p text).IsDirectory location := by
  obtain ⟨q, old, way, hget, hbelow⟩ := h.inhabited
  refine ⟨?_, q, (if q = p then text else old), way, ?_, hbelow⟩
  · rw [Memory.write, SortedMap.get?_insert, if_neg (Ne.symm hne)]
    exact h.notFile
  · rw [Memory.write, SortedMap.get?_insert]
    split
    · rfl
    · exact hget

end Memory

end Files

end CrateGate
