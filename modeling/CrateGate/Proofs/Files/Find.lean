import CrateGate.Proofs.Files.Patterns
import Mathlib.Data.List.Sort

/-!
# Looking for files

A search for a name finds the files of that name below a location, outside the excluded directories,
each once and by path (`Finds`). That determines the outcome, so a search on disk (`find_cases`) and
one in memory (`Memory.find_of_folder`) of trees that hold the same files come to the same, unless a
path that is looked up on disk is too long.
-/

namespace CrateGate.Files

open Entry

variable {d : Disk} {tree : Entry} {m : Memory} {p q location : Path}
  {way more parts : List String} {name : Text} {excluded : List Text} {paths others : List Path}
  {children : List (String × Entry)} {bytes : ByteArray}

/-! ## Names to look for -/

/-- A name that means itself when it is looked for: it is neither empty nor a step of a path, and
none of its letters is a slash or belongs to the language of patterns. -/
structure LiteralName (name : Text) : Prop where
  ne_empty : name ≠ ""
  ne_here : name ≠ "."
  ne_up : name ≠ ".."
  plain : ∀ a ∈ name.letters, a ≠ .char '/' ∧ a ≠ .char '*' ∧ a ≠ .char '?' ∧ a ≠ .char '['

/-- Where there is no star, there are no two next to each other. -/
lemma hasTwoStars_eq_false {letters : List Letter} (h : .char '*' ∉ letters) :
    Disk.hasTwoStars letters = false := by
  fun_induction Disk.hasTwoStars letters with
  | case1 rest => exact absurd List.mem_cons_self h
  | case2 a rest hne ih => exact ih (List.not_mem_of_not_mem_cons h)
  | case3 => rfl

namespace LiteralName

/-- A name without anything special in it has no slash, so it is one part of a pattern and not
several. -/
lemma slash (h : LiteralName name) : .char '/' ∉ name.letters :=
  fun hmem => (h.plain _ hmem).1 rfl

/-- The name is the only part of itself as a text of parts. -/
lemma textParts_eq (h : LiteralName name) : Disk.textParts name = [name] := by
  have hkept : name.letters ≠ [] ∧ name.letters ≠ [.char '.'] :=
    ⟨fun hnil => h.ne_empty (Text.ext hnil), fun hdot => h.ne_here (Text.ext hdot)⟩
  rw [Disk.textParts, Text.splitOn_of_notMem h.slash]
  simp [hkept]

/-- As a part of a pattern a literal name stands for itself alone, as no star, question mark or
bracket is in it. -/
lemma part_eq (h : LiteralName name) : Disk.Part.ofText name = .ok (.name name) := by
  have hstar : .char '*' ∉ name.letters := fun hmem => (h.plain _ hmem).2.1 rfl
  have hne : name ≠ "**" := by
    rintro rfl
    exact absurd hstar (by decide)
  have hwild : isWild name = false := by
    rw [isWild, List.any_eq_false]
    intro a ha
    simpa [and_assoc] using (h.plain a ha).2
  rw [Disk.Part.ofText, if_neg hne, hasTwoStars_eq_false hstar, hwild]
  rfl

/-- As a pattern the name is one part, which means itself. -/
lemma pattern_eq (h : LiteralName name) :
    Disk.Pattern.ofText name = .ok ⟨[.name name], false⟩ := by
  have hfirst : ¬name.letters.head? = some (.char '/') :=
    fun hfirst => h.slash (List.mem_of_head? hfirst)
  have hlast : ¬name.letters.getLast? = some (.char '/') :=
    fun hlast => h.slash (List.mem_of_getLast? hlast)
  have hparts : ([name].take (Disk.partLimit + 1)).mapM Disk.Part.ofText =
      .ok [.name name] := by
    change [name].mapM Disk.Part.ofText = _
    rw [List.mapM_cons, h.part_eq]
    rfl
  simp only [Disk.Pattern.ofText, h.textParts_eq, hfirst, hparts, bind, Except.bind, hlast,
    decide_false]
  rfl

/-- A pattern of one literal name goes downwards only: it neither starts at the root nor leads to
the directory above. -/
lemma descends (h : LiteralName name) : Disk.Descends [.name name] := by
  intro s hs
  obtain rfl := Disk.Part.name.inj (List.mem_singleton.mp hs)
  exact ⟨h.slash, h.ne_up⟩

end LiteralName

/-! ## What is found -/

/-- A file that is looked for: it has the name and lies below the location, and no directory between
the two is excluded. -/
def Wanted (tree : Entry) (location : Path) (name : Text) (excluded : List Text) (p : Path) :
    Prop :=
  ∃ (way : List String) (last : String) (bytes : ByteArray),
    p.parts = location.parts ++ (way ++ [last]) ∧ (last : Text) = name ∧
      tree.at? p.parts = some (.file bytes) ∧ Path.passesThrough excluded (way ++ [last]) = false

/-- What a search comes to: the files that are looked for, each once and by path. -/
structure Finds (tree : Entry) (location : Path) (name : Text) (excluded : List Text)
    (paths : List Path) : Prop where
  sorted : paths.Pairwise (· < ·)
  mem_iff : ∀ p, p ∈ paths ↔ Wanted tree location name excluded p

/-- A search comes to one list of paths only, as the order of the paths leaves no choice. -/
lemma Finds.unique (h : Finds tree location name excluded paths)
    (h' : Finds tree location name excluded others) : paths = others :=
  h.sorted.eq_of_mem_iff h'.sorted fun p => (h.mem_iff p).trans (h'.mem_iff p).symm

/-! ## In memory -/

namespace Entry.Holds

/-- No way down a tree is an absolute path. -/
lemma isAbsolute_eq_false (h : tree.Holds m) (hat : (tree.at? p.parts).isSome) :
    p.isAbsolute = false :=
  Path.isAbsolute_append (show Path.here.isAbsolute = false from rfl)
    fun part hpart => (h.properName hat part hpart).slash

/-- To lie below a location is, for a way down a tree, to begin with the parts of it. -/
lemma below_iff (h : tree.Holds m) (hat : (tree.at? p.parts).isSome) :
    location.Below p more ↔ p.parts = location.parts ++ more :=
  and_iff_left fun _ => h.isAbsolute_eq_false hat

/-- A directory of a tree is one in memory. -/
lemma isDirectory (h : tree.Holds m)
    (hfolder : tree.at? location.parts = some (.folder children)) : m.IsDirectory location where
  notFile := by
    cases hget : m.get? location with
    | none => rfl
    | some text =>
      have hat := h.get?_eq_some_iff.mp hget
      rw [hfolder] at hat
      cases hat
  inhabited := by
    obtain ⟨more, bytes, hat⟩ := h.inhabited location.parts children hfolder
    obtain ⟨text, hget, -⟩ := (h.file_iff _ _).mp hat
    exact ⟨⟨location.parts ++ more⟩, text, more, hget, (h.below_iff (by rw [hat]; rfl)).mpr rfl⟩

/-- What is looked for in a tree are the files that are selected in memory. -/
lemma wanted_iff (h : tree.Holds m) : Wanted tree location name excluded p ↔
    (∃ text, m.get? p = some text) ∧ Selected location name excluded p := by
  constructor
  · rintro ⟨way, last, bytes, hparts, hlast, hat, hpasses⟩
    obtain ⟨text, hget, -⟩ := (h.file_iff _ _).mp hat
    have hbelow := (h.below_iff (by rw [hat]; rfl)).mpr hparts
    exact ⟨⟨text, hget⟩, way, last, hbelow, hlast, passesThrough_concat_eq_false_iff.mp hpasses⟩
  · rintro ⟨⟨text, hget⟩, way, last, hbelow, hlast, hpasses⟩
    exact ⟨way, last, _, hbelow.1, hlast, h.get?_eq_some_iff.mp hget,
      passesThrough_concat_eq_false_iff.mpr hpasses⟩

end Entry.Holds

/-- Below a directory a search in memory finds what is looked for. -/
lemma Memory.find_of_folder (name : Text) (excluded : List Text) (h : tree.Holds m)
    (hfolder : tree.at? location.parts = some (.folder children)) :
    ∃ paths, m.find location name excluded = .ok paths ∧
      Finds tree location name excluded paths := by
  have hdirectory := h.isDirectory hfolder
  refine ⟨_, find_of_isDirectory hdirectory name excluded, pairwise_selection .., fun p => ?_⟩
  rw [mem_map_selection hdirectory, h.wanted_iff]

/-- Elsewhere a search in memory finds no directory. -/
lemma Memory.find_of_not_folder (name : Text) (excluded : List Text) (h : tree.Holds m)
    (hfolder : ∀ children, tree.at? location.parts ≠ some (.folder children)) :
    m.find location name excluded = .error (.noDirectoryAt location) := by
  rw [find, if_pos]
  cases hat : tree.at? location.parts with
  | none =>
    have hunder : m.keys.any (isUnder location) = false := by
      rw [List.any_eq_false]
      intro p hkey hbelow
      obtain ⟨text, hget⟩ := SortedMap.mem_keys_iff.mp hkey
      obtain ⟨more, hmore⟩ := Option.isSome_iff_exists.mp hbelow
      have hsome : (tree.at? p.parts).isSome := by rw [h.get?_eq_some_iff.mp hget]; rfl
      rw [(Path.below?_eq_some_iff.mp hmore).1, at?_append, hat] at hsome
      cases hsome
    rw [hunder, Bool.not_false, Bool.or_true]
  | some e =>
    cases e with
    | folder children => exact absurd hat (hfolder children)
    | file bytes =>
      obtain ⟨text, hget, -⟩ := (h.file_iff location.parts bytes).mp hat
      rw [hget]
      rfl

/-! ## On disk -/

namespace Disk

/-- The paths that are looked up in a search: the location, and the name in every directory below.
-/
def LookedUp (tree : Entry) (location : Path) (name : Text) (p : Path) : Prop :=
  p = location ∨ ∃ way children, tree.at? (location.parts ++ way) = some (.folder children) ∧
    ∃ last : String, (last : Text) = name ∧ p = ⟨location.parts ++ (way ++ [last])⟩

/-- If the location is too long to be looked up, a search below it ends in just that. -/
lemma find_of_look_error (hlocation : d.look location = .error .nameTooLong) :
    d.find location name excluded = .error .nameTooLong := by
  simp only [find, isFolder, hlocation, Except.map, bind, Except.bind]

/-- A path that is too long on the way of a literal name means one that is looked up. -/
lemma Tried.exists_lookedUp {s : String}
    (htried : Tried (.folder children) location [.name (s : Text)] p) (hlong : TooLong p)
    (hfolder : tree.at? location.parts = some (.folder children)) :
    ∃ p, LookedUp tree location s p ∧ TooLong p := by
  have hat := at?_append_of_eq_some hfolder
  obtain ⟨way, rfl, ⟨below, hbelow⟩ | ⟨above, last, below, hbelow, rfl, part, hpart, haccepts⟩⟩ :=
    htried
  · by_cases hhere : location.parts ++ way = []
    · obtain ⟨hlocation, rfl⟩ := List.append_eq_nil_iff.mp hhere
      exact ⟨_, .inl (Path.ext (List.append_nil _)), hlong⟩
    · -- the name in a directory is no shorter than the directory
      refine ⟨_, .inr ⟨way, below, (hat way).trans hbelow, s, rfl, ?_⟩, hlong.child hhere s⟩
      rw [Path.child, List.append_assoc]
  · obtain rfl := List.mem_singleton.mp hpart
    exact ⟨_, .inr ⟨above, below, (hat above).trans hbelow, last, haccepts, rfl⟩, hlong⟩

/-- In a directory nothing is found of a name that no characters write, and nothing but the
directory is looked up. -/
lemma find_of_string?_eq_none (hlocation : d.look location = .ok (some (.folder children)))
    (hname : LiteralName name) (hnone : name.string? = none) (excluded : List Text) :
    d.find location name excluded = .ok [] := by
  have hthere : d.isFolder location = .ok true := by
    rw [isFolder, hlocation]
    rfl
  have hselect (qs : List Path) : d.select false [.name name] qs = .ok [] := by
    have hnothing : qs.mapM (d.selectPart (.name name) false) = .ok (qs.map fun _ => []) := by
      induction qs with
      | nil => rfl
      | cons q qs ih =>
        rw [List.mapM_cons, ih]
        simp [selectPart, hnone, bind, Except.bind, pure, Except.pure]
    have hempty : (qs.map fun _ => ([] : List Path)).flatten = [] := by simp
    change (qs.mapM (d.selectPart (.name name) false)).bind _ = _
    rw [hnothing, Except.bind, hempty]
    rfl
  have hdepth : d.select false [.anyDepth, .name name] [location] = .ok [] := by
    change ([location].mapM (d.selectPart .anyDepth true)).bind _ = _
    rw [List.mapM_cons, selectPart, hlocation]
    exact hselect _
  simp only [find, hthere, hname.pattern_eq, hdepth, bind, Except.bind]
  rfl

/-- Below a directory a search finds what is looked for, or the name cannot be looked up in some
directory. -/
lemma find_of_folder_cases (excluded : List Text) (h : tree.Holds m) (hname : LiteralName name)
    (hfolder : tree.at? location.parts = some (.folder children))
    (hlocation : d.look location = .ok (some (.folder children))) :
    (∃ paths, d.find location name excluded = .ok paths ∧
      Finds tree location name excluded paths ∧
      ∀ p ∈ paths, d.look p = .ok (tree.at? p.parts)) ∨
    (d.find location name excluded = .error .nameTooLong ∧
      ∃ p, LookedUp tree location name p ∧ TooLong p) := by
  have hat := at?_append_of_eq_some hfolder
  rcases Option.eq_none_or_eq_some name.string? with hnone | ⟨s, hs⟩
  · refine .inl ⟨[], find_of_string?_eq_none hlocation hname hnone excluded, ⟨.nil, fun p => ?_⟩,
      fun p hp => nomatch hp⟩
    refine iff_of_false List.not_mem_nil ?_
    rintro ⟨way, last, bytes, -, rfl, -⟩
    rw [Text.string?_ofString] at hnone
    cases hnone
  obtain rfl := Text.string?_eq_some_iff.mp hs
  rcases find_pattern_cases hlocation (h.sound.below hfolder) hname.pattern_eq hname.descends
    excluded with ⟨paths, hfind, hfinds, hlooked⟩ | ⟨herror, p, htried, hlong⟩
  · refine .inl ⟨paths, hfind, ⟨hfinds.sorted, fun p => ?_⟩, fun p hp => ?_⟩
    · simp only [hfinds.mem_iff, Part.fits_name_iff, true_and]
      constructor
      · rintro ⟨way, rfl, ⟨bytes, hfile⟩, ⟨above, last, rfl, hlast⟩, hexcluded⟩
        exact ⟨above, last, bytes, rfl, hlast, (hat _).trans hfile,
          passesThrough_eq_false_iff.mpr hexcluded⟩
      · rintro ⟨above, last, bytes, hp, hlast, hfile, hpasses⟩
        rw [hp, hat] at hfile
        exact ⟨above ++ [last], Path.ext hp, ⟨bytes, hfile⟩, ⟨above, last, rfl, hlast⟩,
          passesThrough_eq_false_iff.mp hpasses⟩
    · obtain ⟨way, rfl, -⟩ := (hfinds.mem_iff p).mp hp
      rw [hlooked way hp, hat]
  · exact .inr ⟨herror, htried.exists_lookedUp hlong hfolder⟩

/-- Elsewhere a search finds no directory. -/
lemma find_of_not_folder (hlocation : d.look location = .ok (tree.at? location.parts))
    (hfolder : ∀ children, tree.at? location.parts ≠ some (.folder children)) :
    d.find location name excluded = .error (.noDirectoryAt location) := by
  have hthere : d.isFolder location = .ok false := by
    rw [isFolder, hlocation]
    cases hat : tree.at? location.parts with
    | none => rfl
    | some e =>
      cases e with
      | file bytes => rfl
      | folder children => exact absurd hat (hfolder children)
  simp only [find, hthere, bind, Except.bind]
  rfl

/-- **A search on disk** finds what is looked for below a directory, and elsewhere no directory,
unless a path that is looked up is too long. -/
lemma find_cases (excluded : List Text) (hstanding : d.root.at? d.standing = some tree)
    (h : tree.Holds m) (hrelative : location.isAbsolute = false) (hup : ".." ∉ location.parts)
    (hname : LiteralName name) :
    (∃ children paths, tree.at? location.parts = some (.folder children) ∧
      d.find location name excluded = .ok paths ∧ Finds tree location name excluded paths ∧
      ∀ p ∈ paths, d.look p = .ok (tree.at? p.parts)) ∨
    ((∀ children, tree.at? location.parts ≠ some (.folder children)) ∧
      d.find location name excluded = .error (.noDirectoryAt location)) ∨
    (d.find location name excluded = .error .nameTooLong ∧
      ∃ p, LookedUp tree location name p ∧ TooLong p) := by
  rcases look_cases hstanding h hrelative hup with hlocation | ⟨hlocation, hlong⟩
  · by_cases hfolder : ∃ children, tree.at? location.parts = some (.folder children)
    · obtain ⟨children, hfolder⟩ := hfolder
      rw [hfolder] at hlocation
      rcases find_of_folder_cases excluded h hname hfolder hlocation with ⟨paths, hpaths⟩ | herror
      · exact .inl ⟨children, paths, hfolder, hpaths⟩
      · exact .inr (.inr herror)
    · have hnot : ∀ children, tree.at? location.parts ≠ some (.folder children) :=
        fun children hchildren => hfolder ⟨children, hchildren⟩
      exact .inr (.inl ⟨hnot, find_of_not_folder hlocation hnot⟩)
  · exact .inr (.inr ⟨find_of_look_error hlocation, location, .inl rfl, hlong⟩)

end Disk

end CrateGate.Files
