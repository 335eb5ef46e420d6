import CrateGate.Proofs.Files.Disk
import CrateGate.Proofs.Files.Memory

/-!
# Patterns on disk

On disk a name to look for is a pattern of several parts. A way down to a file has the form of the
pattern if the parts accept its names one after another, and the part for any depth stands for as
many directories as there are (`Part.Fits`). The parts are followed one by one, each from where the
ones before it led (`select_cases`), and what they lead to in the end are the files whose way has
the form of the pattern (`Part.reaches_file_iff`). So these are the files that a search finds,
outside the excluded directories (`find_pattern_cases`).
-/

namespace CrateGate.Files

open Entry

/-! ## Steps that may go wrong in one way -/

section Steps

variable {α β ε : Type} {f : α → Except ε β} {fault : ε} {xs : List α} {ys : List β} {y : β}

/-- Steps that go wrong in one way only all go well, or one of them goes wrong. -/
lemma mapM_cases (h : ∀ x ∈ xs, (∃ y, f x = .ok y) ∨ f x = .error fault) :
    ((∀ x ∈ xs, ∃ y, f x = .ok y) ∧ ∃ ys, xs.mapM f = .ok ys) ∨
      xs.mapM f = .error fault ∧ ∃ x ∈ xs, f x = .error fault := by
  induction xs with
  | nil => exact .inl ⟨by simp, [], rfl⟩
  | cons x xs ih =>
    obtain ⟨hx, hxs⟩ := List.forall_mem_cons.mp h
    rw [List.mapM_cons]
    rcases hx with ⟨y, hy⟩ | hx
    · rw [hy]
      rcases ih hxs with ⟨hok, ys, hys⟩ | ⟨herror, x', hx', hfault⟩
      · exact .inl ⟨List.forall_mem_cons.mpr ⟨⟨y, hy⟩, hok⟩, y :: ys, by rw [hys]; rfl⟩
      · exact .inr ⟨by rw [herror]; rfl, x', List.mem_cons_of_mem _ hx', hfault⟩
    · rw [hx]
      exact .inr ⟨rfl, x, List.mem_cons_self, hx⟩

/-- What steps come to, all together. -/
lemma mem_of_mapM_eq_ok (h : xs.mapM f = .ok ys) : y ∈ ys ↔ ∃ x ∈ xs, f x = .ok y := by
  induction xs generalizing ys with
  | nil =>
    obtain rfl := Except.ok.inj h
    simp
  | cons x xs ih =>
    rw [List.mapM_cons] at h
    obtain ⟨first, hfirst, h⟩ := bind_eq_ok_iff.mp h
    obtain ⟨others, hothers, h⟩ := bind_eq_ok_iff.mp h
    obtain rfl := Except.ok.inj h
    simp [ih hothers, hfirst, eq_comm]

/-- A filter whose test never fails is the filter by what the test says. -/
lemma filterM_eq_ok {f : α → Except ε Bool} {g : α → Bool} (h : ∀ x ∈ xs, f x = .ok (g x)) :
    xs.filterM f = .ok (xs.filter g) := by
  have haux (acc : List α) : xs.filterAuxM f acc = .ok ((xs.filter g).reverse ++ acc) := by
    induction xs generalizing acc with
    | nil => rfl
    | cons x xs ih =>
      obtain ⟨hx, hxs⟩ := List.forall_mem_cons.mp h
      rw [List.filterAuxM, hx]
      change xs.filterAuxM f (cond (g x) (x :: acc) acc) = _
      rw [ih hxs]
      cases hg : g x <;> simp [hg]
  rw [List.filterM, haux]
  change Except.ok _ = _
  rw [List.append_nil, List.reverse_reverse]

/-- Tests that go wrong in one way only all tell what they should, or one of them goes wrong. -/
lemma filterM_cases {f : α → Except ε Bool} {g : α → Bool}
    (h : ∀ x ∈ xs, f x = .ok (g x) ∨ f x = .error fault) :
    ((∀ x ∈ xs, f x = .ok (g x)) ∧ xs.filterM f = .ok (xs.filter g)) ∨
      xs.filterM f = .error fault ∧ ∃ x ∈ xs, f x = .error fault := by
  have haux (acc : List α) : (∀ x ∈ xs, f x = .ok (g x)) ∨
      xs.filterAuxM f acc = .error fault ∧ ∃ x ∈ xs, f x = .error fault := by
    induction xs generalizing acc with
    | nil => exact .inl fun x hx => nomatch hx
    | cons x xs ih =>
      obtain ⟨hx, hxs⟩ := List.forall_mem_cons.mp h
      rw [List.filterAuxM]
      rcases hx with hx | hx
      · rw [hx]
        rcases ih hxs (cond (g x) (x :: acc) acc) with hok | ⟨herror, y, hy, hfault⟩
        · exact .inl (List.forall_mem_cons.mpr ⟨hx, hok⟩)
        · exact .inr ⟨herror, y, List.mem_cons_of_mem _ hy, hfault⟩
      · rw [hx]
        exact .inr ⟨rfl, x, List.mem_cons_self, hx⟩
  rcases haux [] with hok | ⟨herror, hfault⟩
  · exact .inl ⟨hok, filterM_eq_ok hok⟩
  · refine .inr ⟨?_, hfault⟩
    rw [List.filterM, herror]
    rfl

end Steps

/-- A way down ends in a name. -/
def EndsIn (name : Text) (way : List String) : Prop :=
  ∃ (above : List String) (last : String), way = above ++ [last] ∧ (last : Text) = name

namespace Disk

variable {d : Disk} {e there : Entry} {location p q : Path} {part : Part} {parts : List Part}
  {way more above between : List String} {excluded : List Text} {name s : String} {t : Text}
  {folderOnly : Bool}
  {paths : List Path} {bytes : ByteArray} {pattern : Pattern} {slip : Slip}
  {children : List (String × Entry)}

/-! ## The form of a pattern -/

/-- A part of a pattern accepts a name: its own, or one that has the form it asks for. -/
def Part.Accepts : Part → String → Prop
  | .anyDepth, _ => False
  | .name t, name => (name : Text) = t
  | .wild pieces, name => fits pieces name = true

/-- A way down to a file has the form of a pattern: its names are accepted by the parts one after
another, where the part for any depth stands for as many directories as there are. -/
inductive Part.Fits : List Part → List String → Prop
  | last {part : Part} {name : String} (accepts : part.Accepts name) : Fits [part] [name]
  | next {part : Part} {parts : List Part} {name : String} {way : List String}
      (accepts : part.Accepts name) (rest : Fits parts way) : Fits (part :: parts) (name :: way)
  | enough {parts : List Part} {way : List String} (rest : Fits parts way) :
      Fits (.anyDepth :: parts) way
  | deeper {parts : List Part} {name : String} {way : List String}
      (rest : Fits (.anyDepth :: parts) way) : Fits (.anyDepth :: parts) (name :: way)

namespace Part

/-- A pattern without parts fits no way at all, not even the empty one. -/
lemma not_fits_nil : ¬Fits [] way := by
  intro h
  cases h

/-- A pattern fits no empty way: a fit ends with a part that stands for a name, and takes that name
from the way. -/
lemma Fits.ne_nil (h : Fits parts way) : way ≠ [] := by
  induction h with
  | enough rest ih => exact ih
  | _ => exact List.cons_ne_nil _ _

/-- The last name of a way that fits is accepted by a part. -/
lemma Fits.exists_accepts (h : Fits parts way) :
    ∃ above s, way = above ++ [s] ∧ ∃ part ∈ parts, part.Accepts s := by
  induction h with
  | @last part name accepts => exact ⟨[], name, rfl, part, List.mem_cons_self, accepts⟩
  | @next part parts name way accepts rest ih =>
    obtain ⟨above, s, rfl, part, hpart, haccepts⟩ := ih
    exact ⟨name :: above, s, rfl, part, List.mem_cons_of_mem _ hpart, haccepts⟩
  | enough rest ih =>
    obtain ⟨above, s, rfl, part, hpart, haccepts⟩ := ih
    exact ⟨above, s, rfl, part, List.mem_cons_of_mem _ hpart, haccepts⟩
  | @deeper parts name way rest ih =>
    obtain ⟨above, s, rfl, haccepts⟩ := ih
    exact ⟨name :: above, s, rfl, haccepts⟩

/-- Any depth is as many directories as there are before the other parts fit. -/
lemma fits_anyDepth_iff :
    Fits (.anyDepth :: parts) way ↔ ∃ above more, way = above ++ more ∧ Fits parts more := by
  constructor
  · intro h
    generalize hall : Part.anyDepth :: parts = all at h
    induction h with
    | last accepts =>
      obtain ⟨rfl, -⟩ := List.cons.inj hall
      cases accepts
    | next accepts rest =>
      obtain ⟨rfl, -⟩ := List.cons.inj hall
      cases accepts
    | @enough parts' way rest =>
      obtain ⟨-, rfl⟩ := List.cons.inj hall
      exact ⟨[], way, rfl, rest⟩
    | @deeper parts' name way rest ih =>
      obtain ⟨above, more, rfl, hfits⟩ := ih hall
      exact ⟨name :: above, more, rfl, hfits⟩
  · rintro ⟨above, more, rfl, hfits⟩
    induction above with
    | nil => exact .enough hfits
    | cons name above ih => exact .deeper ih

/-- A part other than any depth takes one name. -/
lemma fits_cons_iff (hpart : part ≠ .anyDepth) : Fits (part :: parts) way ↔
    ∃ name more, way = name :: more ∧ part.Accepts name ∧
      (parts = [] ∧ more = [] ∨ Fits parts more) := by
  constructor
  · intro h
    cases h with
    | last accepts => exact ⟨_, [], rfl, accepts, .inl ⟨rfl, rfl⟩⟩
    | next accepts rest => exact ⟨_, _, rfl, accepts, .inr rest⟩
    | enough rest => exact absurd rfl hpart
    | deeper rest => exact absurd rfl hpart
  · rintro ⟨name, more, rfl, haccepts, ⟨rfl, rfl⟩ | hfits⟩
    · exact .last haccepts
    · exact .next haccepts hfits

/-- **At any depth a name fits the ways that end in it.** -/
lemma fits_name_iff : Fits [.anyDepth, .name t] way ↔ EndsIn t way := by
  rw [fits_anyDepth_iff]
  constructor
  · rintro ⟨above, more, rfl, hfits⟩
    obtain ⟨name, rest, rfl, hname, ⟨-, rfl⟩ | hrest⟩ :=
      (fits_cons_iff Part.noConfusion).mp hfits
    · exact ⟨above, name, rfl, hname⟩
    · exact absurd hrest not_fits_nil
  · rintro ⟨above, last, rfl, hlast⟩
    exact ⟨above, [last], rfl, .last hlast⟩

/-! ## Where parts lead -/

/-- One part of a pattern leads down an entry: any depth to a directory, another part to an entry
whose name it accepts, and to a directory if one is asked for. -/
inductive Leads (e : Entry) (folderOnly : Bool) : Part → List String → List String → Prop
  | depth {way more : List String} {children : List (String × Entry)}
      (hat : e.at? (way ++ more) = some (.folder children)) : Leads e folderOnly .anyDepth way more
  | name {part : Part} {way : List String} {name : String} {there : Entry}
      (accepts : part.Accepts name) (hat : e.at? (way ++ [name]) = some there)
      (asked : folderOnly = true → there.isFolder = true) : Leads e folderOnly part way [name]

/-- The parts of a pattern lead down an entry, each but the last one to directories. -/
inductive Reaches (e : Entry) (folderOnly : Bool) : List Part → List String → List String → Prop
  | nil {way : List String} : Reaches e folderOnly [] way []
  | cons {part : Part} {parts : List Part} {way more others : List String}
      (first : Leads e (folderOnly || !parts.isEmpty) part way more)
      (rest : Reaches e folderOnly parts (way ++ more) others) :
      Reaches e folderOnly (part :: parts) way (more ++ others)

/-- What a part of a pattern leads to is there in the tree. -/
lemma Leads.isSome (h : Leads e folderOnly part way more) : (e.at? (way ++ more)).isSome := by
  cases h with
  | depth hat => rw [hat]; rfl
  | name accepts hat asked => rw [hat]; rfl

/-- Where a part has to lead to a directory, what it leads to is one. -/
lemma Leads.exists_folder (h : Leads e true part way more) :
    ∃ children, e.at? (way ++ more) = some (.folder children) := by
  cases h with
  | depth hat => exact ⟨_, hat⟩
  | @name part way name there accepts hat asked =>
    cases there with
    | file bytes => exact absurd (asked rfl) Bool.false_ne_true
    | folder children => exact ⟨children, hat⟩

/-- The part for any number of directories leads to every directory below, itself included, and to
no file. -/
lemma leads_anyDepth_iff : Leads e folderOnly .anyDepth way more ↔
    ∃ children, e.at? (way ++ more) = some (.folder children) := by
  constructor
  · intro h
    cases h with
    | depth hat => exact ⟨_, hat⟩
    | name accepts => cases accepts
  · rintro ⟨children, hat⟩
    exact .depth hat

/-- Any other part leads one name further, to a child whose name it accepts, and to a directory if
one is asked for. -/
lemma leads_iff (hpart : part ≠ .anyDepth) : Leads e folderOnly part way more ↔
    ∃ name there, more = [name] ∧ part.Accepts name ∧ e.at? (way ++ [name]) = some there ∧
      (folderOnly = true → there.isFolder = true) := by
  constructor
  · intro h
    cases h with
    | depth hat => exact absurd rfl hpart
    | name accepts hat asked => exact ⟨_, _, rfl, accepts, hat, asked⟩
  · rintro ⟨name, there, rfl, accepts, hat, asked⟩
    exact .name accepts hat asked

/-- A pattern reaches on by its first part, and from what that leads to by the others. -/
lemma reaches_cons_iff : Reaches e folderOnly (part :: parts) way more ↔
    ∃ first others, more = first ++ others ∧
      Leads e (folderOnly || !parts.isEmpty) part way first ∧
      Reaches e folderOnly parts (way ++ first) others := by
  constructor
  · intro h
    cases h with
    | cons first rest => exact ⟨_, _, rfl, first, rest⟩
  · rintro ⟨first, others, rfl, hfirst, hrest⟩
    exact .cons hfirst hrest

/-- Without parts a pattern reaches no further than where it is. -/
lemma reaches_nil_iff : Reaches e folderOnly [] way more ↔ more = [] := by
  constructor
  · intro h
    cases h
    rfl
  · rintro rfl
    exact .nil

/-- What a pattern reaches from an entry of the tree is an entry of the tree again. -/
lemma Reaches.isSome (h : Reaches e folderOnly parts way more) (hway : (e.at? way).isSome) :
    (e.at? (way ++ more)).isSome := by
  induction h with
  | nil => rwa [List.append_nil]
  | cons first rest ih =>
    rw [← List.append_assoc]
    exact ih first.isSome

/-- The last part of a pattern leads to a file if it accepts its name. -/
lemma leads_file_iff (hfile : e.at? (way ++ more) = some (.file bytes)) :
    Leads e folderOnly part way more ↔ folderOnly = false ∧ Fits [part] more := by
  by_cases hpart : part = .anyDepth
  · rw [hpart, leads_anyDepth_iff, fits_anyDepth_iff]
    constructor
    · rintro ⟨children, hat⟩
      rw [hfile] at hat
      cases hat
    · rintro ⟨-, above, rest, -, hfits⟩
      exact absurd hfits not_fits_nil
  · rw [leads_iff hpart, fits_cons_iff hpart]
    constructor
    · rintro ⟨name, there, rfl, haccepts, hat, hasked⟩
      obtain rfl := Option.some.inj (hfile.symm.trans hat)
      refine ⟨Bool.eq_false_iff.mpr fun hfolder => ?_, name, [], rfl, haccepts, .inl ⟨rfl, rfl⟩⟩
      exact absurd (hasked hfolder) Bool.false_ne_true
    · rintro ⟨hfolder, name, rest, rfl, haccepts, ⟨-, rfl⟩ | hfits⟩
      · exact ⟨name, _, rfl, haccepts, hfile, fun h => absurd h (hfolder ▸ Bool.false_ne_true)⟩
      · exact absurd hfits not_fits_nil

/-- **A pattern leads to the files whose way has its form**, if it does not ask for directories. -/
lemma reaches_file_iff (hfile : e.at? (way ++ more) = some (.file bytes)) (hne : parts ≠ []) :
    Reaches e folderOnly parts way more ↔ folderOnly = false ∧ Fits parts more := by
  induction parts generalizing way more with
  | nil => exact absurd rfl hne
  | cons part parts ih =>
    rw [reaches_cons_iff]
    by_cases hparts : parts = []
    · -- the last part
      subst hparts
      simp only [reaches_nil_iff, List.isEmpty_nil, Bool.not_true, Bool.or_false]
      rw [← leads_file_iff hfile]
      constructor
      · rintro ⟨first, others, rfl, hfirst, rfl⟩
        rwa [List.append_nil]
      · intro hleads
        exact ⟨more, [], (List.append_nil more).symm, hleads, rfl⟩
    · have hmore : (folderOnly || !parts.isEmpty) = true := by simp [hparts]
      -- a directory is met wherever other parts are still to come
      have hfolder {first others : List String} (hsplit : more = first ++ others)
          (hothers : others ≠ []) : ∃ children, e.at? (way ++ first) = some (.folder children) := by
        obtain ⟨name, rest, rfl⟩ := List.exists_cons_of_ne_nil hothers
        have hsome : (e.at? ((way ++ first) ++ name :: rest)).isSome := by
          rw [List.append_assoc, ← hsplit, hfile]
          rfl
        exact exists_folder_of_at?_append hsome
      have hrest {first others : List String} (hsplit : more = first ++ others) :
          Reaches e folderOnly parts (way ++ first) others ↔
            folderOnly = false ∧ Fits parts others :=
        ih (by rw [List.append_assoc, ← hsplit, hfile]) hparts
      rw [hmore]
      by_cases hpart : part = .anyDepth
      · rw [hpart, fits_anyDepth_iff]
        constructor
        · rintro ⟨first, others, hsplit, -, hreaches⟩
          obtain ⟨hfalse, hfits⟩ := (hrest hsplit).mp hreaches
          exact ⟨hfalse, first, others, hsplit, hfits⟩
        · rintro ⟨hfalse, first, others, hsplit, hfits⟩
          exact ⟨first, others, hsplit, leads_anyDepth_iff.mpr (hfolder hsplit hfits.ne_nil),
            (hrest hsplit).mpr ⟨hfalse, hfits⟩⟩
      · rw [fits_cons_iff hpart]
        constructor
        · rintro ⟨first, others, hsplit, hleads, hreaches⟩
          obtain ⟨name, there, rfl, haccepts, -, -⟩ := (leads_iff hpart).mp hleads
          obtain ⟨hfalse, hfits⟩ := (hrest hsplit).mp hreaches
          exact ⟨hfalse, name, others, hsplit, haccepts, .inr hfits⟩
        · rintro ⟨hfalse, name, others, hsplit, haccepts, ⟨hnil, -⟩ | hfits⟩
          · exact absurd hnil hparts
          · have hsplit' : more = [name] ++ others := hsplit
            obtain ⟨children, hat⟩ := hfolder hsplit' hfits.ne_nil
            exact ⟨[name], others, hsplit,
              (leads_iff hpart).mpr ⟨name, _, rfl, haccepts, hat, fun _ => rfl⟩,
              (hrest hsplit).mpr ⟨hfalse, hfits⟩⟩

end Part

/-! ## Selecting -/

/-- Putting paths into order and dropping those that come twice leaves just the paths there were. -/
lemma mem_inOrder : p ∈ inOrder paths ↔ p ∈ paths := by
  rw [inOrder, SortedMap.mem_keys_iff, ← Option.isSome_iff_exists, SortedMap.get?_ofList,
    Option.isSome_map, List.find?_isSome]
  simp

/-- A path that a search looks up: a directory below the location, or a name that a part of the
pattern accepts in a directory there. -/
def Tried (e : Entry) (location : Path) (parts : List Part) (p : Path) : Prop :=
  ∃ way, p = ⟨location.parts ++ way⟩ ∧ ((∃ children, e.at? way = some (.folder children)) ∨
    ∃ above s children, e.at? above = some (.folder children) ∧ way = above ++ [s] ∧
      ∃ part ∈ parts, part.Accepts s)

/-- What is tried for some parts is tried for more of them too, and the part for any number of
directories tries nothing by itself. -/
lemma Tried.mono {parts' : List Part} (h : Tried e location parts p)
    (hparts : ∀ part ∈ parts, part ∈ parts' ∨ part = .anyDepth) : Tried e location parts' p := by
  obtain ⟨way, hp, hfolder | ⟨above, s, children, hat, rfl, part, hpart, haccepts⟩⟩ := h
  · exact ⟨way, hp, .inl hfolder⟩
  · rcases hparts part hpart with hpart | rfl
    · exact ⟨_, hp, .inr ⟨above, s, children, hat, rfl, part, hpart, haccepts⟩⟩
    · cases haccepts

/-- The names in a pattern lead down: none has a slash, and none is the way up. -/
def Descends (parts : List Part) : Prop :=
  ∀ t : Text, .name t ∈ parts → .char '/' ∉ t.letters ∧ t ≠ ".."

/-- What stands at a path below the location at which something stands, if the path is not too
long. -/
lemma look_there_cases (hlook : d.look location = .ok (some e)) (h : e.Sound)
    (hsome : (e.at? way).isSome) (hp : p = ⟨location.parts ++ way⟩) :
    d.look p = .ok (e.at? way) ∨ d.look p = .error .nameTooLong ∧ TooLong p :=
  look_below_cases hlook h
    (hp ▸ Path.isAbsolute_below fun part hpart => (h.properName hsome part hpart).slash)
    (fun hmem => (h.properName hsome ".." hmem).ne_up rfl) hp

/-- In a tree without doubled names, what is one step below a directory are its children. -/
lemma at?_concat_eq_some_iff {child : Entry} (h : e.Sound)
    (hat : e.at? way = some (.folder children)) :
    e.at? (way ++ [name]) = some child ↔ (name, child) ∈ children := by
  rw [at?_concat hat]
  exact ⟨mem_of_lookup_eq_some, lookup_eq_some_of_mem (h.distinct way children hat)⟩

/-- A step of a search comes to just the paths of some sort, unless a path that it tries is too
long. -/
def ComesTo (e : Entry) (location : Path) (parts : List Part) (step : Except Slip (List Path))
    (Holds : Path → Prop) : Prop :=
  (∃ found, step = .ok found ∧ ∀ p, p ∈ found ↔ Holds p) ∨
    step = .error .nameTooLong ∧ ∃ p, Tried e location parts p ∧ TooLong p

/-- Steps from several paths together come to what the step from one of them comes to. -/
lemma mapM_cases_of_comesTo {step : Path → Except Slip (List Path)} {Holds : Path → Path → Prop}
    (h : ∀ q ∈ paths, ComesTo e location parts (step q) (Holds q)) :
    (∃ lists, paths.mapM step = .ok lists ∧
      ∀ p, p ∈ inOrder lists.flatten ↔ ∃ q ∈ paths, Holds q p) ∨
    paths.mapM step = .error .nameTooLong ∧ ∃ p, Tried e location parts p ∧ TooLong p := by
  have hsteps : ∀ q ∈ paths, (∃ found, step q = .ok found) ∨ step q = .error .nameTooLong := by
    intro q hq
    rcases h q hq with ⟨found, hok, -⟩ | ⟨herror, -⟩
    · exact .inl ⟨found, hok⟩
    · exact .inr herror
  rcases mapM_cases hsteps with ⟨hall, lists, hlists⟩ | ⟨herror, q, hq, hfault⟩
  · refine .inl ⟨lists, hlists, fun p => ?_⟩
    simp only [mem_inOrder, List.mem_flatten, mem_of_mapM_eq_ok hlists]
    constructor
    · rintro ⟨found, ⟨q, hq, hfound⟩, hp⟩
      rcases h q hq with ⟨found', hok, hiff⟩ | ⟨herror, -⟩
      · obtain rfl := Except.ok.inj (hfound.symm.trans hok)
        exact ⟨q, hq, (hiff p).mp hp⟩
      · cases hfound.symm.trans herror
    · rintro ⟨q, hq, hp⟩
      rcases h q hq with ⟨found, hok, hiff⟩ | ⟨herror, -⟩
      · exact ⟨found, ⟨q, hq, hok⟩, (hiff p).mpr hp⟩
      · obtain ⟨found, hfound⟩ := hall q hq
        cases hfound.symm.trans herror
  · rcases h q hq with ⟨found, hok, -⟩ | ⟨-, htried⟩
    · cases hok.symm.trans hfault
    · exact .inr ⟨herror, htried⟩

/-- A part of a pattern leads from one path below the location to another. -/
def LeadsFrom (e : Entry) (location : Path) (folderOnly : Bool) (part : Part) (q p : Path) : Prop :=
  ∃ way more, q = ⟨location.parts ++ way⟩ ∧ Part.Leads e folderOnly part way more ∧
    p = ⟨location.parts ++ (way ++ more)⟩

/-- The parts of a pattern lead from one path below the location to another. -/
def ReachesFrom (e : Entry) (location : Path) (folderOnly : Bool) (parts : List Part)
    (q p : Path) : Prop :=
  ∃ way more, q = ⟨location.parts ++ way⟩ ∧ Part.Reaches e folderOnly parts way more ∧
    p = ⟨location.parts ++ (way ++ more)⟩

/-- Where a part leads from the end of a way: the way to a path is the only one. -/
lemma leadsFrom_iff :
    LeadsFrom e location folderOnly part ⟨location.parts ++ way⟩ p ↔
      ∃ more, Part.Leads e folderOnly part way more ∧
        p = ⟨location.parts ++ (way ++ more)⟩ := by
  constructor
  · rintro ⟨way', more, hway, hleads, hp⟩
    obtain rfl := List.append_cancel_left (congrArg Path.parts hway)
    exact ⟨more, hleads, hp⟩
  · rintro ⟨more, hleads, hp⟩
    exact ⟨way, more, rfl, hleads, hp⟩

/-- Where parts lead from the end of a way. -/
lemma reachesFrom_iff :
    ReachesFrom e location folderOnly parts ⟨location.parts ++ way⟩ p ↔
      ∃ more, Part.Reaches e folderOnly parts way more ∧
        p = ⟨location.parts ++ (way ++ more)⟩ := by
  constructor
  · rintro ⟨way', more, hway, hreaches, hp⟩
    obtain rfl := List.append_cancel_left (congrArg Path.parts hway)
    exact ⟨more, hreaches, hp⟩
  · rintro ⟨more, hreaches, hp⟩
    exact ⟨way, more, rfl, hreaches, hp⟩

/-- The parts of a pattern lead on from where the first of them leads. -/
lemma reachesFrom_cons_iff :
    ReachesFrom e location folderOnly (part :: parts) q p ↔
      ∃ between, LeadsFrom e location (folderOnly || !parts.isEmpty) part q between ∧
        ReachesFrom e location folderOnly parts between p := by
  constructor
  · rintro ⟨way, more, hq, hreaches, rfl⟩
    obtain ⟨first, others, rfl, hleads, hreaches⟩ := Part.reaches_cons_iff.mp hreaches
    refine ⟨_, ⟨way, first, hq, hleads, rfl⟩, reachesFrom_iff.mpr ⟨others, hreaches, ?_⟩⟩
    rw [List.append_assoc]
  · rintro ⟨between, ⟨way, first, hq, hleads, rfl⟩, hreaches⟩
    obtain ⟨others, hothers, rfl⟩ := reachesFrom_iff.mp hreaches
    exact ⟨way, first ++ others, hq, .cons hleads hothers, by rw [List.append_assoc]⟩

/-- Where a name leads from a directory: to what stands there under the name, if it is the kind of
thing that is asked for, unless the path is too long. -/
lemma selectPart_name_comesTo (hlook : d.look location = .ok (some e)) (h : e.Sound)
    (hslash : '/' ∉ s.toList) (hup : s ≠ "..") (folderOnly : Bool)
    (hat : e.at? way = some (.folder children)) (hq : q = ⟨location.parts ++ way⟩) :
    ComesTo e location [.name (s : Text)] (d.selectPart (.name (s : Text)) folderOnly q)
      (LeadsFrom e location folderOnly (.name (s : Text)) q) := by
  have hsome : (e.at? way).isSome := by rw [hat]; rfl
  have hchild (name : String) : q.child name = ⟨location.parts ++ (way ++ [name])⟩ := by
    rw [hq, Path.child, List.append_assoc]
  have hproper : ∀ part ∈ way ++ [s], '/' ∉ part.toList := by
    intro part hmem
    rcases List.mem_append.mp hmem with hmem | hmem
    · exact (h.properName hsome part hmem).slash
    · rwa [List.mem_singleton.mp hmem]
  have hupward : ".." ∉ way ++ [s] := by
    rw [List.mem_append, List.mem_singleton, not_or]
    exact ⟨fun hmem => (h.properName hsome ".." hmem).ne_up rfl, Ne.symm hup⟩
  have habsolute : (q.child s).isAbsolute = location.isAbsolute :=
    hchild s ▸ Path.isAbsolute_below hproper
  rcases look_below_cases hlook h habsolute hupward (hchild s) with hok | ⟨herror, hlong⟩
  · let leads := (e.at? (way ++ [s])).any fun there => !folderOnly || there.isFolder
    have hselect : d.selectPart (.name (s : Text)) folderOnly q =
        .ok (if leads then [q.child s] else []) := by
      cases folderOnly <;> cases hnext : e.at? (way ++ [s]) <;>
        simp [selectPart, isFolder, hok, leads, hnext, Except.map, bind, Except.bind]
    refine .inl ⟨_, hselect, fun p => ?_⟩
    have hleads : leads = true ↔ ∃ there, e.at? (way ++ [s]) = some there ∧
        (folderOnly = true → there.isFolder = true) := by
      simp only [leads, Option.any_eq_true, Bool.or_eq_true, Bool.not_eq_true']
      cases folderOnly <;> simp
    rw [List.mem_ite_nil_right, List.mem_singleton, hleads, hchild, hq, leadsFrom_iff]
    constructor
    · rintro ⟨⟨there, hthere, hasked⟩, rfl⟩
      exact ⟨[s], .name rfl hthere hasked, rfl⟩
    · rintro ⟨more, hmore, rfl⟩
      obtain ⟨name, there, rfl, haccepts, hthere, hasked⟩ :=
        (Part.leads_iff Part.noConfusion).mp hmore
      obtain rfl := Text.ofString_inj.mp haccepts
      exact ⟨⟨there, hthere, hasked⟩, rfl⟩
  · refine .inr ⟨?_, q.child s, ?_, hlong⟩
    · cases folderOnly <;>
        simp [selectPart, isFolder, herror, Except.map, bind, Except.bind]
    · exact ⟨_, hchild s, .inr ⟨way, s, children, hat, rfl, .name s, List.mem_cons_self, rfl⟩⟩

/-- Where a form for names leads from a directory: to the children whose names have the form and
which are the kind of thing that is asked for. -/
lemma selectPart_wild_comesTo {pieces : List Piece} (hlook : d.look location = .ok (some e))
    (h : e.Sound) (folderOnly : Bool) (hat : e.at? way = some (.folder children))
    (hq : q = ⟨location.parts ++ way⟩) :
    ComesTo e location [.wild pieces] (d.selectPart (.wild pieces) folderOnly q)
      (LeadsFrom e location folderOnly (.wild pieces) q) := by
  have hsome : (e.at? way).isSome := by rw [hat]; rfl
  have hchild (name : String) : q.child name = ⟨location.parts ++ (way ++ [name])⟩ := by
    rw [hq, Path.child, List.append_assoc]
  rcases look_there_cases hlook h hsome hq with hok | ⟨herror, hlong⟩
  · rw [hat] at hok
    refine .inl ⟨_, by rw [selectPart, hok]; rfl, fun p => ?_⟩
    rw [hq, leadsFrom_iff, ← hq]
    simp only [Option.map_some, Option.getD_some, List.mem_map, List.mem_filter, Prod.exists,
      Bool.and_eq_true, Bool.or_eq_true, Bool.not_eq_true', hchild]
    constructor
    · rintro ⟨name, child, ⟨hmem, hfits, hasked⟩, rfl⟩
      have hchild := (at?_concat_eq_some_iff h hat).mpr hmem
      refine ⟨[name], .name hfits hchild fun hfolder => ?_, rfl⟩
      exact hasked.resolve_left (hfolder ▸ Bool.noConfusion)
    · rintro ⟨more, hmore, rfl⟩
      obtain ⟨name, child, rfl, hfits, hchild, hasked⟩ :=
        (Part.leads_iff Part.noConfusion).mp hmore
      refine ⟨name, child, ⟨(at?_concat_eq_some_iff h hat).mp hchild, hfits, ?_⟩, rfl⟩
      cases folderOnly with
      | false => exact .inl rfl
      | true => exact .inr (hasked rfl)
  · exact .inr ⟨by rw [selectPart, herror]; rfl, q, ⟨way, hq, .inl ⟨children, hat⟩⟩, hlong⟩

/-- **Where one part of a pattern leads from a directory**, unless a path is too long. -/
lemma selectPart_comesTo (hlook : d.look location = .ok (some e)) (h : e.Sound)
    (hpart : Descends [part]) (folderOnly : Bool)
    (hat : e.at? way = some (.folder children)) (hq : q = ⟨location.parts ++ way⟩) :
    ComesTo e location [part] (d.selectPart part folderOnly q)
      (LeadsFrom e location folderOnly part q) := by
  cases part with
  | anyDepth =>
    have hsome : (e.at? way).isSome := by rw [hat]; rfl
    have htried : Tried e location [.anyDepth] q := ⟨way, hq, .inl ⟨children, hat⟩⟩
    rcases look_there_cases hlook h hsome hq with hok | ⟨herror, hlong⟩
    · rw [hat] at hok
      refine .inl ⟨folders q (.folder children), by rw [selectPart, hok]; rfl, fun p => ?_⟩
      simp only [(h.below hat).distinct.mem_folders_iff, hq, leadsFrom_iff,
        Part.leads_anyDepth_iff, at?_append_of_eq_some hat, List.append_assoc]
      exact ⟨fun ⟨more, children, hmore, hp⟩ => ⟨more, ⟨children, hmore⟩, hp⟩,
        fun ⟨more, ⟨children, hmore⟩, hp⟩ => ⟨more, children, hmore, hp⟩⟩
    · exact .inr ⟨by rw [selectPart, herror]; rfl, q, htried, hlong⟩
  | name t =>
    obtain ⟨hslash, hup⟩ := hpart t List.mem_cons_self
    cases ht : t.string? with
    | none =>
      -- there is no such name, and nothing leads to one
      refine .inl ⟨[], by simp [selectPart, ht], fun p => iff_of_false List.not_mem_nil ?_⟩
      rintro ⟨way, more, -, hmore, -⟩
      obtain ⟨name, there, -, haccepts, -⟩ := (Part.leads_iff Part.noConfusion).mp hmore
      rw [← show (name : Text) = t from haccepts, Text.string?_ofString] at ht
      cases ht
    | some s =>
      obtain rfl := Text.string?_eq_some_iff.mp ht
      refine selectPart_name_comesTo hlook h (by simpa using hslash) ?_ folderOnly hat hq
      exact fun heq => hup (congrArg Text.ofString heq)
  | wild pieces => exact selectPart_wild_comesTo hlook h folderOnly hat hq

/-- **Where the parts of a pattern lead from some paths**, unless a path is too long. By induction on
the parts: the first one leads on from each of the paths, and the others from all those together. -/
lemma select_cases (hlook : d.look location = .ok (some e)) (h : e.Sound)
    (hparts : Descends parts) (folderOnly : Bool)
    (hpaths : ∀ q ∈ paths, ∃ way, q = ⟨location.parts ++ way⟩ ∧
      (parts ≠ [] → ∃ children, e.at? way = some (.folder children))) :
    (∃ found, d.select folderOnly parts paths = .ok found ∧
      (paths.Pairwise (· < ·) → found.Pairwise (· < ·)) ∧
      ∀ p, p ∈ found ↔ ∃ q ∈ paths, ReachesFrom e location folderOnly parts q p) ∨
    d.select folderOnly parts paths = .error .nameTooLong ∧
      ∃ p, Tried e location parts p ∧ TooLong p := by
  induction parts generalizing paths with
  | nil =>
    refine .inl ⟨paths, rfl, id, fun p => ?_⟩
    constructor
    · intro hp
      obtain ⟨way, rfl, -⟩ := hpaths p hp
      exact ⟨_, hp, way, [], rfl, .nil, by rw [List.append_nil]⟩
    · rintro ⟨q, hq, way, more, rfl, hreaches, rfl⟩
      rwa [Part.reaches_nil_iff.mp hreaches, List.append_nil]
  | cons part parts ih =>
    have hfirst : Descends [part] := fun s hs => hparts s (List.mem_cons.mpr <| .inl <|
      List.mem_singleton.mp hs)
    have hrest : Descends parts := fun s hs => hparts s (List.mem_cons_of_mem _ hs)
    let asked := folderOnly || !parts.isEmpty
    have hstep : ∀ q ∈ paths, ComesTo e location [part] (d.selectPart part asked q)
        (LeadsFrom e location asked part q) := by
      intro q hq
      obtain ⟨way, hway, hfolder⟩ := hpaths q hq
      obtain ⟨children, hat⟩ := hfolder (List.cons_ne_nil _ _)
      exact selectPart_comesTo hlook h hfirst asked hat hway
    have hselect : d.select folderOnly (part :: parts) paths =
        (paths.mapM (d.selectPart part asked)).bind fun found =>
          d.select folderOnly parts (inOrder found.flatten) := rfl
    rw [hselect]
    rcases mapM_cases_of_comesTo hstep with ⟨lists, hlists, hmem⟩ | ⟨herror, p, htried, hlong⟩
    · have hnext : ∀ q ∈ inOrder lists.flatten, ∃ way, q = ⟨location.parts ++ way⟩ ∧
          (parts ≠ [] → ∃ children, e.at? way = some (.folder children)) := by
        intro q hq
        obtain ⟨-, -, way, more, -, hleads, rfl⟩ := (hmem q).mp hq
        refine ⟨way ++ more, rfl, fun hne => ?_⟩
        have hasked : asked = true := by simp [asked, hne]
        exact (hasked ▸ hleads).exists_folder
      rw [hlists, Except.bind]
      rcases ih hrest hnext with ⟨found, hfound, hsorted, hiff⟩ | ⟨herror, p, htried, hlong⟩
      · refine .inl ⟨found, hfound, fun _ => hsorted (SortedMap.pairwise_keys _), fun p => ?_⟩
        simp only [hiff, hmem, reachesFrom_cons_iff]
        constructor
        · rintro ⟨between, ⟨q, hq, hleads⟩, hreaches⟩
          exact ⟨q, hq, between, hleads, hreaches⟩
        · rintro ⟨q, hq, between, hleads, hreaches⟩
          exact ⟨between, ⟨q, hq, hleads⟩, hreaches⟩
      · have htried' : Tried e location (part :: parts) p :=
          htried.mono fun _ hpart => .inl (List.mem_cons_of_mem _ hpart)
        exact .inr ⟨herror, p, htried', hlong⟩
    · refine .inr ⟨by rw [herror]; rfl, p, htried.mono ?_, hlong⟩
      simp

/-! ## Patterns as texts -/

/-- Between two slashes there is none. -/
lemma slash_notMem_of_mem_textParts {text : Text} (h : t ∈ textParts text) :
    .char '/' ∉ t.letters := by
  obtain ⟨piece, hpiece, rfl⟩ := List.mem_map.mp h
  exact Text.notMem_of_mem_splitOn (List.mem_filter.mp hpiece).1

/-- A part of a pattern that means a name is the text of the name. -/
lemma Part.ofText_eq_name {text : Text} (h : Part.ofText text = .ok (.name t)) : text = t := by
  unfold Part.ofText at h
  split at h
  · cases h
  · split at h
    · cases h
    · split at h
      · cases h
      · exact Part.name.inj (Except.ok.inj h)

/-- A pattern without `..` leads down, since no slash is in its parts. -/
lemma Pattern.descends {text : Text} (h : Pattern.ofText text = .ok pattern)
    (hup : .name ".." ∉ pattern.parts) : Descends pattern.parts := by
  intro t ht
  refine ⟨?_, fun heq => hup (heq ▸ ht)⟩
  unfold Pattern.ofText at h
  split at h
  · cases h
  · obtain ⟨parts, hparts, h⟩ := bind_eq_ok_iff.mp h
    split at h
    · cases h
    · obtain rfl := Except.ok.inj h
      obtain ⟨piece, hpiece, hpart⟩ := (mem_of_mapM_eq_ok hparts).mp ht
      obtain rfl := Part.ofText_eq_name hpart
      exact slash_notMem_of_mem_textParts (List.mem_of_mem_take hpiece)

/-! ## Finding -/

end Disk

/-- What a search for files below a location comes to: those that lie at the end of a way that fits,
through no excluded directory, each once and by path. -/
structure FindsBelow (isFile fits : List String → Prop) (location : Path) (excluded : List Text)
    (paths : List Path) : Prop where
  sorted : paths.Pairwise (· < ·)
  mem_iff : ∀ p, p ∈ paths ↔ ∃ way, p = ⟨location.parts ++ way⟩ ∧ isFile way ∧ fits way ∧
    ∀ part ∈ way.dropLast, (part : Text) ∉ excluded

/-- A way down an entry ends at a file. -/
def Entry.FileAt (e : Entry) (way : List String) : Prop :=
  ∃ bytes, e.at? way = some (.file bytes)

/-- A file in memory lies below a location, at the end of a way. -/
def Memory.FileBelow (m : Memory) (location : Path) (way : List String) : Prop :=
  ∃ p text, location.Below p way ∧ m.get? p = some text

namespace Disk

variable {d : Disk} {e there : Entry} {location p : Path} {way : List String}
  {excluded : List Text} {name : Text} {children : List (String × Entry)} {pattern : Pattern}
  {parts : List Part} {slip : Slip}

/-- A way passes through no excluded directory if and only if none of its parts but the last has an
excluded name. -/
lemma passesThrough_eq_false_iff {parts : List String} :
    Path.passesThrough excluded parts = false ↔
      ∀ part ∈ parts.dropLast, (part : Text) ∉ excluded := by
  simp [Path.passesThrough]

/-- A search at a directory reads the name as a pattern first. -/
lemma find_of_look_folder (hlook : d.look location = .ok (some (.folder children)))
    (name : Text) (excluded : List Text) :
    d.find location name excluded = (Pattern.ofText name).bind fun pattern =>
      (d.select pattern.folderOnly (.anyDepth :: pattern.parts) [location]).bind fun found =>
        found.filterM (d.isSelected location excluded) := by
  have hthere : d.isFolder location = .ok true := by
    rw [isFolder, hlook]
    rfl
  simp only [find, hthere, bind, Except.bind]
  rfl

/-- In a directory a text that is no pattern is not looked for. -/
lemma find_of_ofText_error (hlook : d.look location = .ok (some (.folder children)))
    (hpattern : Pattern.ofText name = .error slip) (excluded : List Text) :
    d.find location name excluded = .error slip := by
  rw [find_of_look_folder hlook, hpattern, Except.bind]

/-- Whether a path below a location ends at a file of the entry there, through no excluded
directory. -/
def isKept (e : Entry) (location : Path) (excluded : List Text) (p : Path) : Bool :=
  let way := p.parts.drop location.parts.length
  (e.at? way).any (fun there => !there.isFolder) && !Path.passesThrough excluded way

/-- The ends of ways that are kept are files, and no directory on the way is excluded. -/
lemma isKept_iff :
    isKept e location excluded ⟨location.parts ++ way⟩ = true ↔
      e.FileAt way ∧ ∀ part ∈ way.dropLast, (part : Text) ∉ excluded := by
  simp only [isKept, List.drop_left, Bool.and_eq_true, Bool.not_eq_true',
    passesThrough_eq_false_iff, FileAt]
  refine and_congr_left fun _ => ?_
  cases e.at? way with
  | none => simp
  | some there => cases there <;> simp [Entry.isFolder]

/-- A path at whose end something stands is looked at and tested, unless it is too long. -/
lemma isSelected_cases (hlook : d.look location = .ok (some e)) (h : e.Sound)
    (hsome : (e.at? way).isSome) (hp : p = ⟨location.parts ++ way⟩) (excluded : List Text) :
    d.look p = .ok (e.at? way) ∧
        d.isSelected location excluded p = .ok (isKept e location excluded p) ∨
      d.isSelected location excluded p = .error .nameTooLong ∧ TooLong p := by
  rcases look_there_cases hlook h hsome hp with hok | ⟨herror, hlong⟩
  · refine .inl ⟨hok, ?_⟩
    subst hp
    simp [isSelected, isFile, hok, Except.map, isKept]
  · refine .inr ⟨?_, hlong⟩
    simp [isSelected, isFile, herror, Except.map]

/-- A pattern leads to a file if and only if the way to it has the form of the pattern, and the
pattern does not ask for directories. -/
lemma reaches_iff_of_fileAt (hfile : e.FileAt way) :
    Part.Reaches e folderOnly (.anyDepth :: parts) [] way ↔
      folderOnly = false ∧ Part.Fits (.anyDepth :: parts) way := by
  obtain ⟨bytes, hat⟩ := hfile
  rw [← List.nil_append way] at hat
  exact Part.reaches_file_iff hat (List.cons_ne_nil _ _)

/-- What a pattern leads to, its search has looked up: a directory on the way, or a file under a
name that the last part accepts. -/
lemma tried_of_reaches (location : Path)
    (h : Part.Reaches e folderOnly (.anyDepth :: parts) [] way) :
    Tried e location parts ⟨location.parts ++ way⟩ := by
  obtain ⟨there, hthere⟩ := Option.isSome_iff_exists.mp (h.isSome rfl)
  cases there with
  | folder below => exact ⟨way, rfl, .inl ⟨below, hthere⟩⟩
  | file bytes =>
    rw [List.nil_append] at hthere
    have hfits := ((reaches_iff_of_fileAt ⟨bytes, hthere⟩).mp h).2
    obtain ⟨above, s, rfl, part, hpart, haccepts⟩ := hfits.exists_accepts
    have hsome : (e.at? (above ++ [s])).isSome := by
      rw [hthere]
      rfl
    obtain ⟨below, hbelow⟩ := exists_folder_of_at?_append hsome
    refine ⟨_, rfl, .inr ⟨above, s, below, hbelow, rfl, part, ?_, haccepts⟩⟩
    -- the part for any number of directories accepts no name
    refine (List.mem_cons.mp hpart).resolve_left ?_
    rintro rfl
    cases haccepts

/-- **Where a pattern leads from a directory**, unless a path is too long. -/
lemma select_pattern_cases (hlook : d.look location = .ok (some (.folder children)))
    (h : (folder children).Sound) (hdescends : Descends pattern.parts) :
    (∃ found, d.select pattern.folderOnly (.anyDepth :: pattern.parts) [location] = .ok found ∧
      found.Pairwise (· < ·) ∧ ∀ p, p ∈ found ↔ ∃ way, p = ⟨location.parts ++ way⟩ ∧
        Part.Reaches (folder children) pattern.folderOnly (.anyDepth :: pattern.parts) [] way) ∨
    d.select pattern.folderOnly (.anyDepth :: pattern.parts) [location] = .error .nameTooLong ∧
      ∃ p, Tried (folder children) location pattern.parts p ∧ TooLong p := by
  have hall : Descends (.anyDepth :: pattern.parts) := by
    intro s hs
    exact hdescends s ((List.mem_cons.mp hs).resolve_left Part.noConfusion)
  have hhere : location = ⟨location.parts ++ []⟩ := by rw [List.append_nil]
  have hstart : ∀ q ∈ [location], ∃ way, q = ⟨location.parts ++ way⟩ ∧
      (Part.anyDepth :: pattern.parts ≠ [] →
        ∃ below, (folder children).at? way = some (.folder below)) := by
    intro q hq
    obtain rfl := List.mem_singleton.mp hq
    exact ⟨[], hhere, fun _ => ⟨children, rfl⟩⟩
  rcases select_cases hlook h hall pattern.folderOnly hstart with
    ⟨found, hfound, hsorted, hmem⟩ | ⟨herror, p, htried, hlong⟩
  · refine .inl ⟨found, hfound, hsorted (List.pairwise_singleton _ _), fun p => ?_⟩
    have hfrom : ReachesFrom (folder children) location pattern.folderOnly
        (.anyDepth :: pattern.parts) ⟨location.parts ++ []⟩ p ↔ _ := reachesFrom_iff
    rw [← hhere] at hfrom
    simp only [hmem, List.mem_singleton, exists_eq_left, hfrom, List.nil_append]
    exact exists_congr fun way => and_comm
  · refine .inr ⟨herror, p, htried.mono fun part hpart => ?_, hlong⟩
    exact (List.mem_cons.mp hpart).symm

/-- **A search in a directory** finds the files whose way has the form of the pattern, and they can
be looked at, unless a path is too long. -/
lemma find_pattern_cases (hlook : d.look location = .ok (some (.folder children)))
    (h : (folder children).Sound) (hpattern : Pattern.ofText name = .ok pattern)
    (hdescends : Descends pattern.parts) (excluded : List Text) :
    (∃ paths, d.find location name excluded = .ok paths ∧
      FindsBelow (folder children).FileAt
        (fun way => pattern.folderOnly = false ∧ Part.Fits (.anyDepth :: pattern.parts) way)
        location excluded paths ∧
      ∀ way, ⟨location.parts ++ way⟩ ∈ paths →
        d.look ⟨location.parts ++ way⟩ = .ok ((folder children).at? way)) ∨
    d.find location name excluded = .error .nameTooLong ∧
      ∃ p, Tried (folder children) location pattern.parts p ∧ TooLong p := by
  rw [find_of_look_folder hlook, hpattern, Except.bind]
  rcases select_pattern_cases hlook h hdescends with
    ⟨found, hfound, hsorted, hmem⟩ | ⟨herror, htried⟩
  · rw [hfound, Except.bind]
    have htested : ∀ p ∈ found,
        d.isSelected location excluded p = .ok (isKept (folder children) location excluded p) ∨
          d.isSelected location excluded p = .error .nameTooLong := by
      intro p hp
      obtain ⟨way, hway, hreaches⟩ := (hmem p).mp hp
      exact (isSelected_cases hlook h (hreaches.isSome rfl) hway excluded).imp And.right And.left
    rcases filterM_cases htested with ⟨hall, hfilter⟩ | ⟨herror, p, hp, hfault⟩
    · refine .inl ⟨_, hfilter, ⟨hsorted.filter _, fun p => ?_⟩, fun way hway => ?_⟩
      · rw [List.mem_filter, hmem]
        constructor
        · rintro ⟨⟨way, rfl, hreaches⟩, hkept⟩
          obtain ⟨hfile, hexcluded⟩ := isKept_iff.mp hkept
          exact ⟨way, rfl, hfile, (reaches_iff_of_fileAt hfile).mp hreaches, hexcluded⟩
        · rintro ⟨way, rfl, hfile, hfits, hexcluded⟩
          exact ⟨⟨way, rfl, (reaches_iff_of_fileAt hfile).mpr hfits⟩,
            isKept_iff.mpr ⟨hfile, hexcluded⟩⟩
      · -- what was tested has been looked at
        have hway' := (List.mem_filter.mp hway).1
        obtain ⟨way', heq, hreaches⟩ := (hmem _).mp hway'
        obtain rfl := List.append_cancel_left (congrArg Path.parts heq)
        rcases isSelected_cases hlook h (hreaches.isSome rfl) rfl excluded with
          ⟨hok, -⟩ | ⟨herror, -⟩
        · exact hok
        · cases (hall _ hway').symm.trans herror
    · -- a path that the pattern leads to is too long to be looked at
      obtain ⟨way, rfl, hreaches⟩ := (hmem p).mp hp
      refine .inr ⟨herror, _, tried_of_reaches location hreaches, ?_⟩
      rcases isSelected_cases hlook h (hreaches.isSome rfl) rfl excluded with
        ⟨-, hok⟩ | ⟨-, hlong⟩
      · cases hok.symm.trans hfault
      · exact hlong
  · rw [herror, Except.bind]
    exact .inr ⟨rfl, htried⟩

end Disk

end CrateGate.Files
