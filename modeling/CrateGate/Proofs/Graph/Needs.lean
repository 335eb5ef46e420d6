import CrateGate.Graph.Layers
import Mathlib.Logic.Relation
import Mathlib.Tactic.Lemma

/-!
# Which crate needs which

The dependencies among the crates of a list, as a relation on names: `Needs packages a b` says that
the package that `a` stands for pins `b`, and that `b` is a crate of the list too. If a name occurs
twice, the last package of that name decides (`IsLast`).

* `find?_eq_some_iff`: looking a name up finds the last package that has it.
* `waitsFor_start`: at the start of the layering every crate waits for exactly those it needs.
-/

namespace CrateGate

open Relation

namespace Graph

variable {packages : List Package} {a b : String} {p q : Package}

/-! ## The package that a name stands for -/

/-- A package of a list is the one that its name stands for: no later one has the name. -/
def IsLast (packages : List Package) (p : Package) : Prop :=
  ∃ before after, packages = before ++ p :: after ∧ ∀ q ∈ after, q.name ≠ p.name

/-- A crate of a list: some package has the name. -/
def Listed (packages : List Package) (a : String) : Prop :=
  ∃ p ∈ packages, p.name = a

/-- One crate of a list needs another one: the package that the first name stands for pins the
second name, and a package of the list has it. -/
def Needs (packages : List Package) (a b : String) : Prop :=
  (∃ p, IsLast packages p ∧ p.name = a ∧ ∃ pin ∈ p.pins, pin.label = .crate b) ∧
    Listed packages b

/-- The last package of its name in a list is one of the packages of the list. -/
lemma IsLast.mem (h : IsLast packages p) : p ∈ packages := by
  obtain ⟨before, after, rfl, -⟩ := h
  simp

/-- Looking a name up finds the last package that has it. -/
lemma find?_eq_some_iff : find? packages a = some p ↔ IsLast packages p ∧ p.name = a := by
  unfold find? IsLast
  rw [List.find?_eq_some_iff_append]
  constructor
  · rintro ⟨hp, before, after, hsplit, hbefore⟩
    have hname : p.name = a := of_decide_eq_true hp
    refine ⟨⟨after.reverse, before.reverse, ?_, fun q hq => ?_⟩, hname⟩
    · rw [← List.reverse_reverse packages, hsplit]
      simp
    · simpa [hname] using hbefore q (List.mem_reverse.mp hq)
  · rintro ⟨⟨before, after, rfl, hafter⟩, rfl⟩
    refine ⟨by simp, after.reverse, before.reverse, by simp, fun q hq => ?_⟩
    simpa using hafter q (List.mem_reverse.mp hq)

/-- A package is found for a name if and only if the list has one of that name. -/
lemma find?_isSome_iff : (find? packages a).isSome ↔ Listed packages a := by
  unfold find? Listed
  simp

/-- Every crate of a list has a package that its name stands for. -/
lemma Listed.exists_isLast (h : Listed packages a) : ∃ p, IsLast packages p ∧ p.name = a := by
  obtain ⟨p, hp⟩ := Option.isSome_iff_exists.mp (find?_isSome_iff.mpr h)
  exact ⟨p, find?_eq_some_iff.mp hp⟩

/-- What is found for the name of a last package is that package, and none of those before it. -/
lemma IsLast.find?_eq (h : IsLast packages p) : find? packages p.name = some p :=
  find?_eq_some_iff.mpr ⟨h, rfl⟩

/-- A name stands for one package. -/
lemma IsLast.unique (hp : IsLast packages p) (hq : IsLast packages q) (h : p.name = q.name) :
    p = q := by
  have hfind := hp.find?_eq
  rw [h, hq.find?_eq] at hfind
  exact (Option.some.inj hfind).symm

/-- If no name occurs twice, every package is the one that its name stands for. -/
lemma isLast_iff_mem (h : (packages.map (·.name)).Nodup) : IsLast packages p ↔ p ∈ packages := by
  refine ⟨IsLast.mem, fun hp => ?_⟩
  obtain ⟨before, after, rfl⟩ := List.append_of_mem hp
  refine ⟨before, after, rfl, fun q hq hname => ?_⟩
  rw [List.map_append, List.map_cons] at h
  have hout := (List.nodup_cons.mp (List.nodup_append.mp h).2.1).1
  exact hout (List.mem_map.mpr ⟨q, hq, hname⟩)

/-- The packages that names in layers stand for. -/
def packagesIn (packages : List Package) (names : List (List String)) : List (List Package) :=
  names.map fun layer => layer.filterMap (find? packages)

/-! ## What crates wait for at the start -/

/-- The names that a package pins are those of the crates its pins are on; pins on other labels have
no name. -/
lemma mem_pinned : a ∈ p.pinned ↔ ∃ pin ∈ p.pins, pin.label = .crate a := by
  unfold Package.pinned
  rw [List.mem_filterMap]
  refine exists_congr fun pin => and_congr_right fun _ => ?_
  cases pin.label <;> simp [Label.crate?]

/-- In a list only pins on crates count that the list has: pins on others are never waited for. -/
lemma mem_pinnedIn :
    a ∈ pinnedIn packages p ↔ (∃ pin ∈ p.pins, pin.label = .crate a) ∧ Listed packages a := by
  unfold pinnedIn Listed
  rw [List.mem_filter, mem_pinned]
  simp

/-- One crate waits for another one. -/
def Waiting.WaitsFor (w : Waiting) (a b : String) : Prop :=
  ∃ names, w.get? a = some names ∧ b ∈ names

/-- A crate waits for just those names that are entered with it. -/
lemma Waiting.waitsFor_iff_mem {w : Waiting} {names : List String} (h : w.get? a = some names) :
    w.WaitsFor a b ↔ b ∈ names := by
  unfold Waiting.WaitsFor
  simp [h]

/-- At the start every name of the list is entered, each with what its last package pins in the
list. -/
lemma get?_start :
    (Waiting.start packages).get? a = (find? packages a).map (pinnedIn packages) := by
  unfold Waiting.start find?
  rw [SortedMap.get?_ofList, ← List.map_reverse, List.find?_map, Option.map_map]
  rfl

/-- The crates to be placed are at first those of the list. -/
lemma mem_keys_start : a ∈ (Waiting.start packages).keys ↔ Listed packages a := by
  rw [SortedMap.mem_keys_iff, ← find?_isSome_iff, get?_start]
  cases find? packages a <;> simp

/-- At the start a crate waits for those it needs. -/
lemma waitsFor_start : (Waiting.start packages).WaitsFor a b ↔ Needs packages a b := by
  unfold Waiting.WaitsFor Needs
  rw [get?_start]
  constructor
  · rintro ⟨names, hget, hb⟩
    obtain ⟨p, hfind, rfl⟩ := Option.map_eq_some_iff.mp hget
    obtain ⟨hlast, hname⟩ := find?_eq_some_iff.mp hfind
    obtain ⟨hpin, hlisted⟩ := mem_pinnedIn.mp hb
    exact ⟨⟨p, hlast, hname, hpin⟩, hlisted⟩
  · rintro ⟨⟨p, hlast, rfl, hpin⟩, hlisted⟩
    refine ⟨pinnedIn packages p, ?_, mem_pinnedIn.mpr ⟨hpin, hlisted⟩⟩
    rw [hlast.find?_eq, Option.map_some]

/-- Waiting at the start is needing, as a relation: what is proved of one is proved of the other. -/
lemma waitsFor_start_eq : (Waiting.start packages).WaitsFor = Needs packages := by
  funext a b
  exact propext waitsFor_start

/-- Only packages of the list need something in it. -/
lemma Needs.listed_left (h : Needs packages a b) : Listed packages a := by
  obtain ⟨⟨p, hlast, hname, -⟩, -⟩ := h
  exact ⟨p, hlast.mem, hname⟩

/-! ## Cycles -/

/-- From a crate some crate can be reached that needs itself, directly or through others. -/
def ReachesCycle (r : String → String → Prop) (a : String) : Prop :=
  ∃ c, ReflTransGen r a c ∧ TransGen r c c

/-- No crate of a list needs itself, be it through others. -/
def Acyclic (packages : List Package) : Prop :=
  ∀ a, ¬TransGen (Needs packages) a a

/-- A crate that reaches a cycle is followed by one that does. -/
lemma ReachesCycle.step {r : String → String → Prop} (h : ReachesCycle r a) :
    ∃ b, r a b ∧ ReachesCycle r b := by
  obtain ⟨c, hac, hcc⟩ := h
  rcases hac.cases_head with rfl | ⟨b, hab, hbc⟩
  · obtain ⟨b, hab, hba⟩ := TransGen.head'_iff.mp hcc
    exact ⟨b, hab, a, hba, hcc⟩
  · exact ⟨b, hab, c, hbc, hcc⟩

/-- A crate from which every path ends reaches no cycle. -/
lemma not_reachesCycle_of_acc {r : String → String → Prop} (h : Acc (fun b a => r a b) a) :
    ¬ReachesCycle r a := by
  induction h with
  | intro a _ ih =>
    intro hcycle
    obtain ⟨b, hab, hb⟩ := hcycle.step
    exact ih b hab hb

end Graph

end CrateGate
