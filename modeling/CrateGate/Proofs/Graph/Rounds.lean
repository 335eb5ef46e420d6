import CrateGate.Proofs.Graph.Needs
import Mathlib.Data.List.Nodup

/-!
# Rounds of the layering

One round takes the crates that wait for nothing out of those still to be placed. What a round does
is said once, by the keys and the waiting of what it leaves (`mem_keys_advance`,
`waitsFor_advance`); what any number of rounds does follows by induction (`Rounds`).

* `Rounds.mem_keys_iff`, `Rounds.waitsFor_iff`: after any number of rounds the crates left are those
  not placed yet, and each of them waits for exactly those it waited for and that are left too.
* `exists_rounds_layersFrom`: the rounds come to an end, and the layering is what they lead to.
-/

namespace CrateGate

namespace Graph

variable {w rest : Waiting} {layers : List (List String)} {a b : String}

namespace Waiting

/-! ## One round -/

/-- Ready are the crates that wait for nothing. -/
lemma mem_ready : a ∈ w.ready ↔ a ∈ w.keys ∧ ∀ b, ¬w.WaitsFor a b := by
  unfold ready
  simp only [SortedMap.mem_keys_iff, SortedMap.get?_filter, Option.filter_eq_some_iff,
    List.isEmpty_iff]
  constructor
  · rintro ⟨names, hget, rfl⟩
    refine ⟨⟨[], hget⟩, fun b hwaits => ?_⟩
    exact absurd ((waitsFor_iff_mem hget).mp hwaits) List.not_mem_nil
  · rintro ⟨⟨names, hget⟩, hnone⟩
    refine ⟨names, hget, List.eq_nil_iff_forall_not_mem.mpr fun b hb => ?_⟩
    exact hnone b ((waitsFor_iff_mem hget).mpr hb)

/-- The crates that are ready come in strictly increasing order of their names. -/
lemma pairwise_ready (w : Waiting) : w.ready.Pairwise (· < ·) :=
  SortedMap.pairwise_keys _

/-- After a round a crate that was ready is gone, and every other one waits for what it waited for
without those that were. -/
lemma get?_advance : w.advance.get? a =
    ((w.get? a).filter fun names => !names.isEmpty).map fun names =>
      names.filter fun name => !w.ready.contains name := by
  unfold advance
  rw [SortedMap.get?_map, SortedMap.get?_filter]

/-- A round leaves the crates that are not ready. -/
lemma mem_keys_advance : a ∈ w.advance.keys ↔ a ∈ w.keys ∧ a ∉ w.ready := by
  rw [mem_ready, SortedMap.mem_keys_iff, SortedMap.mem_keys_iff]
  constructor
  · rintro ⟨left, hleft⟩
    rw [get?_advance] at hleft
    obtain ⟨names, hnames, -⟩ := Option.map_eq_some_iff.mp hleft
    obtain ⟨hget, hne⟩ := Option.filter_eq_some_iff.mp hnames
    refine ⟨⟨names, hget⟩, fun hready => ?_⟩
    obtain ⟨b, hb⟩ := List.exists_mem_of_ne_nil names (by simpa using hne)
    exact hready.2 b ((waitsFor_iff_mem hget).mpr hb)
  · rintro ⟨⟨names, hget⟩, hready⟩
    have hne : names ≠ [] := by
      rintro rfl
      refine hready ⟨⟨[], hget⟩, fun b hwaits => ?_⟩
      exact absurd ((waitsFor_iff_mem hget).mp hwaits) List.not_mem_nil
    exact ⟨names.filter fun name => !w.ready.contains name, by simp [get?_advance, hget, hne]⟩

/-- After a round a crate waits for those it waited for that were not ready. -/
lemma waitsFor_advance : w.advance.WaitsFor a b ↔ w.WaitsFor a b ∧ b ∉ w.ready := by
  unfold WaitsFor
  rw [get?_advance]
  constructor
  · rintro ⟨left, hleft, hb⟩
    obtain ⟨names, hnames, rfl⟩ := Option.map_eq_some_iff.mp hleft
    obtain ⟨hget, -⟩ := Option.filter_eq_some_iff.mp hnames
    obtain ⟨hmem, hready⟩ := List.mem_filter.mp hb
    exact ⟨⟨names, hget, hmem⟩, by simpa using hready⟩
  · rintro ⟨⟨names, hget, hb⟩, hready⟩
    have hne : names ≠ [] := List.ne_nil_of_mem hb
    refine ⟨names.filter fun name => !w.ready.contains name, by simp [hget, hne], ?_⟩
    exact List.mem_filter.mpr ⟨hb, by simpa using hready⟩

/-- A crate that waits for another one is not ready. -/
lemma not_mem_ready_of_waitsFor (h : w.WaitsFor a b) : a ∉ w.ready :=
  fun hready => (mem_ready.mp hready).2 b h

/-- A round places what is ready and leaves the rest. -/
lemma size_advance (w : Waiting) : w.ready.length + w.advance.size = w.size := by
  have hsplit := w.toList.length_eq_length_filter_add fun e => e.2.isEmpty
  simp only [ready, advance, SortedMap.keys, SortedMap.filter, SortedMap.map, SortedMap.size,
    List.length_map]
  exact hsplit.symm

/-- Every crate that is waited for is still to be placed. -/
def Closed (w : Waiting) : Prop :=
  ∀ a b, w.WaitsFor a b → b ∈ w.keys

/-- At the start crates wait for crates of the list only, so for such as are entered too. -/
lemma closed_start (packages : List Package) : (Waiting.start packages).Closed := by
  intro a b h
  exact mem_keys_start.mpr (waitsFor_start.mp h).2

/-- A round takes away a crate together with every wait for it, so what is waited for stays
entered. -/
lemma Closed.advance (h : w.Closed) : w.advance.Closed := by
  intro a b hab
  obtain ⟨hwaits, hready⟩ := waitsFor_advance.mp hab
  exact mem_keys_advance.mpr ⟨h a b hwaits, hready⟩

end Waiting

open Waiting

/-! ## Any number of rounds -/

/-- Some rounds after one another, each of which places a crate: the layers they place, and what
they leave. -/
inductive Rounds : Waiting → List (List String) → Waiting → Prop
  | none (w : Waiting) : Rounds w [] w
  | round {w rest : Waiting} {layers : List (List String)} (hready : w.ready ≠ [])
      (h : Rounds w.advance layers rest) : Rounds w (w.ready :: layers) rest

namespace Rounds

/-- After any number of rounds crates wait only for crates that are still entered. -/
lemma closed (h : Rounds w layers rest) (hclosed : w.Closed) : rest.Closed := by
  induction h with
  | none => exact hclosed
  | round _ _ ih => exact ih hclosed.advance

/-- Left are the crates that no round has placed. -/
lemma mem_keys_iff (h : Rounds w layers rest) :
    a ∈ rest.keys ↔ a ∈ w.keys ∧ a ∉ layers.flatten := by
  induction h with
  | none => simp
  | round _ _ ih =>
    rw [ih, mem_keys_advance, List.flatten_cons, List.mem_append, not_or, and_assoc]

/-- The crates left wait for those left that they waited for at first. -/
lemma waitsFor_iff (h : Rounds w layers rest) :
    rest.WaitsFor a b ↔ w.WaitsFor a b ∧ a ∉ layers.flatten ∧ b ∉ layers.flatten := by
  induction h with
  | none => simp
  | @round w rest layers _ _ ih =>
    rw [ih, waitsFor_advance]
    simp only [List.flatten_cons, List.mem_append, not_or]
    constructor
    · rintro ⟨⟨hwaits, hb⟩, ha', hb'⟩
      exact ⟨hwaits, ⟨not_mem_ready_of_waitsFor hwaits, ha'⟩, hb, hb'⟩
    · rintro ⟨hwaits, ⟨-, ha'⟩, hb, hb'⟩
      exact ⟨⟨hwaits, hb⟩, ha', hb'⟩

/-- Only crates that were to be placed are placed. -/
lemma mem_keys_of_mem_flatten (h : Rounds w layers rest) (ha : a ∈ layers.flatten) :
    a ∈ w.keys := by
  induction h with
  | none => exact absurd ha (by simp)
  | round _ _ ih =>
    rcases List.mem_append.mp (List.flatten_cons ▸ ha) with hready | hlater
    · exact (mem_ready.mp hready).1
    · exact (mem_keys_advance.mp (ih hlater)).1

/-- No crate is placed twice. -/
lemma nodup_flatten (h : Rounds w layers rest) : layers.flatten.Nodup := by
  induction h with
  | none => exact List.nodup_nil
  | round _ h ih =>
    rw [List.flatten_cons, List.nodup_append]
    refine ⟨(pairwise_ready _).imp String.ne_of_lt, ih, fun a ha b hb => ?_⟩
    rintro rfl
    exact (mem_keys_advance.mp (h.mem_keys_of_mem_flatten hb)).2 ha

/-- Every layer has a crate, and its crates stand in order. -/
lemma layer_sorted (h : Rounds w layers rest) :
    ∀ layer ∈ layers, layer ≠ [] ∧ layer.Pairwise (· < ·) := by
  induction h with
  | none => exact fun _ h => absurd h List.not_mem_nil
  | round hready _ ih =>
    intro layer hlayer
    rcases List.mem_cons.mp hlayer with rfl | hlater
    · exact ⟨hready, pairwise_ready _⟩
    · exact ih layer hlater

end Rounds

/-- **The rounds come to an end**, with nothing left or with crates of which none is ready, and the
layering is what they lead to: as many rounds as there are crates always suffice. -/
theorem exists_rounds_layersFrom {rounds : Nat} (h : w.size ≤ rounds) :
    ∃ layers rest, Rounds w layers rest ∧ rest.ready = [] ∧
      layersFrom rounds w = if rest.keys = [] then .ok layers else .error rest := by
  have hempty (w : Waiting) : w.toList.isEmpty ↔ w.keys = [] := by simp [SortedMap.keys]
  have hnothing (w : Waiting) (hkeys : w.keys = []) : w.ready = [] := by
    refine List.eq_nil_iff_forall_not_mem.mpr fun a ha => ?_
    exact absurd (mem_ready.mp ha).1 (by simp [hkeys])
  induction rounds generalizing w with
  | zero =>
    have hkeys : w.keys = [] := by
      rw [← List.length_eq_zero_iff, SortedMap.length_keys]
      omega
    exact ⟨[], w, .none w, hnothing w hkeys, by simp [layersFrom, hempty, hkeys]⟩
  | succ rounds ih =>
    unfold layersFrom
    by_cases hkeys : w.keys = []
    · exact ⟨[], w, .none w, hnothing w hkeys, by simp [hempty, hkeys]⟩
    by_cases hready : w.ready = []
    · exact ⟨[], w, .none w, hready, by simp [hempty, hkeys, hready]⟩
    have hpos : 0 < w.ready.length := List.length_pos_iff.mpr hready
    have hsize := w.size_advance
    obtain ⟨layers, rest, hrounds, hrest, heq⟩ := ih (w := w.advance) (by omega)
    refine ⟨w.ready :: layers, rest, .round hready hrounds, hrest, ?_⟩
    rw [if_neg (by simpa [hempty] using hkeys), if_neg (by simpa using hready), heq]
    split <;> rfl

/-- The packages of a list in layers, by the rounds that lead to them. -/
lemma exists_rounds_layers (packages : List Package) :
    ∃ names rest, Rounds (Waiting.start packages) names rest ∧ rest.ready = [] ∧
      Graph.layers packages =
        if rest.keys = [] then .ok (packagesIn packages names)
        else .error (.discovery (.cycle (circle rest) rest.keys)) := by
  obtain ⟨names, rest, hrounds, hready, heq⟩ :=
    exists_rounds_layersFrom (Nat.le_refl (Waiting.start packages).size)
  refine ⟨names, rest, hrounds, hready, ?_⟩
  unfold Graph.layers layerNames
  simp only [heq]
  by_cases hkeys : rest.keys = []
  · simp only [if_pos hkeys]
    rfl
  · simp only [if_neg hkeys]
    rfl

end Graph

end CrateGate
