import CrateGate.Proofs.Graph.Layering
import Mathlib.Data.List.Perm.Subperm

/-!
# Packages that cannot be put into layers

Packages cannot be put into layers if and only if some crate needs itself, be it through others.
What the rounds leave are then exactly the crates from which such a crate can be reached, and the
walk through them ends in a circle of needs.

* `Trail`: the invariant of the walk. The trail is a path of waiting crates without repetition, so
  it cannot have more crates than there are (`walkFrom_isCircle`).
* `Rounds.mem_keys_iff_reachesCycle`: left are the crates that reach a cycle.
* `CycleReport`: what is reported of packages that have no layers.
-/

namespace CrateGate

open Relation

namespace Graph

variable {r s : String → String → Prop} {w rest : Waiting} {layers : List (List String)}
  {trail walk names : List String} {i : Nat} {a b start current next : String}

/-! ## Circles -/

/-- A walk along a relation that ends where it starts and meets nothing else twice. -/
def IsCircle (r : String → String → Prop) (walk : List String) : Prop :=
  ∃ first rest, walk = first :: (rest ++ [first]) ∧ (first :: rest).Nodup ∧ walk.IsChain r

/-- A chain from a name to another one leads from the first to the last, by steps between
neighbours. -/
lemma transGen_of_isChain (h : (a :: (names ++ [b])).IsChain r) : TransGen r a b := by
  induction names generalizing a with
  | nil => exact .single (List.isChain_pair.mp h)
  | cons c names ih =>
    obtain ⟨hac, hrest⟩ := List.isChain_cons_cons.mp h
    exact .head hac (ih hrest)

/-- On a circle lies a name that reaches itself. -/
lemma IsCircle.exists_transGen (h : IsCircle r walk) : ∃ c ∈ walk, TransGen r c c := by
  obtain ⟨first, rest, rfl, -, hchain⟩ := h
  exact ⟨first, List.mem_cons_self, transGen_of_isChain hchain⟩

/-- A circle stays one where there are more steps than before, since it needs only its own. -/
lemma IsCircle.imp (hrs : ∀ a b, r a b → s a b) (h : IsCircle r walk) : IsCircle s walk := by
  obtain ⟨first, rest, heq, hnodup, hchain⟩ := h
  exact ⟨first, rest, heq, hnodup, hchain.imp fun a b => hrs a b⟩

/-- What reaches a cycle reaches it with more steps as well: neither the way nor the cycle can be
lost. -/
lemma ReachesCycle.mono (hrs : ∀ a b, r a b → s a b) (h : ReachesCycle r a) :
    ReachesCycle s a := by
  obtain ⟨c, hac, hcc⟩ := h
  exact ⟨c, ReflTransGen.mono hrs a c hac, TransGen.mono hrs c c hcc⟩

/-! ## The walk through crates that all wait -/

/-- The least of some names is one of them: it is the first, or one that replaced an earlier one. -/
lemma foldl_least_mem (names : List String) (a : String) :
    names.foldl (fun low n => if n < low then n else low) a ∈ a :: names := by
  induction names generalizing a with
  | nil => exact List.mem_cons_self
  | cons b names ih =>
    rw [List.foldl_cons]
    rcases List.mem_cons.mp (ih (if b < a then b else a)) with heq | hmem
    · rw [heq]
      split <;> simp
    · exact List.mem_cons_of_mem a (List.mem_cons_of_mem b hmem)

/-- The least of some names is one of them, and there is one if there are names. -/
lemma exists_least? (h : names ≠ []) : ∃ a ∈ names, least? names = some a := by
  cases names with
  | nil => exact absurd rfl h
  | cons a names => exact ⟨_, foldl_least_mem names a, rfl⟩

/-- Where no crate is ready, every crate left leads on to another one that is left. -/
lemma exists_next (hclosed : w.Closed) (hready : w.ready = []) (ha : a ∈ w.keys) :
    ∃ b, (w.get? a).bind least? = some b ∧ w.WaitsFor a b ∧ b ∈ w.keys := by
  obtain ⟨names, hget⟩ := SortedMap.mem_keys_iff.mp ha
  have hne : names ≠ [] := by
    rintro rfl
    have hmem : a ∈ w.ready := Waiting.mem_ready.mpr
      ⟨ha, fun b hab => absurd ((Waiting.waitsFor_iff_mem hget).mp hab) List.not_mem_nil⟩
    exact absurd hmem (by simp [hready])
  obtain ⟨b, hb, hleast⟩ := exists_least? hne
  have hwaits : w.WaitsFor a b := ⟨names, hget, hb⟩
  exact ⟨b, by rw [hget, Option.bind_some, hleast], hwaits, hclosed a b hwaits⟩

/-- The trail of a walk that began at some crate and has come to another one. -/
structure Trail (w : Waiting) (start : String) (trail : List String) (current : String) :
    Prop where
  /-- No crate occurs twice. -/
  nodup : trail.Nodup
  /-- Every crate waits for the next one. -/
  chain : trail.IsChain w.WaitsFor
  /-- The walk has come to the last crate. -/
  last : trail.getLast? = some current
  /-- All of them are still to be placed. -/
  left : ∀ c ∈ trail, c ∈ w.keys
  /-- All of them are reached from the start. -/
  reached : ∀ c ∈ trail, ReflTransGen w.WaitsFor start c

namespace Trail

/-- A trail begins with one crate that waits, and has taken no step yet. -/
lemma single (ha : a ∈ w.keys) : Trail w a [a] a where
  nodup := List.nodup_singleton a
  chain := List.isChain_singleton a
  last := rfl
  left := by simpa using ha
  reached := by simp [ReflTransGen.refl]

/-- The crate at which a trail has arrived is on it. -/
lemma current_mem (h : Trail w start trail current) : current ∈ trail :=
  List.mem_of_getLast? h.last

/-- If the last crate of a trail waits for another one, the trail goes on to that one as a chain. -/
lemma chain_concat (h : Trail w start trail current) (hwaits : w.WaitsFor current next) :
    (trail ++ [next]).IsChain w.WaitsFor := by
  refine List.isChain_append.mpr ⟨h.chain, List.isChain_singleton next, ?_⟩
  simpa [h.last] using hwaits

/-- A crate that the trail has not met makes it longer. -/
lemma concat (h : Trail w start trail current) (hwaits : w.WaitsFor current next)
    (hleft : next ∈ w.keys) (hnew : next ∉ trail) : Trail w start (trail ++ [next]) next where
  nodup := List.nodup_append.mpr ⟨h.nodup, List.nodup_singleton next, by
    rintro c hc d hd rfl
    exact hnew (List.mem_singleton.mp hd ▸ hc)⟩
  chain := h.chain_concat hwaits
  last := List.getLast?_concat
  left := by
    intro c hc
    rcases List.mem_append.mp hc with hc | hc
    · exact h.left c hc
    · exact List.mem_singleton.mp hc ▸ hleft
  reached := by
    intro c hc
    rcases List.mem_append.mp hc with hc | hc
    · exact h.reached c hc
    · exact List.mem_singleton.mp hc ▸ (h.reached current h.current_mem).tail hwaits

/-- A crate that the trail has met closes a circle. -/
lemma isCircle (h : Trail w start trail current) (hwaits : w.WaitsFor current next)
    (hmet : next ∈ trail) : IsCircle w.WaitsFor (trail.dropWhile (· ≠ next) ++ [next]) := by
  obtain ⟨before, after, rfl⟩ := List.append_of_mem hmet
  have hchain := h.chain_concat hwaits
  obtain ⟨-, hnodup, hdisjoint⟩ := List.nodup_append.mp h.nodup
  have hdrop : (before ++ next :: after).dropWhile (· ≠ next) = next :: after := by
    rw [List.dropWhile_append_of_pos, List.dropWhile_cons_of_neg (by simp)]
    intro c hc
    simpa using hdisjoint c hc next List.mem_cons_self
  rw [hdrop]
  refine ⟨next, after, rfl, hnodup, ?_⟩
  rw [List.append_assoc] at hchain
  exact hchain.right_of_append

/-- A trail has no more crates than there are. -/
lemma length_le (h : Trail w start trail current) : trail.length ≤ w.size := by
  rw [← SortedMap.length_keys]
  exact (List.subperm_of_subset h.nodup h.left).length_le

end Trail

/-- **The walk ends in a circle**: it needs no more steps than there are crates, always finds a
crate to go on to, and stays among those that the start reaches. -/
lemma walkFrom_isCircle (hclosed : w.Closed) (hready : w.ready = []) (steps : Nat)
    (h : Trail w start trail current) (hsteps : w.size < trail.length + steps) :
    IsCircle w.WaitsFor (walkFrom w steps trail current) ∧
      ∀ c ∈ walkFrom w steps trail current, c ∈ w.keys ∧ ReflTransGen w.WaitsFor start c := by
  induction steps generalizing trail current with
  | zero =>
    have hlength := h.length_le
    omega
  | succ steps ih =>
    obtain ⟨next, hnext, hwaits, hleft⟩ := exists_next hclosed hready (h.left _ h.current_mem)
    unfold walkFrom
    simp only [hnext, List.contains_iff_mem]
    by_cases hmet : next ∈ trail
    · simp only [if_pos hmet]
      refine ⟨h.isCircle hwaits hmet, fun c hc => ?_⟩
      have hc : c ∈ trail := by
        rcases List.mem_append.mp hc with hc | hc
        · exact List.dropWhile_subset _ hc
        · exact List.mem_singleton.mp hc ▸ hmet
      exact ⟨h.left c hc, h.reached c hc⟩
    · simp only [if_neg hmet]
      refine ih (h.concat hwaits hleft hmet) ?_
      rw [List.length_append, List.length_singleton]
      omega

/-- Where no crate is ready, every crate left reaches a cycle. -/
lemma reachesCycle_of_stuck (hclosed : w.Closed) (hready : w.ready = []) (ha : a ∈ w.keys) :
    ReachesCycle w.WaitsFor a := by
  obtain ⟨hcircle, hreached⟩ := walkFrom_isCircle hclosed hready w.size
    (Trail.single ha) (by rw [List.length_singleton]; omega)
  obtain ⟨c, hc, hcc⟩ := hcircle.exists_transGen
  exact ⟨c, (hreached c hc).2, hcc⟩

/-- Where crates wait and none of them is ready, the walk closes to a circle of crates that wait for
one another. -/
lemma circle_isCircle (hclosed : w.Closed) (hready : w.ready = []) (hkeys : w.keys ≠ []) :
    IsCircle w.WaitsFor (circle w) ∧ ∀ c ∈ circle w, c ∈ w.keys := by
  obtain ⟨first, others, heq⟩ := List.exists_cons_of_ne_nil hkeys
  have hfirst : first ∈ w.keys := by simp [heq]
  obtain ⟨hcircle, hreached⟩ := walkFrom_isCircle hclosed hready w.size
    (Trail.single hfirst) (by rw [List.length_singleton]; omega)
  have hwalk : circle w = walkFrom w w.size [first] first := by
    unfold circle
    rw [heq]
  rw [hwalk]
  exact ⟨hcircle, fun c hc => (hreached c hc).1⟩

/-! ## What the rounds leave -/

/-- From a name that stands in layers every path of needs comes to an end. -/
lemma Ranked.acc (h : Ranked r layers) (ha : StandsAt layers i a) :
    Acc (fun b a => r a b) a := by
  induction i using Nat.strong_induction_on generalizing a with
  | _ i ih =>
    refine Acc.intro a fun b hab => ?_
    obtain ⟨j, hj, hb⟩ := h.below ha hab
    exact ih j hj hb

/-- **Left are the crates that reach a cycle**, once no crate is ready. -/
lemma Rounds.mem_keys_iff_reachesCycle (h : Rounds w layers rest) (hclosed : w.Closed)
    (hready : rest.ready = []) :
    a ∈ rest.keys ↔ a ∈ w.keys ∧ ReachesCycle w.WaitsFor a := by
  constructor
  · intro ha
    refine ⟨(h.mem_keys_iff.mp ha).1, ?_⟩
    refine (reachesCycle_of_stuck (h.closed hclosed) hready ha).mono fun a b hab => ?_
    exact (h.waitsFor_iff.mp hab).1
  · rintro ⟨ha, hcycle⟩
    refine h.mem_keys_iff.mpr ⟨ha, fun hplaced => ?_⟩
    obtain ⟨i, hi⟩ := exists_standsAt hplaced
    exact not_reachesCycle_of_acc (h.ranked.acc hi) hcycle

/-! ## The report -/

/-- What is reported of packages that cannot be put into layers, along with the circle that the
message shows. -/
structure CycleReport (packages : List Package) (problem : Discovery.Problem)
    (walk : List String) : Prop where
  /-- It is a cycle that is reported. -/
  code : problem.code = "DEPENDENCY_CYCLE"
  /-- The message shows the walk. -/
  message : ∀ reasons, problem.message reasons =
    ↑("Dependency cycle detected: " ++ " -> ".intercalate walk)
  /-- The walk is a circle of needs. -/
  circle : IsCircle (Needs packages) walk
  /-- The details are in order, none of them twice. -/
  sorted : problem.details.Pairwise (· < ·)
  /-- The details are the crates of the list that reach a cycle. -/
  details : ∀ a, a ∈ problem.details ↔ Listed packages a ∧ ReachesCycle (Needs packages) a
  /-- The crates on the walk are among them. -/
  covers : ∀ a ∈ walk, a ∈ problem.details

section report

variable {packages : List Package}

/-- Left are the crates of the list that reach a cycle. -/
lemma Rounds.mem_keys_iff_listed (h : Rounds (Waiting.start packages) layers rest)
    (hready : rest.ready = []) :
    a ∈ rest.keys ↔ Listed packages a ∧ ReachesCycle (Needs packages) a := by
  rw [h.mem_keys_iff_reachesCycle (Waiting.closed_start packages) hready, mem_keys_start,
    waitsFor_start_eq]

/-- If something is left, the report of it says what is wrong. -/
lemma Rounds.cycleReport (h : Rounds (Waiting.start packages) layers rest)
    (hready : rest.ready = []) (hkeys : rest.keys ≠ []) :
    CycleReport packages (.cycle (circle rest) rest.keys) (circle rest) := by
  have hclosed := h.closed (Waiting.closed_start packages)
  obtain ⟨hcircle, hleft⟩ := circle_isCircle hclosed hready hkeys
  have hmessage := (Text.ofString_append "Dependency cycle detected: "
    (" -> ".intercalate (circle rest))).symm
  refine ⟨rfl, fun _ => hmessage, ?_, SortedMap.pairwise_keys rest,
    fun a => h.mem_keys_iff_listed hready, hleft⟩
  exact hcircle.imp fun a b hab => waitsFor_start.mp (h.waitsFor_iff.mp hab).1

/-- The rounds leave something if and only if there is a cycle. -/
lemma Rounds.keys_ne_nil_iff (h : Rounds (Waiting.start packages) layers rest)
    (hready : rest.ready = []) : rest.keys ≠ [] ↔ ¬Acyclic packages := by
  unfold Acyclic
  rw [not_forall_not]
  constructor
  · intro hkeys
    obtain ⟨a, ha⟩ := List.exists_mem_of_ne_nil _ hkeys
    obtain ⟨-, c, -, hcc⟩ := (h.mem_keys_iff_listed hready).mp ha
    exact ⟨c, hcc⟩
  · rintro ⟨c, hcc⟩
    obtain ⟨b, hcb, -⟩ := TransGen.head'_iff.mp hcc
    exact List.ne_nil_of_mem ((h.mem_keys_iff_listed hready).mpr ⟨hcb.listed_left, c, .refl, hcc⟩)

/-- How a layering ends: with layers if there is no cycle, and else with a report of one. -/
lemma layers_cases (packages : List Package) :
    (Acyclic packages ∧ ∃ layers, Graph.layers packages = .ok layers) ∨
      ¬Acyclic packages ∧ ∃ problem walk, Graph.layers packages = .error (.discovery problem) ∧
        CycleReport packages problem walk := by
  obtain ⟨names, rest, hrounds, hready, heq⟩ := exists_rounds_layers packages
  have hcycle := hrounds.keys_ne_nil_iff hready
  by_cases hkeys : rest.keys = []
  · rw [if_pos hkeys] at heq
    exact .inl ⟨not_not.mp (mt hcycle.mpr (not_not.mpr hkeys)), _, heq⟩
  · rw [if_neg hkeys] at heq
    exact .inr ⟨hcycle.mp hkeys, _, _, heq, hrounds.cycleReport hready hkeys⟩

end report

/-- **Packages cannot be put into layers if and only if some crate needs itself, be it through
others**: the rounds always come to an end, and if they leave something it is reported with a circle
of needs and with all crates that reach one. -/
theorem layers_error_iff_cycle (packages : List Package) :
    (∃ names rest, Rounds (Waiting.start packages) names rest ∧ rest.ready = [] ∧
      Graph.layers packages = if rest.keys = [] then .ok (packagesIn packages names)
        else .error (.discovery (.cycle (circle rest) rest.keys))) ∧
    ((∃ fault, Graph.layers packages = .error fault) ↔ ∃ a, TransGen (Needs packages) a a) ∧
    ∀ fault, Graph.layers packages = .error fault →
      ∃ problem walk, fault = .discovery problem ∧ CycleReport packages problem walk := by
  refine ⟨exists_rounds_layers packages, ?_⟩
  rcases layers_cases packages with ⟨hacyclic, layers, heq⟩ | ⟨hcycle, problem, walk, heq, hreport⟩
  · rw [heq]
    refine ⟨⟨fun ⟨fault, h⟩ => ?_, fun ⟨a, h⟩ => absurd h (hacyclic a)⟩, fun fault h => ?_⟩
    · cases h
    · cases h
  · rw [heq]
    refine ⟨⟨fun _ => not_forall_not.mp hcycle, fun _ => ⟨_, rfl⟩⟩, fun fault h => ?_⟩
    exact ⟨problem, walk, (Except.error.inj h).symm, hreport⟩

/-- Two crates need one another, and a third one needs them. -/
def knot : List Package :=
  [simple "app" ["left"], simple "left" ["right"], simple "right" ["left", "base"],
    simple "base" []]

/-- The two crates are reported as a cycle, and the third one is named among those that reach it;
the crate that needs nothing is not. -/
theorem layers_knot :
    let problem := Discovery.Problem.cycle ["left", "right", "left"] ["app", "left", "right"]
    Graph.layers knot = .error (.discovery problem) ∧ ∃ walk, CycleReport knot problem walk := by
  have h : Graph.layers knot =
      .error (.discovery (.cycle ["left", "right", "left"] ["app", "left", "right"])) := by
    decide +kernel
  refine ⟨h, ?_⟩
  obtain ⟨problem, walk, heq, hreport⟩ := (layers_error_iff_cycle knot).2.2 _ h
  obtain rfl := Fault.discovery.inj heq
  exact ⟨walk, hreport⟩

end Graph

end CrateGate
