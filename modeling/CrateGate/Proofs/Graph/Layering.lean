import CrateGate.Proofs.Graph.Rounds
import Mathlib.Data.List.Chain
import Mathlib.Order.Bounds.Basic

/-!
# The layers are those of the longest chains

Whenever a list of packages can be put into layers, each package stands one layer above the highest
package it needs, and in the first layer if it needs none. So its layer is the length of the longest
chain of dependencies below it.

* `Layering`: what it means to be the layering of a list by longest chains.
* `Rounds.ranked`: the rounds place every crate right above the highest crate it waits for; from
  this alone follow the order, the minimality and the lengths of the chains (`Ranked`).
* `Layering.unique`: a list has at most one such layering, so the outcome is the only one.
-/

namespace CrateGate

namespace Graph

variable {r : String → String → Prop} {layers : List (List String)} {i j : Nat} {a b : String}

/-! ## Places in layers of names -/

/-- A name stands in the layer with the given number. -/
def StandsAt (layers : List (List String)) (i : Nat) (a : String) : Prop :=
  ∃ layer, layers[i]? = some layer ∧ a ∈ layer

/-- Without layers no name stands anywhere, so there is nothing to show of their places. -/
@[simp] lemma standsAt_nil : ¬StandsAt [] i a := by
  simp [StandsAt]

/-- The names at place 0 are those of the first layer, whatever layers come after it. -/
@[simp] lemma standsAt_cons_zero {layer : List String} :
    StandsAt (layer :: layers) 0 a ↔ a ∈ layer := by
  simp [StandsAt]

/-- Behind the first layer every name stands one place earlier among the others. -/
@[simp] lemma standsAt_cons_succ {layer : List String} :
    StandsAt (layer :: layers) (i + 1) a ↔ StandsAt layers i a := by
  simp [StandsAt]

/-- Where a name stands there is a layer, so its place is less than the number of layers. -/
lemma StandsAt.lt_length (h : StandsAt layers i a) : i < layers.length := by
  obtain ⟨layer, hlayer, -⟩ := h
  exact (List.getElem?_eq_some_iff.mp hlayer).1

/-- A name that stands in a layer is one of the names of all layers. -/
lemma StandsAt.mem_flatten (h : StandsAt layers i a) : a ∈ layers.flatten := by
  obtain ⟨layer, hlayer, ha⟩ := h
  exact List.mem_flatten.mpr ⟨layer, List.mem_of_getElem? hlayer, ha⟩

/-- Every name of some layer stands in that layer, so it has a place. -/
lemma exists_standsAt (h : a ∈ layers.flatten) : ∃ i, StandsAt layers i a := by
  obtain ⟨layer, hlayer, ha⟩ := List.mem_flatten.mp h
  obtain ⟨i, hi⟩ := List.getElem?_of_mem hlayer
  exact ⟨i, layer, hi, ha⟩

/-- In layers without repetition a name stands in one place. -/
lemma StandsAt.unique (hnodup : layers.flatten.Nodup) (hi : StandsAt layers i a)
    (hj : StandsAt layers j a) : i = j := by
  induction layers generalizing i j with
  | nil => exact absurd hi standsAt_nil
  | cons layer layers ih =>
    rw [List.flatten_cons, List.nodup_append] at hnodup
    obtain ⟨-, hlater, hdisjoint⟩ := hnodup
    cases i with
    | zero =>
      cases j with
      | zero => rfl
      | succ j =>
        rw [standsAt_cons_zero] at hi
        rw [standsAt_cons_succ] at hj
        exact absurd rfl (hdisjoint a hi a hj.mem_flatten)
    | succ i =>
      rw [standsAt_cons_succ] at hi
      cases j with
      | zero =>
        rw [standsAt_cons_zero] at hj
        exact absurd rfl (hdisjoint a hj a hi.mem_flatten)
      | succ j =>
        rw [standsAt_cons_succ] at hj
        exact congrArg (· + 1) (ih hlater hi hj)

/-! ## Layers by longest chains -/

/-- Layers in which every name stands in one place, right above the highest name it needs. -/
structure Ranked (r : String → String → Prop) (layers : List (List String)) : Prop where
  /-- A name stands in one place. -/
  unique : ∀ {i j a}, StandsAt layers i a → StandsAt layers j a → i = j
  /-- What a name needs stands below it. -/
  below : ∀ {i a b}, StandsAt layers i a → r a b → ∃ j < i, StandsAt layers j b
  /-- Above the first layer, something that a name needs stands right below it. -/
  tight : ∀ {i a}, StandsAt layers (i + 1) a → ∃ b, r a b ∧ StandsAt layers i b

namespace Ranked

/-- In ranked layers what a name needs stands in an earlier layer than the name does. -/
lemma lt (h : Ranked r layers) (hab : r a b) (ha : StandsAt layers i a)
    (hb : StandsAt layers j b) : j < i := by
  obtain ⟨k, hk, hb'⟩ := h.below ha hab
  rw [h.unique hb hb']
  exact hk

/-- In ranked layers a name that needs nothing stands in the first one, since every later layer is
there for a need. -/
lemma standsAt_zero (h : Ranked r layers) (ha : StandsAt layers i a) (hnone : ∀ b, ¬r a b) :
    StandsAt layers 0 a := by
  cases i with
  | zero => exact ha
  | succ i =>
    obtain ⟨b, hab, -⟩ := h.tight ha
    exact absurd hab (hnone b)

/-- A name that needs others stands right above the highest of them. -/
lemma isGreatest (h : Ranked r layers) (ha : StandsAt layers i a) (hab : r a b) :
    ∃ j, i = j + 1 ∧ IsGreatest {k | ∃ c, r a c ∧ StandsAt layers k c} j := by
  obtain ⟨k, hk, -⟩ := h.below ha hab
  obtain ⟨j, rfl⟩ : ∃ j, i = j + 1 := ⟨i - 1, by omega⟩
  refine ⟨j, rfl, h.tight ha, ?_⟩
  rintro k ⟨c, hac, hc⟩
  exact Nat.le_of_lt_succ (h.lt hac ha hc)

/-- No numbering that puts every name above those it needs puts a name lower. -/
lemma le_rank (h : Ranked r layers) {rank : String → Nat} (hrank : ∀ a b, r a b → rank b < rank a)
    (ha : StandsAt layers i a) : i ≤ rank a := by
  induction i generalizing a with
  | zero => exact Nat.zero_le _
  | succ i ih =>
    obtain ⟨b, hab, hb⟩ := h.tight ha
    exact Nat.lt_of_le_of_lt (ih hb) (hrank a b hab)

/-- A chain of needs is at most as long as its start stands high. -/
lemma length_le (h : Ranked r layers) {chain : List String} (hchain : (a :: chain).IsChain r)
    (ha : StandsAt layers i a) : chain.length ≤ i := by
  induction chain generalizing a i with
  | nil => exact Nat.zero_le _
  | cons b chain ih =>
    obtain ⟨hab, hrest⟩ := List.isChain_cons_cons.mp hchain
    obtain ⟨j, hj, hb⟩ := h.below ha hab
    have hlength := ih hrest hb
    rw [List.length_cons]
    omega

/-- From every name a chain of needs leads down through all layers below it. -/
lemma exists_chain (h : Ranked r layers) (ha : StandsAt layers i a) :
    ∃ chain, (a :: chain).IsChain r ∧ chain.length = i ∧ ∀ b ∈ chain, b ∈ layers.flatten := by
  induction i generalizing a with
  | zero => exact ⟨[], List.isChain_singleton a, rfl, by simp⟩
  | succ i ih =>
    obtain ⟨b, hab, hb⟩ := h.tight ha
    obtain ⟨chain, hchain, hlength, hmem⟩ := ih hb
    refine ⟨b :: chain, List.isChain_cons_cons.mpr ⟨hab, hchain⟩, by simp [hlength], ?_⟩
    intro c hc
    rcases List.mem_cons.mp hc with rfl | hc
    · exact hb.mem_flatten
    · exact hmem c hc

/-- There are as many layers as names on the longest chain of needs. -/
lemma isGreatest_length (h : Ranked r layers) (hne : ∀ layer ∈ layers, layer ≠ []) :
    IsGreatest {n | ∃ chain : List String, (∀ a ∈ chain, a ∈ layers.flatten) ∧ chain.IsChain r ∧
      chain.length = n} layers.length := by
  constructor
  · rcases List.eq_nil_or_concat layers with rfl | ⟨before, layer, rfl⟩
    · exact ⟨[], by simp, List.isChain_nil, rfl⟩
    · obtain ⟨a, ha⟩ := List.exists_mem_of_ne_nil layer (hne layer (by simp))
      have htop : StandsAt (before.concat layer) before.length a := ⟨layer, by simp, ha⟩
      obtain ⟨chain, hchain, hlength, hmem⟩ := h.exists_chain htop
      refine ⟨a :: chain, fun b hb => ?_, hchain, by simp [hlength]⟩
      rcases List.mem_cons.mp hb with rfl | hb
      · exact htop.mem_flatten
      · exact hmem b hb
  · rintro n ⟨chain, hmem, hchain, rfl⟩
    cases chain with
    | nil => exact Nat.zero_le _
    | cons a chain =>
      obtain ⟨i, ha⟩ := exists_standsAt (hmem a (by simp))
      have hlength := h.length_le hchain ha
      have hlt := ha.lt_length
      rw [List.length_cons]
      omega

end Ranked

namespace Rounds

variable {w rest : Waiting}

/-- What a placed crate waited for was placed in an earlier round. -/
lemma standsAt_below (h : Rounds w layers rest) (ha : StandsAt layers i a) (hab : w.WaitsFor a b) :
    ∃ j < i, StandsAt layers j b := by
  induction h generalizing i with
  | none => exact absurd ha standsAt_nil
  | @round w rest layers _ _ ih =>
    cases i with
    | zero =>
      rw [standsAt_cons_zero] at ha
      exact absurd hab ((Waiting.mem_ready.mp ha).2 b)
    | succ i =>
      rw [standsAt_cons_succ] at ha
      by_cases hb : b ∈ w.ready
      · exact ⟨0, Nat.succ_pos i, standsAt_cons_zero.mpr hb⟩
      · obtain ⟨j, hj, hstands⟩ := ih ha (Waiting.waitsFor_advance.mpr ⟨hab, hb⟩)
        exact ⟨j + 1, Nat.succ_lt_succ hj, standsAt_cons_succ.mpr hstands⟩

/-- A crate placed after the first round waited for one placed in the round before. -/
lemma standsAt_tight (h : Rounds w layers rest) (ha : StandsAt layers (i + 1) a) :
    ∃ b, w.WaitsFor a b ∧ StandsAt layers i b := by
  induction h generalizing i a with
  | none => exact absurd ha standsAt_nil
  | @round w rest layers _ h ih =>
    rw [standsAt_cons_succ] at ha
    cases i with
    | zero =>
      -- It was not ready in the first round, but waits for nothing else.
      obtain ⟨hkey, hready⟩ :=
        Waiting.mem_keys_advance.mp (h.mem_keys_of_mem_flatten ha.mem_flatten)
      obtain ⟨b, hab⟩ : ∃ b, w.WaitsFor a b := by
        by_contra hnone
        exact hready (Waiting.mem_ready.mpr ⟨hkey, not_exists.mp hnone⟩)
      refine ⟨b, hab, standsAt_cons_zero.mpr ?_⟩
      by_contra hb
      obtain ⟨j, hj, -⟩ := h.standsAt_below ha (Waiting.waitsFor_advance.mpr ⟨hab, hb⟩)
      exact Nat.not_lt_zero j hj
    | succ i =>
      obtain ⟨b, hab, hb⟩ := ih ha
      exact ⟨b, (Waiting.waitsFor_advance.mp hab).1, standsAt_cons_succ.mpr hb⟩

/-- Rounds place every crate right above the highest crate it waits for. -/
lemma ranked (h : Rounds w layers rest) : Ranked w.WaitsFor layers :=
  ⟨StandsAt.unique h.nodup_flatten, h.standsAt_below, h.standsAt_tight⟩

end Rounds

/-! ## The layering of a list of packages -/

/-- A package of the given name stands in the layer with the given number. -/
def PlacedAt (layers : List (List Package)) (i : Nat) (a : String) : Prop :=
  ∃ layer, layers[i]? = some layer ∧ ∃ p ∈ layer, p.name = a

/-- **The layering of a list of packages by longest chains.** -/
structure Layering (packages : List Package) (layers : List (List Package)) : Prop where
  /-- No name occurs twice. -/
  once : (layers.flatten.map (·.name)).Nodup
  /-- The packages are those that the names of the list stand for, the last of each name. -/
  members : ∀ p, p ∈ layers.flatten ↔ IsLast packages p
  /-- No layer is empty. -/
  nonempty : ∀ layer ∈ layers, layer ≠ []
  /-- Every layer is in the order of the names. -/
  byName : ∀ layer ∈ layers, layer.Pairwise fun p q => p.name < q.name
  /-- A crate that needs none of the list stands in the first layer. -/
  first : ∀ a, Listed packages a → (∀ b, ¬Needs packages a b) → PlacedAt layers 0 a
  /-- Any other crate stands right above the highest crate it needs. -/
  above : ∀ i a, PlacedAt layers i a → (∃ b, Needs packages a b) →
    ∃ j, i = j + 1 ∧ IsGreatest {k | ∃ b, Needs packages a b ∧ PlacedAt layers k b} j
  /-- What a crate needs stands in an earlier layer. -/
  before : ∀ i j a b, Needs packages a b → PlacedAt layers i a → PlacedAt layers j b → j < i
  /-- No crate could stand in an earlier layer. -/
  earliest : ∀ rank : String → Nat, (∀ a b, Needs packages a b → rank b < rank a) →
    ∀ i a, PlacedAt layers i a → i ≤ rank a
  /-- There are as many layers as crates on the longest chain of needs. -/
  longest : IsGreatest {n | ∃ chain : List String, (∀ a ∈ chain, Listed packages a) ∧
    chain.IsChain (Needs packages) ∧ chain.length = n} layers.length

section layering

variable {packages : List Package} {names : List (List String)} {p : Package}

/-- The packages of a layer, by their names. -/
lemma mem_filterMap_find? {layer : List String} :
    p ∈ layer.filterMap (find? packages) ↔ IsLast packages p ∧ p.name ∈ layer := by
  rw [List.mem_filterMap]
  constructor
  · rintro ⟨a, ha, hfind⟩
    obtain ⟨hlast, rfl⟩ := find?_eq_some_iff.mp hfind
    exact ⟨hlast, ha⟩
  · rintro ⟨hlast, hname⟩
    exact ⟨p.name, hname, hlast.find?_eq⟩

/-- The packages of layers of names are the last packages of those names that the list has. -/
lemma mem_flatten_packagesIn :
    p ∈ (packagesIn packages names).flatten ↔ IsLast packages p ∧ p.name ∈ names.flatten := by
  unfold packagesIn
  simp only [List.mem_flatten, List.mem_map, exists_exists_and_eq_and, mem_filterMap_find?]
  constructor
  · rintro ⟨layer, hlayer, hlast, hname⟩
    exact ⟨hlast, layer, hlayer, hname⟩
  · rintro ⟨hlast, layer, hlayer, hname⟩
    exact ⟨layer, hlayer, hlast, hname⟩

/-- The names of the packages that listed names stand for are those names. -/
lemma map_name_filterMap {layer : List String} (h : ∀ a ∈ layer, Listed packages a) :
    (layer.filterMap (find? packages)).map (·.name) = layer := by
  induction layer with
  | nil => rfl
  | cons a layer ih =>
    obtain ⟨p, hlast, hname⟩ := (h a (by simp)).exists_isLast
    have hfind : find? packages a = some p := find?_eq_some_iff.mpr ⟨hlast, hname⟩
    rw [List.filterMap_cons_some hfind, List.map_cons, hname,
      ih fun b hb => h b (List.mem_cons_of_mem a hb)]

/-- If the list has all names, the packages of layers of names have just those names, layer by
layer. -/
lemma map_name_packagesIn (h : ∀ a ∈ names.flatten, Listed packages a) :
    (packagesIn packages names).map (·.map (·.name)) = names := by
  unfold packagesIn
  rw [List.map_map]
  refine (List.map_congr_left fun layer hlayer => ?_).trans (List.map_id names)
  exact map_name_filterMap fun a ha => h a (List.mem_flatten.mpr ⟨layer, hlayer, ha⟩)

/-- A package stands where its name stands. -/
lemma placedAt_iff {layers : List (List Package)} :
    PlacedAt layers i a ↔ StandsAt (layers.map (·.map (·.name))) i a := by
  unfold PlacedAt StandsAt
  simp only [List.getElem?_map, Option.map_eq_some_iff]
  constructor
  · rintro ⟨layer, hlayer, p, hp, rfl⟩
    exact ⟨_, ⟨layer, hlayer, rfl⟩, List.mem_map_of_mem hp⟩
  · rintro ⟨_, ⟨layer, hlayer, rfl⟩, ha⟩
    obtain ⟨p, hp, rfl⟩ := List.mem_map.mp ha
    exact ⟨layer, hlayer, p, hp, rfl⟩

/-- The layering of a list from layers of its names in which every name stands right above the
highest one it needs. -/
lemma Ranked.layering (hranked : Ranked (Needs packages) names)
    (hmem : ∀ a, a ∈ names.flatten ↔ Listed packages a) (hnodup : names.flatten.Nodup)
    (hsorted : ∀ layer ∈ names, layer ≠ [] ∧ layer.Pairwise (· < ·)) :
    Layering packages (packagesIn packages names) := by
  have hlisted : ∀ a ∈ names.flatten, Listed packages a := fun a => (hmem a).mp
  have hnames := map_name_packagesIn hlisted
  have hplaced {i : Nat} {a : String} :
      PlacedAt (packagesIn packages names) i a ↔ StandsAt names i a := by
    rw [placedAt_iff, hnames]
  have hlayer {layer : List Package} (h : layer ∈ packagesIn packages names) :
      layer.map (·.name) ∈ names := by
    rw [← hnames]
    exact List.mem_map_of_mem h
  constructor
  case once =>
    rw [List.map_flatten, hnames]
    exact hnodup
  case members =>
    intro p
    rw [mem_flatten_packagesIn, hmem]
    exact and_iff_left_of_imp fun hlast => ⟨p, hlast.mem, rfl⟩
  case nonempty =>
    rintro layer h rfl
    exact (hsorted [] (hlayer h)).1 rfl
  case byName =>
    intro layer h
    exact List.pairwise_map.mp (hsorted _ (hlayer h)).2
  case first =>
    intro a ha hnone
    obtain ⟨i, hi⟩ := exists_standsAt ((hmem a).mpr ha)
    exact hplaced.mpr (hranked.standsAt_zero hi hnone)
  case above =>
    rintro i a ha ⟨b, hab⟩
    simp only [hplaced] at ha ⊢
    exact hranked.isGreatest ha hab
  case before =>
    intro i j a b hab ha hb
    exact hranked.lt hab (hplaced.mp ha) (hplaced.mp hb)
  case earliest =>
    intro rank hrank i a ha
    exact hranked.le_rank hrank (hplaced.mp ha)
  case longest =>
    unfold packagesIn
    rw [List.length_map]
    simpa only [hmem] using hranked.isGreatest_length fun layer hlayer => (hsorted layer hlayer).1

end layering

/-! ### There is one layering -/

namespace Layering

variable {packages : List Package} {layers others : List (List Package)} {p : Package}

/-- In a layering a name has one place, the length of the longest chain of needs below it. -/
lemma placedAt_unique (h : Layering packages layers) (hi : PlacedAt layers i a)
    (hj : PlacedAt layers j a) : i = j := by
  rw [placedAt_iff] at hi hj
  refine StandsAt.unique ?_ hi hj
  rw [← List.map_flatten]
  exact h.once

/-- Every crate of the list stands somewhere. -/
lemma exists_placedAt (h : Layering packages layers) (ha : Listed packages a) :
    ∃ i, PlacedAt layers i a := by
  obtain ⟨p, hlast, rfl⟩ := ha.exists_isLast
  obtain ⟨layer, hlayer, hp⟩ := List.mem_flatten.mp ((h.members p).mpr hlast)
  obtain ⟨i, hi⟩ := List.getElem?_of_mem hlayer
  exact ⟨i, layer, hi, p, hp, rfl⟩

/-- The packages of a layer are those whose names stand in it. -/
lemma mem_layer_iff (h : Layering packages layers) {layer : List Package}
    (hlayer : layers[i]? = some layer) :
    p ∈ layer ↔ IsLast packages p ∧ PlacedAt layers i p.name := by
  constructor
  · intro hp
    have hflat := List.mem_flatten.mpr ⟨layer, List.mem_of_getElem? hlayer, hp⟩
    exact ⟨(h.members p).mp hflat, layer, hlayer, p, hp, rfl⟩
  · rintro ⟨hlast, layer', hlayer', q, hq, hname⟩
    rw [hlayer] at hlayer'
    obtain rfl := Option.some.inj hlayer'
    have hflat := List.mem_flatten.mpr ⟨layer, List.mem_of_getElem? hlayer, hq⟩
    rwa [hlast.unique ((h.members q).mp hflat) hname.symm]

/-- A crate stands in no layering higher than in another one. -/
lemma le_of_placedAt (h : Layering packages layers) (h' : Layering packages others)
    (hi : PlacedAt layers i a) (hj : PlacedAt others j a) : i ≤ j := by
  let rank (a : String) : Nat := Classical.epsilon fun k => PlacedAt others k a
  have hrank {a : String} (hplaced : ∃ k, PlacedAt others k a) : PlacedAt others (rank a) a :=
    Classical.epsilon_spec hplaced
  have hneeds (a b : String) (hab : Needs packages a b) : rank b < rank a :=
    h'.before _ _ a b hab (hrank (h'.exists_placedAt hab.listed_left))
      (hrank (h'.exists_placedAt hab.2))
  have hle := h.earliest rank hneeds i a hi
  rwa [h'.placedAt_unique (hrank ⟨j, hj⟩) hj] at hle

/-- Two layerings of one list have every name at one place, as both place it by its longest
chain. -/
lemma placedAt_of_placedAt (h : Layering packages layers) (h' : Layering packages others)
    (hi : PlacedAt layers i a) : PlacedAt others i a := by
  obtain ⟨layer, hlayer, p, hp, rfl⟩ := hi
  have hlast := ((h.mem_layer_iff hlayer).mp hp).1
  obtain ⟨j, hj⟩ := h'.exists_placedAt ⟨p, hlast.mem, rfl⟩
  have hi : PlacedAt layers i p.name := ⟨layer, hlayer, p, hp, rfl⟩
  obtain rfl : i = j := le_antisymm (h.le_of_placedAt h' hi hj) (h'.le_of_placedAt h hj hi)
  exact hj

/-- No package stands twice in a layer, since a layer is in strictly increasing order of names. -/
lemma nodup_layer (h : Layering packages layers) {layer : List Package} (hlayer : layer ∈ layers) :
    layer.Nodup := by
  refine (h.byName layer hlayer).imp ?_
  rintro p _ hlt rfl
  exact String.lt_irrefl p.name hlt

/-- **A list of packages has at most one layering.** -/
lemma unique (h : Layering packages layers) (h' : Layering packages others) : layers = others := by
  have hlength : layers.length = others.length := h.longest.unique h'.longest
  refine List.ext_getElem hlength fun i hi hi' => ?_
  have hlayer := List.getElem_mem hi
  have hlayer' := List.getElem_mem hi'
  -- Both layers are in the order of the names, so it is enough that they hold the same packages.
  refine List.Perm.eq_of_pairwise ?_ (h.byName _ hlayer) (h'.byName _ hlayer') ?_
  · intro p q _ _ hpq hqp
    exact absurd (String.lt_trans hpq hqp) (String.lt_irrefl p.name)
  · rw [List.perm_ext_iff_of_nodup (h.nodup_layer hlayer) (h'.nodup_layer hlayer')]
    intro p
    rw [h.mem_layer_iff (List.getElem?_eq_getElem hi),
      h'.mem_layer_iff (List.getElem?_eq_getElem hi')]
    exact and_congr_right fun _ => ⟨h.placedAt_of_placedAt h', h'.placedAt_of_placedAt h⟩

end Layering

/-- What a layering leads to, if it leads to layers, is the layering by longest chains. -/
lemma layering_of_eq_ok {packages : List Package} {layers : List (List Package)}
    (h : Graph.layers packages = .ok layers) : Layering packages layers := by
  obtain ⟨names, rest, hrounds, -, heq⟩ := exists_rounds_layers packages
  rw [heq] at h
  split at h
  · next hkeys =>
    obtain rfl := Except.ok.inj h
    have hmem (a : String) : a ∈ names.flatten ↔ Listed packages a := by
      rw [← mem_keys_start]
      refine ⟨hrounds.mem_keys_of_mem_flatten, fun ha => ?_⟩
      by_contra hout
      have hleft := hrounds.mem_keys_iff.mpr ⟨ha, hout⟩
      exact absurd hleft (by simp [hkeys])
    have hranked := hrounds.ranked
    rw [waitsFor_start_eq] at hranked
    exact hranked.layering hmem hrounds.nodup_flatten hrounds.layer_sorted
  · cases h

/-- **Whenever a list of packages can be put into layers, the layers are its one layering by longest
chains.** -/
theorem layers_unique_layering {packages : List Package} {layers : List (List Package)}
    (h : Graph.layers packages = .ok layers) :
    Layering packages layers ∧ ∀ others, Layering packages others → others = layers :=
  ⟨layering_of_eq_ok h, fun _ hothers => hothers.unique (layering_of_eq_ok h)⟩

/-- A package to be published at version 1.0.0 that pins others at theirs. -/
def simple (name : String) (pins : List String) : Package where
  name := name
  version := ⟨1, 0, 0, "", ""⟩
  manifest := .here
  pins := pins.map fun pinned => ⟨.crate pinned, ⟨1, 0, 0, "", ""⟩⟩
  published := true

/-- Two ways lead from one crate to another. One pin leads out of the list, and an earlier package
of a name would close a circle. -/
def diamond : List Package :=
  [simple "app" ["left", "right", "serde"], simple "left" ["base"], simple "right" ["base"],
    simple "base" ["app"], simple "base" []]

/-- The four crates stand in three layers, and in no others: the pin that leads out of the list and
the earlier package of a name make no difference. -/
theorem layering_diamond :
    let layers :=
      [[simple "base" []], [simple "left" ["base"], simple "right" ["base"]],
        [simple "app" ["left", "right", "serde"]]]
    Graph.layers diamond = .ok layers ∧ Layering diamond layers ∧
      ∀ others, Layering diamond others → others = layers := by
  have h : Graph.layers diamond = .ok
      [[simple "base" []], [simple "left" ["base"], simple "right" ["base"]],
        [simple "app" ["left", "right", "serde"]]] := by decide +kernel
  exact ⟨h, layers_unique_layering h⟩

end Graph

end CrateGate
