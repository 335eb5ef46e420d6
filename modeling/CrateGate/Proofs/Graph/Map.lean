import CrateGate.Proofs.Graph.Pins

/-!
# Packages changed one by one

What becomes of the layers and of the check if every package of a list is changed. The layers depend
on the names of the packages and of the crates they pin, and on nothing else, so a change that keeps
those goes through the layering (`layers_map`). The check looks at the versions and at what is to be
published as well, but not at where manifests are (`check_map_eq_ok_iff`).
-/

namespace CrateGate.Graph

variable {f : Package → Package} {packages : List Package} {p : Package} {pin : Pin} {a : String}

/-! ## Looking names up -/

/-- Packages that keep their names are found in the changed list just where they were found
before. -/
lemma find?_map (hname : ∀ p, (f p).name = p.name) :
    find? (packages.map f) a = (find? packages a).map f := by
  unfold find?
  rw [← List.map_reverse, List.find?_map]
  congr 2
  funext p
  simp only [Function.comp_apply, hname]

/-- A pin is on the changed package of the crate that it was on, as labels are compared with names
alone. -/
lemma target?_map (hname : ∀ p, (f p).name = p.name) :
    target? (packages.map f) pin = (target? packages pin).map f := by
  unfold target?
  cases pin.label.crate? with
  | none => rfl
  | some a => exact find?_map hname

/-! ## Layers -/

/-- A change of packages that keeps the crates apart and what each of them pins. -/
structure KeepsNeeds (f : Package → Package) : Prop where
  name : ∀ p, (f p).name = p.name
  pinned : ∀ p, (f p).pinned = p.pinned

namespace KeepsNeeds

/-- What a package pins in a list is not touched by a change that keeps names and labels. -/
lemma pinnedIn_map (h : KeepsNeeds f) (packages : List Package) (p : Package) :
    pinnedIn (packages.map f) (f p) = pinnedIn packages p := by
  unfold pinnedIn
  rw [h.pinned]
  refine List.filter_congr fun a _ => ?_
  rw [List.any_map]
  congr 1
  funext q
  simp only [Function.comp_apply, h.name]

/-- So the crates wait for the same crates at the start, and everything after that goes the same
way. -/
lemma start_map (h : KeepsNeeds f) (packages : List Package) :
    Waiting.start (packages.map f) = Waiting.start packages := by
  unfold Waiting.start
  rw [List.map_map]
  congr 2
  funext p
  simp only [Function.comp_apply, h.name, h.pinnedIn_map]

end KeepsNeeds

/-- **A change that keeps the names and what is pinned goes through the layering**: the layers hold
the changed packages, and a circle is reported as before. -/
theorem layers_map (h : KeepsNeeds f) (packages : List Package) :
    Graph.layers (packages.map f) = (Graph.layers packages).map (List.map (List.map f)) := by
  have hnames : layerNames (packages.map f) = layerNames packages := by
    unfold layerNames
    rw [h.start_map]
  have hfind : find? (packages.map f) = fun a => (find? packages a).map f :=
    funext fun a => find?_map h.name
  rw [Graph.layers, Graph.layers, hnames, hfind]
  cases layerNames packages with
  | error fault => rfl
  | ok names => simp only [Except.map, List.map_map, Function.comp_def, List.map_filterMap]

/-! ## The check -/

/-- **It makes no difference to the check where manifests are.** -/
theorem check_map_eq_ok_iff (hname : ∀ p, (f p).name = p.name)
    (hversion : ∀ p, (f p).version = p.version) (hpins : ∀ p, (f p).pins = p.pins)
    (hpublished : ∀ p, (f p).published = p.published) :
    Graph.check (packages.map f) = .ok () ↔ Graph.check packages = .ok () := by
  have hsound (p : Package) (pin : Pin) :
      Sound (packages.map f) (f p) pin ↔ Sound packages p pin := by
    rw [sound_iff_target?, sound_iff_target?, target?_map hname]
    cases target? packages pin <;> simp [hversion, hpublished]
  simp only [check_eq_ok_iff, List.forall_mem_map, hpins, hsound]

end CrateGate.Graph
