import CrateGate.Proofs.Graph.Layering
import CrateGate.Proofs.Graph.Map
import Mathlib.Data.List.Basic

/-!
# One crate at another version

A crate is released at another version in two steps: its own version is changed, and then every pin
on it. In between the check of the pins finds the first package that still pins the old version
(`firstFlaw?_bumped`). After both steps it passes again, and the layers are the same, since no
version plays a part in them (`check_bumped_crate`).
-/

namespace CrateGate

variable {crate : String} {w : Version}

/-- The pin, at another version if it is on the crate. -/
def Pin.moved (crate : String) (w : Version) (pin : Pin) : Pin :=
  if pin.label = .crate crate then { pin with version := w } else pin

/-- A pin that is moved to another version stays a pin on the same crate. -/
@[simp] lemma Pin.moved_label (pin : Pin) : (pin.moved crate w).label = pin.label := by
  unfold moved
  split <;> rfl

namespace Package

/-- The package, at another version if it is of the crate. -/
def bumped (crate : String) (w : Version) (p : Package) : Package :=
  if p.name = crate then { p with version := w } else p

/-- The package with every pin on the crate at another version. -/
def repinned (crate : String) (w : Version) (p : Package) : Package :=
  { p with pins := p.pins.map (Pin.moved crate w) }

/-- The package at another version if it is of the crate, with every pin on the crate at that. -/
def rebased (crate : String) (w : Version) (p : Package) : Package :=
  (p.bumped crate w).repinned crate w

/-- A bump leaves the name of every package as it is, that of the crate which is bumped included. -/
@[simp] lemma bumped_name (p : Package) : (p.bumped crate w).name = p.name := by
  unfold bumped
  split <;> rfl

/-- A bump leaves every manifest where it is, so a flaw is reported at the same place. -/
@[simp] lemma bumped_manifest (p : Package) : (p.bumped crate w).manifest = p.manifest := by
  unfold bumped
  split <;> rfl

/-- A bump by itself leaves all pins behind: they are at the version from before. -/
@[simp] lemma bumped_pins (p : Package) : (p.bumped crate w).pins = p.pins := by
  unfold bumped
  split <;> rfl

/-- A bump leaves it as it is whether a package is to be published. -/
@[simp] lemma bumped_published (p : Package) : (p.bumped crate w).published = p.published := by
  unfold bumped
  split <;> rfl

/-- Moving the pins along with the crate leaves the names of all packages as they are. -/
@[simp] lemma rebased_name (p : Package) : (p.rebased crate w).name = p.name :=
  bumped_name p

/-- Moving the pins along with the crate leaves it as it is whether a package is to be published. -/
@[simp] lemma rebased_published (p : Package) : (p.rebased crate w).published = p.published :=
  bumped_published p

/-- Only the crate that is bumped has another version after pins were moved along with it. -/
lemma rebased_version (p : Package) :
    (p.rebased crate w).version = if p.name = crate then w else p.version := by
  change (p.bumped crate w).version = _
  unfold bumped
  split <;> rfl

/-- The pins of a package are moved one by one: those on the crate that is bumped, and no others. -/
lemma rebased_pins (p : Package) :
    (p.rebased crate w).pins = p.pins.map (Pin.moved crate w) := by
  change (p.bumped crate w).pins.map _ = _
  rw [bumped_pins]

end Package

namespace Graph

variable {packages : List Package} {p c : Package} {pin : Pin}

/-! ## The own version alone -/

/-- A pin that is in order is so no longer once the crate it is on has another version. -/
lemma flaw?_bumped (hnodup : (packages.map (·.name)).Nodup) (hc : c ∈ packages)
    (hw : w ≠ c.version) (hsound : Sound packages p pin) :
    flaw? (packages.map (Package.bumped c.name w)) (p.bumped c.name w) pin =
      if pin.label = .crate c.name then
        some (.pinOutdated p.name (.crate c.name) c.version w p.manifest)
      else none := by
  obtain ⟨q, htarget, hversion, hpublished⟩ := sound_iff_target?.mp hsound
  obtain ⟨hlast, hlabel⟩ := target?_eq_some_iff.mp htarget
  unfold flaw?
  rw [target?_map Package.bumped_name, htarget, hlabel]
  simp only [Option.map_some, Label.crate.injEq, Package.bumped_name, Package.bumped_manifest,
    Package.bumped_published]
  by_cases hname : q.name = c.name
  · obtain rfl : q = c := hlast.unique ((isLast_iff_mem hnodup).mpr hc) hname
    have hbumped : (q.bumped q.name w).version = w := by simp [Package.bumped]
    rw [if_pos rfl, hbumped, if_pos (hversion ▸ hw), hversion]
  · have hbumped : q.bumped c.name w = q := if_neg hname
    rw [if_neg hname, hbumped, if_neg (not_not_intro hversion), if_neg]
    simpa using hpublished

/-- Of the pins of one package those on a crate are all described alike. -/
lemma findSome?_pins {α : Type} (crate : String) (description : α) (p : Package) :
    (p.pins.findSome? fun pin => if pin.label = .crate crate then some description else none) =
      if crate ∈ p.pinned then some description else none := by
  by_cases hmem : crate ∈ p.pinned
  · rw [if_pos hmem]
    obtain ⟨pin, hpin, hlabel⟩ := mem_pinned.mp hmem
    cases hfind : p.pins.findSome? fun pin =>
        if pin.label = .crate crate then some description else none with
    | none =>
      have hnone := List.findSome?_eq_none_iff.mp hfind pin hpin
      rw [if_pos hlabel] at hnone
      cases hnone
    | some found =>
      obtain ⟨pin', -, hfound⟩ := List.exists_of_findSome?_eq_some hfind
      split at hfound
      · exact hfound.symm
      · cases hfound
  · rw [if_neg hmem, List.findSome?_eq_none_iff]
    exact fun pin hpin => if_neg fun hlabel => hmem (mem_pinned.mpr ⟨pin, hpin, hlabel⟩)

/-- Of all pins on a crate the first one is in the first package that pins it. -/
lemma findSome?_edges {α : Type} (crate : String) (describe : Package → α)
    (packages : List Package) :
    ((edges packages).findSome? fun e =>
        if e.2.label = .crate crate then some (describe e.1) else none) =
      (packages.find? fun p => crate ∈ p.pinned).map describe := by
  induction packages with
  | nil => rfl
  | cons p packages ih =>
    have hedges : edges (p :: packages) = p.pins.map (fun pin => (p, pin)) ++ edges packages :=
      List.flatMap_cons
    rw [hedges, List.findSome?_append, List.findSome?_map, ih]
    simp only [Function.comp_def, findSome?_pins, List.find?_cons]
    by_cases hmem : crate ∈ p.pinned <;> simp [hmem]

/-- **After the change of a version the first package that pins the crate is reported**, and nothing
if there is none. -/
lemma firstFlaw?_bumped (hnodup : (packages.map (·.name)).Nodup)
    (hcheck : Graph.check packages = .ok ()) (hc : c ∈ packages) (hw : w ≠ c.version) :
    firstFlaw? (packages.map (Package.bumped c.name w)) =
      (packages.find? fun p => c.name ∈ p.pinned).map fun p =>
        .pinOutdated p.name (.crate c.name) c.version w p.manifest := by
  have hedges : edges (packages.map (Package.bumped c.name w)) =
      (edges packages).map fun e => (e.1.bumped c.name w, e.2) := by
    unfold edges
    rw [List.flatMap_map, List.map_flatMap]
    simp [Function.comp_def]
  have hflaw (e : Package × Pin) (hedge : e ∈ edges packages) :
      flaw? (packages.map (Package.bumped c.name w)) (e.1.bumped c.name w) e.2 =
        if e.2.label = .crate c.name then
          some (.pinOutdated e.1.name (.crate c.name) c.version w e.1.manifest)
        else none := by
    obtain ⟨hp, hpin⟩ := mem_edges.mp hedge
    exact flaw?_bumped hnodup hc hw (check_eq_ok_iff.mp hcheck _ hp _ hpin)
  rw [← findSome?_edges, firstFlaw?, hedges, List.findSome?_map, ← List.head?_filterMap,
    ← List.head?_filterMap]
  exact congrArg List.head? (List.filterMap_congr hflaw)

/-! ## The version and the pins -/

/-- Once the pins on it are changed too, the check passes as before. -/
lemma check_rebased (hcheck : Graph.check packages = .ok ()) (crate : String) (w : Version) :
    Graph.check (packages.map (Package.rebased crate w)) = .ok () := by
  rw [check_eq_ok_iff, List.forall_mem_map]
  intro p hp
  rw [Package.rebased_pins, List.forall_mem_map]
  intro pin hpin
  obtain ⟨q, htarget, hversion, hpublished⟩ :=
    sound_iff_target?.mp (check_eq_ok_iff.mp hcheck p hp pin hpin)
  obtain ⟨hlast, hlabel⟩ := target?_eq_some_iff.mp htarget
  have htarget' : target? (packages.map (Package.rebased crate w)) (pin.moved crate w) =
      some (q.rebased crate w) := by
    have hsame : target? packages (pin.moved crate w) = target? packages pin := by
      rw [target?, target?, Pin.moved_label]
    rw [target?_map Package.rebased_name, hsame, htarget]
    rfl
  refine sound_iff_target?.mpr ⟨q.rebased crate w, htarget', ?_, by simpa using hpublished⟩
  -- the package and the pin on it have moved together, or neither has
  rw [Package.rebased_version, Pin.moved, hlabel]
  by_cases hname : q.name = crate
  · simp [hname]
  · simp [hname, hversion]

/-- Moving the pins along with the crate keeps what a package needs: names and labels stay, and
layers are made of nothing else. -/
lemma keepsNeeds_rebased (crate : String) (w : Version) :
    KeepsNeeds (Package.rebased crate w) where
  name := Package.rebased_name
  pinned p := by
    unfold Package.pinned
    rw [Package.rebased_pins, List.filterMap_map]
    simp

/-- The layers are the same, with the changed packages in them. -/
lemma layers_rebased (crate : String) (w : Version) (packages : List Package) :
    Graph.layers (packages.map (Package.rebased crate w)) =
      (Graph.layers packages).map (List.map (List.map (Package.rebased crate w))) :=
  layers_map (keepsNeeds_rebased crate w) packages

/-- **A change of version that is applied by halves is found.** Let the pins of packages be in
order, and let one of their crates have another version. The check then passes if and only if no
package pins the crate; otherwise it reports an outdated pin, of the first package that pins the
crate. Once all pins on the crate are at the new version the check passes, and the layering ends as
before: with the changed packages in the layers where they were, or with the same problem. -/
theorem check_bumped_crate (hnodup : (packages.map (·.name)).Nodup)
    (hcheck : Graph.check packages = .ok ()) (hc : c ∈ packages) (hw : w ≠ c.version) :
    let bumped := packages.map (Package.bumped c.name w)
    let rebased := packages.map (Package.rebased c.name w)
    (Graph.check bumped = .ok () ↔ ∀ p ∈ packages, c.name ∉ p.pinned) ∧
    ((∃ p ∈ packages, c.name ∈ p.pinned) → ∃ p problem,
      packages.find? (fun p => c.name ∈ p.pinned) = some p ∧
      problem = .pinOutdated p.name (.crate c.name) c.version w p.manifest ∧
      Graph.check bumped = .error (.discovery problem) ∧
      problem.code = "VERSION_CONFLICT" ∧ problem.path = some p.manifest) ∧
    Graph.check rebased = .ok () ∧
    Graph.layers rebased =
      (Graph.layers packages).map (List.map (List.map (Package.rebased c.name w))) ∧
    (Graph.layers rebased).map (List.map (List.map Package.name)) =
      (Graph.layers packages).map (List.map (List.map Package.name)) := by
  intro bumped rebased
  have hfirst : firstFlaw? bumped = _ := firstFlaw?_bumped hnodup hcheck hc hw
  refine ⟨?_, fun hpinned => ?_, check_rebased hcheck c.name w, layers_rebased c.name w packages,
    ?_⟩
  · unfold Graph.check
    rw [hfirst]
    cases hfind : packages.find? fun p => c.name ∈ p.pinned with
    | none => simpa using hfind
    | some p =>
      have hp : c.name ∈ p.pinned := by simpa using List.find?_some hfind
      simpa using ⟨p, List.mem_of_find?_eq_some hfind, hp⟩
  · obtain ⟨p, hfind⟩ : ∃ p, packages.find? (fun p => c.name ∈ p.pinned) = some p := by
      simpa [← Option.isSome_iff_exists] using hpinned
    refine ⟨p, _, hfind, rfl, ?_, rfl, rfl⟩
    unfold Graph.check
    rw [hfirst, hfind]
    rfl
  · rw [layers_rebased]
    cases Graph.layers packages with
    | error fault => rfl
    | ok layers => simp [Except.map, Function.comp_def]

/-- Three packages, each with a manifest of its own: two of them pin the other one. -/
def trio : List Package :=
  [("app", ["base"]), ("base", []), ("tool", ["base"])].map fun (name, pins) =>
    { simple name pins with manifest := ⟨[name, "Cargo.toml"]⟩ }

/-- Bumping the crate that the other two pin is refused, with the first of them, and bumping it with
the pins on it changes no layer. -/
theorem check_bumped_trio :
    let second : Version := ⟨2, 0, 0, "", ""⟩
    ∃ base ∈ trio, base.name = "base" ∧ (trio.map (·.name)).Nodup ∧
      Graph.check trio = .ok () ∧ second ≠ base.version ∧
      (∃ problem, Graph.check (trio.map (Package.bumped "base" second)) =
          .error (.discovery problem) ∧
        problem.code = "VERSION_CONFLICT" ∧ problem.path = some ⟨["app", "Cargo.toml"]⟩) ∧
      Graph.check (trio.map (Package.rebased "base" second)) = .ok () ∧
      (Graph.layers (trio.map (Package.rebased "base" second))).map
        (List.map (List.map Package.name)) = .ok [["base"], ["app", "tool"]] := by
  intro second
  have hnodup : (trio.map (·.name)).Nodup := by decide
  have hcheck : Graph.check trio = .ok () := by decide +kernel
  have hlayers : (Graph.layers trio).map (List.map (List.map Package.name)) =
      .ok [["base"], ["app", "tool"]] := by decide +kernel
  have hfirst : (trio.find? fun p => "base" ∈ p.pinned).map (·.manifest) =
      some ⟨["app", "Cargo.toml"]⟩ := by decide +kernel
  have hbase : { simple "base" [] with manifest := ⟨["base", "Cargo.toml"]⟩ } ∈ trio := by decide
  have hne : second ≠ (simple "base" []).version := by decide
  obtain ⟨-, hbumped, hrebased, -, hnames⟩ := check_bumped_crate hnodup hcheck hbase hne
  obtain ⟨p, problem, hfind, -, herror, hcode, hpath⟩ := hbumped ⟨_, List.mem_cons_self, by decide⟩
  have hmanifest : some p.manifest = some ⟨["app", "Cargo.toml"]⟩ := by
    rw [← hfirst]
    exact (congrArg (Option.map (·.manifest)) hfind).symm
  exact ⟨_, hbase, rfl, hnodup, hcheck, hne, ⟨problem, herror, hcode, hpath.trans hmanifest⟩,
    hrebased, hnames.trans hlayers⟩

end Graph

end CrateGate
