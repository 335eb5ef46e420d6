import CrateGate.Proofs.Graph.Needs

/-!
# What a check of the pins finds

A pin is in order (`Graph.Sound`) if the crate it names stands for a package at the pinned version
that is to be published if the pinning package is.

* `check_eq_ok_iff`: the check passes if and only if every pin of every package is in order.
* `check_eq_ok_iff_resolved`: where no name occurs twice, that is to say that the pins resolve
  (`Resolved`) and that no package to be published pins one that is not (`PublishedApart`).
-/

namespace CrateGate

namespace Graph

variable {packages : List Package} {p q : Package} {pin : Pin}

/-! ## One pin -/

/-- A pin of a package is in order. -/
def Sound (packages : List Package) (p : Package) (pin : Pin) : Prop :=
  ∃ q, IsLast packages q ∧ pin.label = .crate q.name ∧ q.version = pin.version ∧
    (p.published → q.published)

/-- A pin is on the package that the crate it names stands for. -/
lemma target?_eq_some_iff :
    target? packages pin = some q ↔ IsLast packages q ∧ pin.label = .crate q.name := by
  unfold target?
  rw [Option.bind_eq_some_iff]
  constructor
  · rintro ⟨a, hlabel, hfind⟩
    obtain ⟨hlast, rfl⟩ := find?_eq_some_iff.mp hfind
    refine ⟨hlast, ?_⟩
    cases h : pin.label <;> simp_all [Label.crate?]
  · rintro ⟨hlast, hlabel⟩
    exact ⟨q.name, by rw [hlabel]; rfl, hlast.find?_eq⟩

/-- A pin is in order if the package that it is on is found at its version. -/
lemma sound_iff_target? : Sound packages p pin ↔
    ∃ q, target? packages pin = some q ∧ q.version = pin.version ∧
      (p.published → q.published) := by
  simp only [Sound, target?_eq_some_iff, and_assoc]

/-- No flaw is found in a pin if and only if the pin is in order. -/
lemma flaw?_eq_none_iff : flaw? packages p pin = none ↔ Sound packages p pin := by
  rw [sound_iff_target?]
  unfold flaw?
  cases target? packages pin with
  | none => simp
  | some q =>
    by_cases hversion : q.version = pin.version
    · simp [hversion]
    · simp [hversion]

/-! ## All pins -/

/-- The edges of a list are its packages with each of their pins, and no others. -/
lemma mem_edges : (p, pin) ∈ edges packages ↔ p ∈ packages ∧ pin ∈ p.pins := by
  unfold edges
  simp only [List.mem_flatMap, List.mem_map, Prod.mk.injEq]
  constructor
  · rintro ⟨q, hq, pin', hpin, rfl, rfl⟩
    exact ⟨hq, hpin⟩
  · rintro ⟨hp, hpin⟩
    exact ⟨p, hp, pin, hpin, rfl, rfl⟩

/-- **The check passes if and only if every pin is in order.** -/
theorem check_eq_ok_iff :
    Graph.check packages = .ok () ↔ ∀ p ∈ packages, ∀ pin ∈ p.pins, Sound packages p pin := by
  have hnone : firstFlaw? packages = none ↔
      ∀ p ∈ packages, ∀ pin ∈ p.pins, Sound packages p pin := by
    unfold firstFlaw?
    rw [List.findSome?_eq_none_iff]
    constructor
    · intro h p hp pin hpin
      exact flaw?_eq_none_iff.mp (h (p, pin) (mem_edges.mpr ⟨hp, hpin⟩))
    · rintro h ⟨p, pin⟩ hedge
      obtain ⟨hp, hpin⟩ := mem_edges.mp hedge
      exact flaw?_eq_none_iff.mpr (h p hp pin hpin)
  rw [← hnone]
  unfold Graph.check
  cases firstFlaw? packages <;> simp

/-- If the check does not pass, it says why. -/
lemma check_cases (packages : List Package) :
    Graph.check packages = .ok () ∨
      ∃ problem, Graph.check packages = .error (.discovery problem) := by
  unfold Graph.check
  cases firstFlaw? packages with
  | none => exact .inl rfl
  | some problem => exact .inr ⟨problem, rfl⟩

/-! ## Lists in which no name occurs twice -/

/-- Every pin is on a package of the list, at the version that package has. -/
def Resolved (packages : List Package) : Prop :=
  ∀ p ∈ packages, ∀ pin ∈ p.pins,
    ∃ q ∈ packages, pin.label = .crate q.name ∧ pin.version = q.version

/-- No package to be published pins one that is not. -/
def PublishedApart (packages : List Package) : Prop :=
  ∀ p ∈ packages, p.published → ∀ pin ∈ p.pins,
    ∀ q ∈ packages, pin.label = .crate q.name → q.published

/-- **Where no name occurs twice, the check passes if and only if the pins resolve and no package to
be published pins one that is not.** -/
theorem check_eq_ok_iff_resolved (hnodup : (packages.map (·.name)).Nodup) :
    Graph.check packages = .ok () ↔ Resolved packages ∧ PublishedApart packages := by
  rw [check_eq_ok_iff]
  unfold Sound Resolved PublishedApart
  simp only [isLast_iff_mem hnodup]
  constructor
  · intro h
    refine ⟨fun p hp pin hpin => ?_, fun p hp hpublished pin hpin q hq hlabel => ?_⟩
    · obtain ⟨q, hq, hlabel, hversion, -⟩ := h p hp pin hpin
      exact ⟨q, hq, hlabel, hversion.symm⟩
    · obtain ⟨q', hq', hlabel', -, hapart⟩ := h p hp pin hpin
      have hname : q.name = q'.name := Label.crate.inj (hlabel.symm.trans hlabel')
      have hlast := (isLast_iff_mem hnodup).mpr hq
      rw [hlast.unique ((isLast_iff_mem hnodup).mpr hq') hname]
      exact hapart hpublished
  · rintro ⟨hresolved, hapart⟩ p hp pin hpin
    obtain ⟨q, hq, hlabel, hversion⟩ := hresolved p hp pin hpin
    exact ⟨q, hq, hlabel, hversion.symm,
      fun hpublished => hapart p hp hpublished pin hpin q hq hlabel⟩

end Graph

end CrateGate
