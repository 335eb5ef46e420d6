import CrateGate.Proofs.Graph.Pins

/-!
# The first pin that is not in order

What is wrong with a pin is one of three things (`Flaw`): no package has the name, the package that
the name stands for has another version, or it is not to be published though the pinning package is.
They exclude each other, in this order, and the check of one pin finds the one that applies
(`flaw?_eq_some_iff`).

The check walks the packages of a list and the pins of each of them, and ends at the first pin with
a flaw. Everything before it is in order (`FirstFlaw`), and this says exactly when the check passes
and what it reports otherwise (`check_first_flaw`).
-/

namespace CrateGate

namespace Graph

open Discovery

variable {packages : List Package} {p q : Package} {pin : Pin} {problem : Problem}

/-! ## The flaw of one pin -/

/-- What is wrong with a pin of a package: of several things the first. -/
inductive Flaw (packages : List Package) (p : Package) (pin : Pin) : Problem → Prop
  | unresolved (absent : ∀ q ∈ packages, pin.label ≠ .crate q.name) :
      Flaw packages p pin (.unresolved p.name pin.label p.manifest)
  | outdated {q : Package} (target : IsLast packages q) (label : pin.label = .crate q.name)
      (differs : q.version ≠ pin.version) :
      Flaw packages p pin (.pinOutdated p.name pin.label pin.version q.version p.manifest)
  | unpublished {q : Package} (target : IsLast packages q) (label : pin.label = .crate q.name)
      (same : q.version = pin.version) (published : p.published = true)
      (kept : q.published = false) :
      Flaw packages p pin (.pinUnpublished p.name pin.label p.manifest)

/-- A pin is on no package if no package of the list has the name. -/
lemma target?_eq_none_iff :
    target? packages pin = none ↔ ∀ q ∈ packages, pin.label ≠ .crate q.name := by
  rw [Option.eq_none_iff_forall_ne_some]
  constructor
  · intro h q hq hlabel
    obtain ⟨r, hlast, hname⟩ := (show Listed packages q.name from ⟨q, hq, rfl⟩).exists_isLast
    refine h r (target?_eq_some_iff.mpr ⟨hlast, ?_⟩)
    rw [hlabel, hname]
  · intro h q htarget
    obtain ⟨hlast, hlabel⟩ := target?_eq_some_iff.mp htarget
    exact h q hlast.mem hlabel

/-- The check of one pin finds its flaw. -/
lemma flaw?_eq_some_iff : flaw? packages p pin = some problem ↔ Flaw packages p pin problem := by
  constructor
  · intro h
    unfold flaw? at h
    split at h
    · next hnone =>
      obtain rfl := Option.some.inj h
      exact .unresolved (target?_eq_none_iff.mp hnone)
    · next q htarget =>
      obtain ⟨hlast, hlabel⟩ := target?_eq_some_iff.mp htarget
      split at h
      · next hdiffers =>
        obtain rfl := Option.some.inj h
        exact .outdated hlast hlabel hdiffers
      · next hsame =>
        split at h
        · next hkept =>
          obtain rfl := Option.some.inj h
          rw [Bool.and_eq_true, Bool.not_eq_true'] at hkept
          exact .unpublished hlast hlabel (Decidable.not_not.mp hsame) hkept.1 hkept.2
        · cases h
  · intro h
    unfold flaw?
    cases h with
    | unresolved absent => rw [target?_eq_none_iff.mpr absent]
    | outdated target label differs =>
      rw [target?_eq_some_iff.mpr ⟨target, label⟩]
      exact if_pos differs
    | unpublished target label same published kept =>
      rw [target?_eq_some_iff.mpr ⟨target, label⟩]
      simp only [same, published, kept, ne_eq, not_true_eq_false, if_false, Bool.not_false,
        Bool.and_self, if_true]

/-- A flaw is reported with the manifest of the pinning package. -/
lemma Flaw.path_eq (h : Flaw packages p pin problem) : problem.path = some p.manifest := by
  cases h <;> rfl

/-- The code of a flaw says whether it is the version that is wrong. -/
lemma Flaw.code_eq (h : Flaw packages p pin problem) :
    (problem.code = "VERSION_CONFLICT" ∧
      ∃ q, IsLast packages q ∧ pin.label = .crate q.name ∧ q.version ≠ pin.version) ∨
    (problem.code = "UNRESOLVED_DEPENDENCY" ∧
      ((∀ q ∈ packages, pin.label ≠ .crate q.name) ∨
        ∃ q, IsLast packages q ∧ pin.label = .crate q.name ∧ q.version = pin.version ∧
          p.published = true ∧ q.published = false)) := by
  cases h with
  | unresolved absent => exact .inr ⟨rfl, .inl absent⟩
  | outdated target label differs => exact .inl ⟨rfl, _, target, label, differs⟩
  | unpublished target label same published kept =>
    exact .inr ⟨rfl, .inr ⟨_, target, label, same, published, kept⟩⟩

/-! ## The first flaw of a list -/

/-- A pin of a package is the first of a list that has a flaw: the pins of all packages before it
are in order, and so are those before it in its own package. -/
def FirstFlaw (packages : List Package) (p : Package) (pin : Pin) (problem : Problem) : Prop :=
  ∃ earlier later before after,
    packages = earlier ++ p :: later ∧ p.pins = before ++ pin :: after ∧
    (∀ q ∈ earlier, ∀ pin ∈ q.pins, Sound packages q pin) ∧
    (∀ pin ∈ before, Sound packages p pin) ∧ Flaw packages p pin problem

/-- The pins of a list are walked package by package. -/
lemma firstFlaw?_eq (packages : List Package) :
    firstFlaw? packages = packages.findSome? fun p => p.pins.findSome? (flaw? packages p) := by
  -- the walk goes down the list while the look-ups are in the whole of it
  have hwalk (walked : List Package) :
      (edges walked).findSome? (fun e => flaw? packages e.1 e.2) =
        walked.findSome? fun p => p.pins.findSome? (flaw? packages p) := by
    induction walked with
    | nil => rfl
    | cons p walked ih =>
      have hedges : edges (p :: walked) = p.pins.map (fun pin => (p, pin)) ++ edges walked :=
        List.flatMap_cons
      rw [hedges, List.findSome?_append, List.findSome?_map, ih, List.findSome?_cons]
      change Option.or (p.pins.findSome? (flaw? packages p)) _ = _
      cases p.pins.findSome? (flaw? packages p) <;> rfl
  exact hwalk packages

/-- Of the pins of one package the first flaw is found. -/
lemma findSome?_flaw?_eq_some_iff {pins : List Pin} :
    pins.findSome? (flaw? packages p) = some problem ↔
      ∃ before pin after, pins = before ++ pin :: after ∧
        (∀ pin ∈ before, Sound packages p pin) ∧ Flaw packages p pin problem := by
  rw [List.findSome?_eq_some_iff]
  simp only [flaw?_eq_some_iff, flaw?_eq_none_iff]
  constructor
  · rintro ⟨before, pin, after, hsplit, hflaw, hbefore⟩
    exact ⟨before, pin, after, hsplit, hbefore, hflaw⟩
  · rintro ⟨before, pin, after, hsplit, hbefore, hflaw⟩
    exact ⟨before, pin, after, hsplit, hflaw, hbefore⟩

/-- **The check finds the first flaw of a list.** -/
lemma firstFlaw?_eq_some_iff :
    firstFlaw? packages = some problem ↔ ∃ p pin, FirstFlaw packages p pin problem := by
  have hnone (p : Package) : p.pins.findSome? (flaw? packages p) = none ↔
      ∀ pin ∈ p.pins, Sound packages p pin := by
    simp only [List.findSome?_eq_none_iff, flaw?_eq_none_iff]
  rw [firstFlaw?_eq, List.findSome?_eq_some_iff]
  constructor
  · rintro ⟨earlier, p, later, hsplit, hfind, hearlier⟩
    obtain ⟨before, pin, after, hpins, hbefore, hflaw⟩ := findSome?_flaw?_eq_some_iff.mp hfind
    exact ⟨p, pin, earlier, later, before, after, hsplit, hpins,
      fun q hq => (hnone q).mp (hearlier q hq), hbefore, hflaw⟩
  · rintro ⟨p, pin, earlier, later, before, after, hsplit, hpins, hearlier, hbefore, hflaw⟩
    exact ⟨earlier, p, later, hsplit,
      findSome?_flaw?_eq_some_iff.mpr ⟨before, pin, after, hpins, hbefore, hflaw⟩,
      fun q hq => (hnone q).mpr (hearlier q hq)⟩

/-- The check reports the first flaw that its search finds, as a problem of discovery, and nothing
else. -/
lemma check_eq_error_iff {fault : Fault} : Graph.check packages = .error fault ↔
    ∃ problem, firstFlaw? packages = some problem ∧ fault = .discovery problem := by
  unfold Graph.check
  cases firstFlaw? packages with
  | none => simp
  | some problem => simp [eq_comm]

/-- **When the pins of packages are in order, and what is reported otherwise.** A name stands for
the last package that has it. The check passes if and only if every pin of every package names a
package of the list, at the version it has there, that is to be published if the pinning package is.
Otherwise it ends with the flaw of the first pin that is not in order, and only with that: it is
reported with the manifest of the pinning package, as a version that differs only if the name
resolves, and as a pin on what is not to be published only if the version is the same. -/
theorem check_first_flaw (packages : List Package) :
    (Graph.check packages = .ok () ↔
      ∀ p ∈ packages, ∀ pin ∈ p.pins, ∃ q, IsLast packages q ∧ pin.label = .crate q.name ∧
        q.version = pin.version ∧ (p.published → q.published)) ∧
    (¬(∀ p ∈ packages, ∀ pin ∈ p.pins, Sound packages p pin) →
      ∃ p pin problem, FirstFlaw packages p pin problem ∧
        Graph.check packages = .error (.discovery problem)) ∧
    ∀ fault, Graph.check packages = .error fault ↔
      ∃ p pin problem, FirstFlaw packages p pin problem ∧ fault = .discovery problem ∧
        problem.path = some p.manifest ∧
        ((problem.code = "VERSION_CONFLICT" ∧
            ∃ q, IsLast packages q ∧ pin.label = .crate q.name ∧ q.version ≠ pin.version) ∨
          (problem.code = "UNRESOLVED_DEPENDENCY" ∧
            ((∀ q ∈ packages, pin.label ≠ .crate q.name) ∨
              ∃ q, IsLast packages q ∧ pin.label = .crate q.name ∧ q.version = pin.version ∧
                p.published = true ∧ q.published = false))) := by
  refine ⟨check_eq_ok_iff, fun hnot => ?_, fun fault => ?_⟩
  · rcases check_cases packages with hok | ⟨problem, herror⟩
    · exact absurd (check_eq_ok_iff.mp hok) hnot
    · obtain ⟨problem', hfirst, heq⟩ := check_eq_error_iff.mp herror
      obtain rfl : problem = problem' := Fault.discovery.inj heq
      obtain ⟨p, pin, hflaw⟩ := firstFlaw?_eq_some_iff.mp hfirst
      exact ⟨p, pin, problem, hflaw, herror⟩
  · rw [check_eq_error_iff]
    constructor
    · rintro ⟨problem, hfirst, rfl⟩
      obtain ⟨p, pin, hfirst⟩ := firstFlaw?_eq_some_iff.mp hfirst
      obtain ⟨_, _, _, _, _, _, _, _, hflaw⟩ := id hfirst
      exact ⟨p, pin, problem, hfirst, rfl, hflaw.path_eq, hflaw.code_eq⟩
    · rintro ⟨p, pin, problem, hfirst, rfl, -, -⟩
      exact ⟨problem, firstFlaw?_eq_some_iff.mpr ⟨p, pin, hfirst⟩, rfl⟩

/-- Of two packages of one name the later is pinned, though the pins of both are checked. -/
example :
    let p (name : String) (version : Int) (pins : List Pin) : Package :=
      ⟨name, ⟨version, 0, 0, "", ""⟩, ⟨[name]⟩, pins, true⟩
    let pin (name : String) (version : Int) : Pin := ⟨.crate name, ⟨version, 0, 0, "", ""⟩⟩
    Graph.check [p "a" 1 [pin "b" 2], p "b" 2 [pin "c" 1], p "b" 3 []] = .error (.discovery
      (.pinOutdated "a" (.crate "b") ⟨2, 0, 0, "", ""⟩ ⟨3, 0, 0, "", ""⟩ ⟨["a"]⟩)) := by
  rfl

end Graph

end CrateGate
