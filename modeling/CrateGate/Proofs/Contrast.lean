import CrateGate.Proofs.Alignment
import CrateGate.Proofs.Graph.Pins
import CrateGate.Proofs.Version.Render
import CrateGate.Proofs.VersionMap

/-!
# Versions that faults tell apart

Some faults say of two versions that they differ (`Fault.contrast?`), and their wording shows both.
Where both were read from texts, a reader of the wording sees two different texts: the versions do
differ, since that is what the checks look for (`Reported.tellsApart`), and rendering keeps apart
versions that were read (`render_faithful`).
-/

namespace CrateGate

open Version

variable {fault : Fault} {v w : Version} {versions : VersionMap} {packages : List Package}
  {pairs : List (String × Declared)} {declared : Declared} {P : Version → Prop}
  {reasons : Discovery.Reasons}

/-! ## Faults -/

namespace Fault

/-- The two versions of which a fault says that they differ, in the order of its wording. -/
def contrast? : Fault → Option (Version × Version)
  | versionMismatch _ expected actual => some (expected, actual)
  | discovery (.pinConflict _ _ earlier later _) => some (earlier, later)
  | discovery (.versionsDiffer _ earlier later) => some (earlier, later)
  | discovery (.pinOutdated _ _ pinned actual _) => some (pinned, actual)
  | _ => none

/-- The wording of a problem with a manifest: the manifest comes last. -/
lemma message?_of_path {problem : Discovery.Problem} {manifest : Path}
    {before first between second : String} (hpath : problem.path = some manifest)
    (htext : problem.text reasons = ↑(before ++ first ++ between ++ second ++ "'")) :
    (discovery problem).message? reasons =
      some ↑(before ++ first ++ between ++ second ++ ("'" ++ " (" ++ manifest.render ++ ")")) := by
  rw [message?, Discovery.Problem.message, hpath, htext]
  simp only [← Text.ofString_append, String.append_assoc]

/-- The wording of a fault shows both versions that it tells apart, and is the same for all
readers of manifests. -/
lemma exists_message?_eq (h : fault.contrast? = some (v, w)) :
    ∃ before between after : String, ∀ reasons,
      fault.message? reasons =
        some ↑(before ++ v.render ++ between ++ w.render ++ after) := by
  unfold contrast? at h
  split at h
  · next name expected actual =>
    obtain ⟨rfl, rfl⟩ := Prod.mk.inj (Option.some.inj h)
    refine ⟨"Crate named '" ++ name ++ "' should be at version '", "' but is at '", "'",
      fun _ => ?_⟩
    simp only [message?, Text.ofString_append]
  · next crate label earlier later manifest =>
    obtain ⟨rfl, rfl⟩ := Prod.mk.inj (Option.some.inj h)
    refine ⟨"'" ++ crate ++ "' declares '" ++ label.plain ++ "' at both '", "' and '", _,
      fun _ => message?_of_path rfl ?_⟩
    simp only [Discovery.Problem.text, Text.ofString_append]
  · next crate earlier later =>
    obtain ⟨rfl, rfl⟩ := Prod.mk.inj (Option.some.inj h)
    refine ⟨"Crate '" ++ crate ++ "' declared at both '", "' and '", "'", fun _ => ?_⟩
    simp only [message?, Discovery.Problem.message, Discovery.Problem.path,
      Discovery.Problem.text, Text.ofString_append]
  · next crate label pinned actual manifest =>
    obtain ⟨rfl, rfl⟩ := Prod.mk.inj (Option.some.inj h)
    refine ⟨"Crate '" ++ crate ++ "' depends on '" ++ label.plain ++ "' at '",
      "' but it is at '", _, fun _ => message?_of_path rfl ?_⟩
    simp only [Discovery.Problem.text, Text.ofString_append]
  · cases h

/-- The versions that a fault tells apart, if there are any, are different versions of some
kind. -/
def TellsApart (P : Version → Prop) (fault : Fault) : Prop :=
  ∀ v w, fault.contrast? = some (v, w) → v ≠ w ∧ P v ∧ P w

/-- A fault that sets no versions against each other has none to tell apart. -/
lemma TellsApart.of_contrast?_eq_none (h : fault.contrast? = none) : fault.TellsApart P := by
  intro v w hcontrast
  rw [h] at hcontrast
  cases hcontrast

/-- Two different versions that texts write are told apart, as different versions are written
differently. -/
lemma TellsApart.of_contrast?_eq_some (h : fault.contrast? = some (v, w)) (hne : v ≠ w) (hv : P v)
    (hw : P w) : fault.TellsApart P := by
  intro v' w' hcontrast
  rw [h] at hcontrast
  obtain ⟨rfl, rfl⟩ := Prod.mk.inj (Option.some.inj hcontrast)
  exact ⟨hne, hv, hw⟩

end Fault

/-! ## Checks -/

/-- The check of the groups tells versions of the map apart. -/
lemma Alignment.tellsApart_of_check (hversions : ∀ a v, versions.get? a = some v → P v)
    (h : Alignment.check versions = .error fault) : fault.TellsApart P := by
  cases hanchor : versions.get? Category.runtimeAnchor with
  | none =>
    unfold Alignment.check VersionMap.runtime? at h
    rw [hanchor] at h
    obtain rfl := Except.error.inj h
    exact .of_contrast?_eq_none rfl
  | some runtime =>
    obtain ⟨a, hout, -⟩ := (Alignment.check_eq_error_iff_least hanchor).mp h
    cases hout with
    | runtime _ declared differs =>
      exact .of_contrast?_eq_some rfl differs.symm (hversions _ _ hanchor) (hversions _ _ declared)
    | distribution _ declared anchored differs =>
      exact .of_contrast?_eq_some rfl differs.symm (hversions _ _ anchored) (hversions _ _ declared)
    | unanchored => exact .of_contrast?_eq_none rfl

/-- The check of the pins tells versions of pins from versions of packages. -/
lemma Graph.tellsApart_of_check
    (hpackages : ∀ p ∈ packages, P p.version ∧ ∀ pin ∈ p.pins, P pin.version)
    (h : Graph.check packages = .error fault) : fault.TellsApart P := by
  unfold Graph.check at h
  split at h
  · cases h
  · next problem hfirst =>
    obtain rfl := Except.error.inj h
    obtain ⟨⟨p, pin⟩, hedge, hflaw⟩ := List.exists_of_findSome?_eq_some hfirst
    obtain ⟨hp, hpin⟩ := mem_edges.mp hedge
    simp only [flaw?] at hflaw
    split at hflaw
    · obtain rfl := Option.some.inj hflaw
      exact .of_contrast?_eq_none rfl
    · next q htarget =>
      split at hflaw
      · next hne =>
        obtain rfl := Option.some.inj hflaw
        have hq := (target?_eq_some_iff.mp htarget).1.mem
        exact .of_contrast?_eq_some rfl (Ne.symm hne) ((hpackages p hp).2 pin hpin)
          (hpackages q hq).1
      · split at hflaw
        · obtain rfl := Option.some.inj hflaw
          exact .of_contrast?_eq_none rfl
        · cases hflaw

namespace VersionMap

/-- A declaration that cannot be read is reported without a second version. -/
lemma tellsApart_of_read (h : declared.read = .error fault) : fault.TellsApart P := by
  cases declared with
  | version v => cases h
  | datum d =>
    cases hread : Version.ofDatum d with
    | ok v =>
      rw [Declared.read, hread] at h
      cases h
    | error problem =>
      rw [Declared.read, hread] at h
      obtain rfl := Except.error.inj h
      cases problem <;> exact .of_contrast?_eq_none rfl

/-- More declarations tell apart what is declared and what was declared before. -/
lemma tellsApart_of_declareAll (hversions : ∀ a v, versions.get? a = some v → P v)
    (hpairs : ∀ pair ∈ pairs, ∀ v, pair.2.read = .ok v → P v)
    (h : declareAll versions pairs = .error fault) : fault.TellsApart P := by
  induction pairs generalizing versions with
  | nil => cases h
  | cons pair pairs ih =>
    obtain ⟨a, declared⟩ := pair
    obtain ⟨hpair, hpairs⟩ := List.forall_mem_cons.mp hpairs
    rw [declareAll_cons] at h
    cases hread : declared.read with
    | error problem =>
      rw [hread] at h
      obtain rfl := Except.error.inj h
      exact tellsApart_of_read hread
    | ok v =>
      rw [hread, Except.bind] at h
      cases hdeclare : declare versions a v with
      | ok next =>
        rw [hdeclare, Except.bind] at h
        refine ih (fun b w hget => ?_) hpairs h
        rcases (get?_of_declare_eq_ok hdeclare).mp hget with hget | ⟨-, rfl⟩
        · exact hversions b w hget
        · exact hpair w hread
      | error problem =>
        rw [hdeclare] at h
        obtain rfl := Except.error.inj h
        unfold declare at hdeclare
        split at hdeclare
        · cases hdeclare
        · next earlier hget =>
          split at hdeclare
          · cases hdeclare
          · next hne =>
            obtain rfl := Except.error.inj hdeclare
            exact .of_contrast?_eq_some rfl hne (hversions a earlier hget) (hpair v hread)

end VersionMap

/-! ## What is reported -/

namespace Version

/-- A fault that a check reports of versions of some kind: the check of the groups of a map, the
check of the pins of packages, or the making of a map from declarations. -/
inductive Reported (P : Version → Prop) (fault : Fault) : Prop
  | groups {versions : VersionMap} (kind : ∀ a v, versions.get? a = some v → P v)
      (check : Alignment.check versions = .error fault)
  | pins {packages : List Package}
      (kind : ∀ p ∈ packages, P p.version ∧ ∀ pin ∈ p.pins, P pin.version)
      (check : Graph.check packages = .error fault)
  | declarations {pairs : List (String × Declared)}
      (kind : ∀ pair ∈ pairs, ∀ v, pair.2.read = .ok v → P v)
      (build : VersionMap.build pairs = .error fault)

/-- Every fault that one of the checks reports tells apart the versions that it shows. -/
lemma Reported.tellsApart (h : Reported P fault) : fault.TellsApart P := by
  cases h with
  | groups kind check => exact Alignment.tellsApart_of_check kind check
  | pins kind check => exact Graph.tellsApart_of_check kind check
  | declarations kind build =>
    exact VersionMap.tellsApart_of_declareAll (fun a v hget => by cases hget) kind build

/-- **Rendering keeps versions apart.** The versions that texts write are those with numbers that
are not negative and not too long and with well-formed identifiers, and each of them is read back
from its own text. So two of them with one text are one version, and wherever a check says of two
that they differ, it was given both and shows two different texts. -/
theorem render_faithful :
    (∀ v, (∃ s, parse s = .ok v) ↔ Canonical v) ∧
    (∀ v, Canonical v → parse v.render = .ok v) ∧
    (∀ v w, Canonical v → Canonical w → v.render = w.render → v = w) ∧
    ∀ P fault v w, Reported P fault → fault.contrast? = some (v, w) →
      P v ∧ P w ∧ (Canonical v → Canonical w → v.render ≠ w.render) ∧
      ∃ before between after : String, ∀ reasons,
        fault.message? reasons =
          some ↑(before ++ v.render ++ between ++ w.render ++ after) := by
  refine ⟨fun v => exists_parse_eq_ok_iff, fun v => parse_render,
    fun v w hv hw => (render_inj hv hw).mp, fun P fault v w hreported hcontrast => ?_⟩
  obtain ⟨hne, hPv, hPw⟩ := hreported.tellsApart v w hcontrast
  refine ⟨hPv, hPw, fun hv hw => ?_, Fault.exists_message?_eq hcontrast⟩
  rw [ne_eq, render_inj hv hw]
  exact hne

/-- A version with digits of another script in an identifier, and hyphens that begin one. -/
def mixed (build : String) : Version :=
  ⟨1, 20, 0, "٣x.0", build⟩

/-- A package that pins a crate at one such version, and the crate at another. -/
def builtApart : List Package :=
  [⟨"app", mixed "", ⟨["app", "Cargo.toml"]⟩, [⟨.crate "base", mixed "-.01"⟩], true⟩,
    ⟨"base", mixed "-.1", ⟨["base", "Cargo.toml"]⟩, [], true⟩]

/-- A pin and a crate that differ in a zero before a build number: the fault shows two texts that
differ. -/
theorem render_builtApart :
    Canonical (mixed "-.01") ∧ Canonical (mixed "-.1") ∧
      parse (mixed "-.01").render = .ok (mixed "-.01") ∧
      ∃ fault, Graph.check builtApart = .error fault ∧
        fault.contrast? = some (mixed "-.01", mixed "-.1") ∧
        (mixed "-.01").render ≠ (mixed "-.1").render := by
  have hparse (s build : String) (h : parse s = .ok (mixed build)) : Canonical (mixed build) :=
    (render_faithful.1 _).mp ⟨s, h⟩
  have hnone : Canonical (mixed "") := hparse "1.20.0-٣x.0" "" rfl
  have hlong : Canonical (mixed "-.01") := hparse "1.20.0-٣x.0+-.01" "-.01" rfl
  have hshort : Canonical (mixed "-.1") := hparse "1.20.0-٣x.0+-.1" "-.1" rfl
  have hcheck : Graph.check builtApart = .error (.discovery (.pinOutdated "app" (.crate "base")
      (mixed "-.01") (mixed "-.1") ⟨["app", "Cargo.toml"]⟩)) := by rfl
  have hreported : Reported Canonical _ :=
    .pins (by simp [builtApart, hnone, hlong, hshort]) hcheck
  obtain ⟨hv, hw, hapart, -⟩ := render_faithful.2.2.2 _ _ _ _ hreported rfl
  exact ⟨hlong, hshort, render_faithful.2.1 _ hlong, _, hcheck, rfl, hapart hv hw⟩

end Version

end CrateGate
