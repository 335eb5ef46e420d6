import CrateGate.Proofs.Walk
import CrateGate.Report
import CrateGate.VersionMap
import Mathlib.Tactic.Lemma

/-!
# What a version map holds

A map that is made from declarations holds exactly the versions that were declared
(`get?_of_build_eq_ok`). One declaration more is one insertion, since a crate that is there already
has to have the same version (`declare_eq_ok_iff`). Declarations that read and agree make a map
(`exists_build_eq_ok`), and what a map lists makes that map again (`build_toList`).
-/

namespace CrateGate

namespace VersionMap

variable {versions versions' : VersionMap} {pairs : List (String × Declared)} {a b : String}
  {v w : Version}

/-- One declaration more is one insertion, and does not go against what is there. -/
lemma declare_eq_ok_iff : declare versions a v = .ok versions' ↔
    (∀ w, versions.get? a = some w → w = v) ∧ versions' = versions.insert a v := by
  unfold declare
  cases hget : versions.get? a with
  | none => simp [eq_comm]
  | some earlier =>
    by_cases heq : earlier = v
    · have hsame : versions = versions.insert a v := by
        refine SortedMap.ext_get? fun b => ?_
        rw [SortedMap.get?_insert]
        split
        · next hb => rw [hb, hget, heq]
        · rfl
      simp [heq, ← hsame, eq_comm]
    · simp [heq]

/-- The map after one declaration more. -/
lemma get?_of_declare_eq_ok (h : declare versions a v = .ok versions') :
    versions'.get? b = some w ↔ versions.get? b = some w ∨ b = a ∧ w = v := by
  obtain ⟨hsame, rfl⟩ := declare_eq_ok_iff.mp h
  rw [SortedMap.get?_insert]
  by_cases hb : b = a
  · rw [if_pos hb, Option.some.injEq]
    constructor
    · intro hw
      exact .inr ⟨hb, hw.symm⟩
    · rintro (hget | ⟨-, hw⟩)
      · exact (hsame w (hb ▸ hget)).symm
      · exact hw.symm
  · simp [hb]

/-- Declarations are taken one by one: a version is read, then entered, and then the others
follow. -/
lemma declareAll_cons (versions : VersionMap) (a : String) (declared : Declared)
    (pairs : List (String × Declared)) :
    declareAll versions ((a, declared) :: pairs) =
      declared.read.bind fun v => (declare versions a v).bind fun versions =>
        declareAll versions pairs :=
  rfl

/-- The map after more declarations. -/
lemma get?_of_declareAll_eq_ok (h : declareAll versions pairs = .ok versions') :
    versions'.get? b = some w ↔
      versions.get? b = some w ∨ ∃ declared, (b, declared) ∈ pairs ∧ declared.read = .ok w := by
  induction pairs generalizing versions with
  | nil =>
    obtain rfl := Except.ok.inj h
    simp
  | cons pair pairs ih =>
    obtain ⟨a, declared⟩ := pair
    rw [declareAll_cons] at h
    obtain ⟨v, hread, h⟩ := bind_eq_ok_iff.mp h
    obtain ⟨next, hdeclare, h⟩ := bind_eq_ok_iff.mp h
    rw [ih h, get?_of_declare_eq_ok hdeclare, or_assoc]
    refine or_congr_right ?_
    constructor
    · rintro (⟨rfl, rfl⟩ | ⟨later, hmem, hlater⟩)
      · exact ⟨declared, List.mem_cons_self, hread⟩
      · exact ⟨later, List.mem_cons_of_mem _ hmem, hlater⟩
    · rintro ⟨later, hmem, hlater⟩
      rcases List.mem_cons.mp hmem with heq | hmem
      · obtain ⟨rfl, rfl⟩ := Prod.mk.inj heq
        exact .inl ⟨rfl, Except.ok.inj (hlater.symm.trans hread)⟩
      · exact .inr ⟨later, hmem, hlater⟩

/-- Declarations can be added as long as they read and, with what the map has, follow one table. -/
lemma exists_declareAll_eq_ok (table : String → Version → Prop)
    (hone : ∀ a v w, table a v → table a w → v = w)
    (hheld : ∀ a v, versions.get? a = some v → table a v)
    (hpairs : ∀ pair ∈ pairs, ∃ v, pair.2.read = .ok v ∧ table pair.1 v) :
    ∃ versions', declareAll versions pairs = .ok versions' := by
  induction pairs generalizing versions with
  | nil => exact ⟨versions, rfl⟩
  | cons pair pairs ih =>
    obtain ⟨a, declared⟩ := pair
    obtain ⟨⟨v, hread, hv⟩, hpairs⟩ := List.forall_mem_cons.mp hpairs
    have hdeclare : declare versions a v = .ok (versions.insert a v) :=
      declare_eq_ok_iff.mpr ⟨fun w hget => hone a w v (hheld a w hget) hv, rfl⟩
    have hheld' (b : String) (w : Version) (hget : (versions.insert a v).get? b = some w) :
        table b w := by
      rcases (get?_of_declare_eq_ok hdeclare).mp hget with hget | ⟨rfl, rfl⟩
      · exact hheld b w hget
      · exact hv
    obtain ⟨versions', hrest⟩ := ih hheld' hpairs
    refine ⟨versions', ?_⟩
    rw [declareAll_cons, hread]
    simp only [Except.bind, hdeclare, hrest]

/-- Declarations make a map if all of them read and those of one crate agree. -/
lemma exists_build_eq_ok (hread : ∀ pair ∈ pairs, ∃ v, pair.2.read = .ok v)
    (hagree : ∀ a declared later v w, (a, declared) ∈ pairs → (a, later) ∈ pairs →
      declared.read = .ok v → later.read = .ok w → v = w) :
    ∃ versions, build pairs = .ok versions := by
  -- the table is that of the declarations themselves
  refine exists_declareAll_eq_ok
    (fun a v => ∃ declared, (a, declared) ∈ pairs ∧ declared.read = .ok v) ?_ ?_ ?_
  · rintro a v w ⟨declared, hmem, hv⟩ ⟨later, hmem', hw⟩
    exact hagree a declared later v w hmem hmem' hv hw
  · intro a v hget
    cases hget
  · intro pair hmem
    obtain ⟨v, hv⟩ := hread pair hmem
    exact ⟨v, hv, pair.2, hmem, hv⟩

/-- **A map holds exactly the versions that were declared.** -/
theorem get?_of_build_eq_ok (h : build pairs = .ok versions) :
    versions.get? b = some w ↔ ∃ declared, (b, declared) ∈ pairs ∧ declared.read = .ok w := by
  rw [get?_of_declareAll_eq_ok h, SortedMap.get?_empty]
  simp

/-- A map is made again from what it lists, in whatever form the versions are handed over. -/
lemma build_toList {handed : Version → Declared}
    (h : ∀ a v, versions.get? a = some v → (handed v).read = .ok v) :
    build (versions.toList.map fun e => (e.1, handed e.2)) = .ok versions := by
  have hmem {a : String} {declared : Declared} :
      (a, declared) ∈ versions.toList.map (fun e => (e.1, handed e.2)) ↔
        ∃ v, versions.get? a = some v ∧ handed v = declared := by
    simp only [List.mem_map, Prod.exists, Prod.mk.injEq, SortedMap.mem_toList_iff]
    constructor
    · rintro ⟨_, v, hget, rfl, hdeclared⟩
      exact ⟨v, hget, hdeclared⟩
    · rintro ⟨v, hget, hdeclared⟩
      exact ⟨a, v, hget, rfl, hdeclared⟩
  obtain ⟨made, hmade⟩ : ∃ made,
      build (versions.toList.map fun e => (e.1, handed e.2)) = .ok made := by
    refine exists_build_eq_ok ?_ ?_
    · rintro ⟨a, declared⟩ hpair
      obtain ⟨v, hget, rfl⟩ := hmem.mp hpair
      exact ⟨v, h a v hget⟩
    · intro a declared later v w hdeclared hlater hv hw
      obtain ⟨v', hget, rfl⟩ := hmem.mp hdeclared
      obtain ⟨w', hget', rfl⟩ := hmem.mp hlater
      obtain rfl := Option.some.inj (hget.symm.trans hget')
      exact Except.ok.inj (hv.symm.trans hw)
  rw [hmade]
  congr 1
  refine SortedMap.ext_get? fun a => Option.ext fun v => ?_
  rw [get?_of_build_eq_ok hmade]
  constructor
  · rintro ⟨declared, hpair, hread⟩
    obtain ⟨w, hget, rfl⟩ := hmem.mp hpair
    obtain rfl := Except.ok.inj ((h a w hget).symm.trans hread)
    exact hget
  · intro hget
    exact ⟨handed v, hmem.mpr ⟨v, hget, rfl⟩, h a v hget⟩

end VersionMap

end CrateGate
