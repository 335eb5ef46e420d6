import CrateGate.Alignment
import CrateGate.Proofs.Walk
import Mathlib.Tactic.Lemma

/-!
# What aligned groups are

A crate belongs to a group by the start of its name alone, and the check of the groups passes if and
only if the anchors are there and every crate of a group has the version of its anchor
(`check_eq_ok_iff`).

If it does not pass, it says why for one crate. Both groups stand in one order of names, so the
crate is the least of all that are out of line, whatever its group (`check_outcome`).
-/

namespace CrateGate

variable {a : String}

/-! ## Groups -/

namespace Category

/-- The name of a crate of the runtime group. -/
def IsRuntime (a : String) : Prop :=
  "aws-smithy-".toList <+: a.toList

/-- The name of a crate of the distribution group. -/
def IsDistribution (a : String) : Prop :=
  "aws-".toList <+: a.toList ∧ ¬IsRuntime a

/-- The category of a crate, by the starts that its name has. -/
lemma ofName_eq (a : String) :
    ofName a = if "aws-smithy-".toList.isPrefixOf a.toList then runtime
      else if "aws-".toList.isPrefixOf a.toList then distribution else other := by
  have hlonger : "aws-sdk-".toList.isPrefixOf a.toList → "aws-".toList.isPrefixOf a.toList := by
    simp only [List.isPrefixOf_iff_prefix]
    exact List.IsPrefix.trans (by decide)
  unfold ofName table
  simp only [List.find?_cons, List.find?_nil]
  generalize "aws-smithy-".toList.isPrefixOf a.toList = smithy
  generalize "aws-sdk-".toList.isPrefixOf a.toList = sdk at hlonger ⊢
  generalize "aws-".toList.isPrefixOf a.toList = aws at hlonger ⊢
  cases smithy <;> cases sdk <;> cases aws <;> simp_all

/-- A name is of the runtime category if and only if it begins as the names of that group do: no
longer start is in the table. -/
lemma ofName_eq_runtime_iff : ofName a = runtime ↔ IsRuntime a := by
  unfold IsRuntime
  rw [ofName_eq, ← List.isPrefixOf_iff_prefix]
  split
  · simp_all
  · split <;> simp_all

/-- A name is of the distribution category if and only if it begins as the names of that group do
and is not of the runtime group. -/
lemma ofName_eq_distribution_iff : ofName a = distribution ↔ IsDistribution a := by
  unfold IsDistribution IsRuntime
  rw [ofName_eq, ← List.isPrefixOf_iff_prefix, ← List.isPrefixOf_iff_prefix]
  split
  · simp_all
  · split <;> simp_all

end Category

namespace Alignment

open Category

variable {runtime v : Version} {distribution : Option Version} {versions : VersionMap}
  {fault : Fault}

/-! ## The check -/

/-- A crate is confirmed at a version if and only if it has that version. -/
lemma confirm_eq_ok_iff : confirm a runtime v = .ok () ↔ runtime = v := by
  unfold confirm
  split <;> simp_all

/-- A crate is in line if it has the version of its group's anchor. -/
lemma checkOne_eq_ok_iff : checkOne runtime distribution a v = .ok () ↔
    (IsRuntime a → v = runtime) ∧ (IsDistribution a → distribution = some v) := by
  unfold checkOne
  rw [← ofName_eq_runtime_iff, ← ofName_eq_distribution_iff]
  cases ofName a with
  | runtime =>
    rw [confirm_eq_ok_iff]
    simp [eq_comm]
  | distribution => cases distribution <;> simp [confirm_eq_ok_iff]
  | other => simp

/-- All entries pass if and only if each of them does. -/
lemma checkAll_eq_ok_iff {entries : List (String × Version)} :
    checkAll runtime distribution entries = .ok () ↔
      ∀ e ∈ entries, checkOne runtime distribution e.1 e.2 = .ok () := by
  induction entries with
  | nil => simp [checkAll]
  | cons e entries ih =>
    rw [List.forall_mem_cons, ← ih]
    have hcons : checkAll runtime distribution (e :: entries) =
        (checkOne runtime distribution e.1 e.2).bind fun _ =>
          checkAll runtime distribution entries := rfl
    rw [hcons, bind_eq_ok_iff]
    constructor
    · rintro ⟨_, hone, hrest⟩
      exact ⟨hone, hrest⟩
    · rintro ⟨hone, hrest⟩
      exact ⟨(), hone, hrest⟩

/-- **The check passes if and only if the anchors are there and every crate of a group has the
version of its anchor.** The anchor of the distribution group may be missing if the group is
empty. -/
theorem check_eq_ok_iff : check versions = .ok () ↔
    ∃ runtime, versions.get? runtimeAnchor = some runtime ∧
      ∀ a v, versions.get? a = some v → (IsRuntime a → v = runtime) ∧
        (IsDistribution a → versions.get? distributionAnchor = some v) := by
  unfold check VersionMap.runtime? VersionMap.distribution?
  cases versions.get? runtimeAnchor with
  | none => simp
  | some runtime =>
    simp only [Option.some.injEq, exists_eq_left', checkAll_eq_ok_iff, checkOne_eq_ok_iff]
    constructor
    · intro h a v hget
      exact h (a, v) (SortedMap.mem_toList_iff.mpr hget)
    · rintro h ⟨a, v⟩ hmem
      exact h a v (SortedMap.mem_toList_iff.mp hmem)

/-! ## The crate that is reported -/

/-- A crate of a map is out of line with its group, and this is the fault that says so. -/
inductive OutOfLine (versions : VersionMap) (runtime : Version) (a : String) : Fault → Prop
  | runtime {v : Version} (group : IsRuntime a) (declared : versions.get? a = some v)
      (differs : v ≠ runtime) : OutOfLine versions runtime a (.versionMismatch a runtime v)
  | distribution {anchor v : Version} (group : IsDistribution a)
      (declared : versions.get? a = some v)
      (anchored : versions.get? distributionAnchor = some anchor) (differs : v ≠ anchor) :
      OutOfLine versions runtime a (.versionMismatch a anchor v)
  | unanchored {v : Version} (group : IsDistribution a) (declared : versions.get? a = some v)
      (anchored : versions.get? distributionAnchor = none) :
      OutOfLine versions runtime a (.anchorMissing distributionAnchor)

/-- What is out of line has a version in the map. -/
lemma OutOfLine.exists_get? (h : OutOfLine versions runtime a fault) :
    ∃ v, versions.get? a = some v := by
  cases h with
  | runtime _ declared _ => exact ⟨_, declared⟩
  | distribution _ declared _ _ => exact ⟨_, declared⟩
  | unanchored _ declared _ => exact ⟨_, declared⟩

/-- A crate that is not at the version expected is reported with both versions. -/
lemma confirm_eq_error_iff {expected : Version} : confirm a expected v = .error fault ↔
    v ≠ expected ∧ fault = .versionMismatch a expected v := by
  unfold confirm
  by_cases heq : expected = v
  · simp [heq]
  · simp [heq, Ne.symm heq, eq_comm]

/-- The fault of one crate of a map. -/
lemma checkOne_eq_error_iff (hget : versions.get? a = some v) :
    checkOne runtime versions.distribution? a v = .error fault ↔
      OutOfLine versions runtime a fault := by
  unfold checkOne VersionMap.distribution?
  constructor
  · intro h
    cases hcategory : ofName a with
    | runtime =>
      rw [hcategory] at h
      obtain ⟨hdiffers, rfl⟩ := confirm_eq_error_iff.mp h
      exact .runtime (ofName_eq_runtime_iff.mp hcategory) hget hdiffers
    | distribution =>
      have hgroup := ofName_eq_distribution_iff.mp hcategory
      rw [hcategory] at h
      cases hanchor : versions.get? distributionAnchor with
      | none =>
        rw [hanchor] at h
        obtain rfl := Except.error.inj h
        exact .unanchored hgroup hget hanchor
      | some anchor =>
        rw [hanchor] at h
        obtain ⟨hdiffers, rfl⟩ := confirm_eq_error_iff.mp h
        exact .distribution hgroup hget hanchor hdiffers
    | other =>
      rw [hcategory] at h
      cases h
  · intro h
    cases h with
    | runtime group declared differs =>
      obtain rfl := Option.some.inj (hget.symm.trans declared)
      rw [ofName_eq_runtime_iff.mpr group]
      exact confirm_eq_error_iff.mpr ⟨differs, rfl⟩
    | distribution group declared anchored differs =>
      obtain rfl := Option.some.inj (hget.symm.trans declared)
      rw [ofName_eq_distribution_iff.mpr group, anchored]
      exact confirm_eq_error_iff.mpr ⟨differs, rfl⟩
    | unanchored group _ anchored =>
      rw [ofName_eq_distribution_iff.mpr group, anchored]

/-- In a list in order, the fault is that of the least entry that has one. -/
lemma checkAll_eq_error_iff {entries : List (String × Version)}
    (hsorted : entries.Pairwise fun e e' => e.1 < e'.1) :
    checkAll runtime distribution entries = .error fault ↔
      ∃ e ∈ entries, checkOne runtime distribution e.1 e.2 = .error fault ∧
        ∀ e' ∈ entries, ∀ fault', checkOne runtime distribution e'.1 e'.2 = .error fault' →
          e.1 ≤ e'.1 := by
  induction entries with
  | nil => simp [checkAll]
  | cons head entries ih =>
    obtain ⟨hbelow, hsorted⟩ := List.pairwise_cons.mp hsorted
    have hcons : checkAll runtime distribution (head :: entries) =
        (checkOne runtime distribution head.1 head.2).bind fun _ =>
          checkAll runtime distribution entries := rfl
    rw [hcons]
    cases hhead : checkOne runtime distribution head.1 head.2 with
    | ok =>
      -- a head without a fault is not the least entry, nor does it bound it
      rw [Except.bind, ih hsorted]
      simp only [List.mem_cons, exists_eq_or_imp, forall_eq_or_imp, hhead, reduceCtorEq,
        false_and, false_or, false_implies, implies_true, true_and]
    | error first =>
      constructor
      · intro h
        obtain rfl := Except.error.inj h
        refine ⟨head, List.mem_cons_self, hhead, fun e' he' fault' _ => ?_⟩
        rcases List.mem_cons.mp he' with rfl | he'
        · exact Std.le_refl _
        · exact Std.le_of_lt (hbelow e' he')
      · rintro ⟨e, he, hfault, hleast⟩
        rcases List.mem_cons.mp he with rfl | he
        · rw [← hhead, hfault]
          rfl
        · have hle := hleast head List.mem_cons_self first hhead
          exact absurd (hbelow e he) (Std.not_lt.mpr hle)

/-- Every group of a map is aligned: the anchor of the runtime group is there, that of the
distribution group is there unless the group is empty, and each crate has the version of its
anchor. -/
def Aligned (versions : VersionMap) : Prop :=
  ∃ runtime, versions.get? "aws-smithy-types" = some runtime ∧
    (∀ a v, IsRuntime a → versions.get? a = some v → v = runtime) ∧
    ((∀ a, IsDistribution a → versions.get? a = none) ∨
      ∃ anchor, versions.get? "aws-config" = some anchor ∧
        ∀ a v, IsDistribution a → versions.get? a = some v → v = anchor)

/-- A map passes the check if and only if it is aligned. -/
lemma check_eq_ok_iff_aligned : check versions = .ok () ↔ Aligned versions := by
  rw [check_eq_ok_iff]
  refine exists_congr fun runtime => and_congr_right fun _ => ?_
  constructor
  · intro h
    refine ⟨fun a v ha hget => (h a v hget).1 ha, ?_⟩
    by_cases hempty : ∀ a, IsDistribution a → versions.get? a = none
    · exact .inl hempty
    · simp only [Classical.not_forall] at hempty
      obtain ⟨b, hb, hne⟩ := hempty
      obtain ⟨anchor, hgetb⟩ := Option.ne_none_iff_exists'.mp hne
      have hanchor := (h b anchor hgetb).2 hb
      refine .inr ⟨anchor, hanchor, fun a v ha hget => ?_⟩
      exact Option.some.inj (((h a v hget).2 ha).symm.trans hanchor)
  · rintro ⟨hruntime, hdistribution⟩ a v hget
    refine ⟨fun ha => hruntime a v ha hget, fun ha => ?_⟩
    rcases hdistribution with hempty | ⟨anchor, hanchor, hall⟩
    · rw [hempty a ha] at hget
      cases hget
    · rw [hall a v ha hget]
      exact hanchor

/-- With the anchor of the runtime group, the fault of a map is that of its least crate out of
line. -/
lemma check_eq_error_iff_least (hanchor : versions.get? runtimeAnchor = some runtime) :
    check versions = .error fault ↔
      ∃ a, OutOfLine versions runtime a fault ∧
        ∀ b fault', OutOfLine versions runtime b fault' → a ≤ b := by
  have hcheck : check versions =
      checkAll runtime versions.distribution? versions.toList := by
    unfold check VersionMap.runtime?
    rw [hanchor]
  rw [hcheck, checkAll_eq_error_iff versions.ordered]
  constructor
  · rintro ⟨⟨a, v⟩, hmem, hfault, hleast⟩
    have hget := SortedMap.mem_toList_iff.mp hmem
    refine ⟨a, (checkOne_eq_error_iff hget).mp hfault, fun b fault' hb => ?_⟩
    obtain ⟨w, hgetb⟩ := hb.exists_get?
    exact hleast (b, w) (SortedMap.mem_toList_iff.mpr hgetb) fault'
      ((checkOne_eq_error_iff hgetb).mpr hb)
  · rintro ⟨a, ha, hleast⟩
    obtain ⟨v, hget⟩ := ha.exists_get?
    refine ⟨(a, v), SortedMap.mem_toList_iff.mpr hget, (checkOne_eq_error_iff hget).mpr ha, ?_⟩
    rintro ⟨b, w⟩ hmem fault' hfault
    exact hleast b fault' ((checkOne_eq_error_iff (SortedMap.mem_toList_iff.mp hmem)).mp hfault)

/-- What the check finds is never a slip. -/
lemma kind?_isSome_of_check_eq_error (h : check versions = .error fault) :
    fault.kind?.isSome := by
  cases hanchor : versions.get? runtimeAnchor with
  | none =>
    have hruntime : versions.runtime? = none := hanchor
    rw [check, hruntime] at h
    obtain rfl := Except.error.inj h
    rfl
  | some runtime =>
    obtain ⟨a, hline, -⟩ := (check_eq_error_iff_least hanchor).mp h
    cases hline <;> rfl

/-- The check ends alike with and without its note. -/
lemma outcome_report (versions : VersionMap) : (report versions).outcome = check versions :=
  Report.outcome_bind _ _

/-- **When the groups of a map are aligned, and what is reported otherwise**: the anchor of the
runtime group if that is missing, whatever else is wrong, and else the least crate that is out of
line. -/
theorem check_outcome (versions : VersionMap) :
    (check versions = .ok () ↔ Aligned versions) ∧
    (versions.get? "aws-smithy-types" = none →
      check versions = .error (.anchorMissing "aws-smithy-types")) ∧
    ∀ runtime, versions.get? "aws-smithy-types" = some runtime →
      (¬Aligned versions → ∃ fault, check versions = .error fault) ∧
      ∀ fault, check versions = .error fault ↔
        ∃ a, OutOfLine versions runtime a fault ∧
          ∀ b fault', OutOfLine versions runtime b fault' → a ≤ b := by
  refine ⟨check_eq_ok_iff_aligned, ?_, ?_⟩
  · intro hanchor
    have hruntime : versions.runtime? = none := hanchor
    unfold check
    rw [hruntime]
    rfl
  · intro runtime hanchor
    refine ⟨fun hnot => ?_, fun fault => check_eq_error_iff_least hanchor⟩
    cases hcheck : check versions with
    | ok => exact absurd (check_eq_ok_iff_aligned.mp hcheck) hnot
    | error fault => exact ⟨fault, rfl⟩

/-- A runtime crate that differs comes before a distribution crate without an anchor. -/
example : check (.ofList [("aws-types", ⟨1, 0, 0, "", ""⟩), ("aws-smithy-types", ⟨1, 0, 0, "", ""⟩),
    ("aws-smithy-http", ⟨1, 0, 0, "rc", ""⟩)]) =
      .error (.versionMismatch "aws-smithy-http" ⟨1, 0, 0, "", ""⟩ ⟨1, 0, 0, "rc", ""⟩) := by
  rfl

end Alignment

end CrateGate
