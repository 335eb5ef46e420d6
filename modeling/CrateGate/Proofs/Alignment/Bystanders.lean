import CrateGate.Proofs.Alignment

/-!
# Crates outside the groups

A crate is in a group if and only if its name starts with `aws-` (`inGroup_iff`). A crate that is
in none is a bystander: the check walks past it wherever it stands in the order of names
(`checkAll_filter`), and since the anchors themselves are in their groups, the check of a map is
that of its crates in groups (`check_grouped`).

So two maps that agree on the names that start with `aws-` are checked alike, whatever else they
hold and in whatever order their entries were set (`checkedAlike_of_same_groups`).
-/

namespace CrateGate

variable {a : String}

/-! ## Names in groups -/

namespace Category

/-- The name of a crate that is in one of the groups. -/
def InGroup (a : String) : Prop :=
  "aws-".toList <+: a.toList

instance : DecidablePred InGroup :=
  fun a => inferInstanceAs (Decidable ("aws-".toList <+: a.toList))

/-- The start of the runtime group is longer than that of all groups. -/
lemma IsRuntime.inGroup (h : IsRuntime a) : InGroup a := by
  have hlonger : "aws-".toList <+: "aws-smithy-".toList := by decide
  exact hlonger.trans h

/-- A name is in a group if and only if it is of the runtime or of the distribution category. -/
lemma inGroup_iff : InGroup a ↔ IsRuntime a ∨ IsDistribution a := by
  constructor
  · intro h
    by_cases hruntime : IsRuntime a
    · exact .inl hruntime
    · exact .inr ⟨h, hruntime⟩
  · rintro (h | h)
    · exact h.inGroup
    · exact h.1

/-- The other category is that of the names in no group. -/
lemma ofName_eq_other_iff : ofName a = other ↔ ¬InGroup a := by
  rw [inGroup_iff, ← ofName_eq_runtime_iff, ← ofName_eq_distribution_iff]
  cases ofName a <;> simp

/-- The anchor of the runtime group is in a group, so it is never left out as a bystander. -/
lemma inGroup_runtimeAnchor : InGroup runtimeAnchor := by decide

/-- Nor is the anchor of the distribution group. -/
lemma inGroup_distributionAnchor : InGroup distributionAnchor := by decide

end Category

/-! ## Maps and what they hold of the groups -/

open Category

variable {versions others : VersionMap} {v runtime : Version} {distribution : Option Version}

/-- The crates of a map that are in groups. -/
def VersionMap.grouped (versions : VersionMap) : VersionMap :=
  versions.filter fun a _ => decide (InGroup a)

/-- A map without its bystanders has the versions of the names in groups, and no others. -/
lemma VersionMap.get?_grouped (versions : VersionMap) (a : String) :
    versions.grouped.get? a = if InGroup a then versions.get? a else none := by
  unfold grouped
  rw [SortedMap.get?_filter]
  by_cases h : InGroup a
  · simp only [h, decide_true, if_true]
    cases versions.get? a <;> rfl
  · simp [h]

/-- Maps that agree on the names in groups hold the same crates that are in groups. -/
lemma VersionMap.grouped_congr (h : ∀ a, InGroup a → versions.get? a = others.get? a) :
    versions.grouped = others.grouped := by
  refine SortedMap.ext_get? fun a => ?_
  rw [get?_grouped, get?_grouped]
  by_cases ha : InGroup a
  · rw [if_pos ha, if_pos ha, h a ha]
  · rw [if_neg ha, if_neg ha]

/-- Of entries that are set one after another the last one of a name has this version. -/
def LastSet (entries : List (String × Version)) (a : String) (v : Version) : Prop :=
  ∃ before after, entries = before ++ (a, v) :: after ∧ ∀ e ∈ after, e.1 ≠ a

/-- A map that is made by setting entries holds the version of the last entry of a name. -/
lemma get?_ofList_eq_some_iff {entries : List (String × Version)} :
    (SortedMap.ofList entries).get? a = some v ↔ LastSet entries a v := by
  unfold LastSet
  rw [SortedMap.get?_ofList, Option.map_eq_some_iff]
  constructor
  · rintro ⟨⟨b, w⟩, hfind, rfl⟩
    obtain ⟨hb, after, before, hsplit, hafter⟩ := List.find?_eq_some_iff_append.mp hfind
    obtain rfl : b = a := of_decide_eq_true hb
    refine ⟨before.reverse, after.reverse, ?_, fun e he => ?_⟩
    · rw [← List.reverse_reverse entries, hsplit]
      simp
    · simpa using hafter e (List.mem_reverse.mp he)
  · rintro ⟨before, after, rfl, hafter⟩
    refine ⟨(a, v), List.find?_eq_some_iff_append.mpr ⟨by simp, after.reverse, before.reverse,
      by simp, fun e he => ?_⟩, rfl⟩
    simpa using hafter e (List.mem_reverse.mp he)

/-! ## The check -/

namespace Alignment

/-- A bystander is in line with any anchors. -/
lemma checkOne_of_not_inGroup (h : ¬InGroup a) : checkOne runtime distribution a v = .ok () := by
  unfold checkOne
  rw [ofName_eq_other_iff.mpr h]

/-- **The walk passes bystanders by**, wherever they stand. -/
lemma checkAll_filter (runtime : Version) (distribution : Option Version)
    (entries : List (String × Version)) :
    checkAll runtime distribution (entries.filter fun e => decide (InGroup e.1)) =
      checkAll runtime distribution entries := by
  induction entries with
  | nil => rfl
  | cons e entries ih =>
    obtain ⟨a, v⟩ := e
    by_cases h : InGroup a
    · rw [List.filter_cons_of_pos (by simpa using h)]
      simp only [checkAll, ih]
    · rw [List.filter_cons_of_neg (by simpa using h), ih]
      simp only [checkAll, checkOne_of_not_inGroup h]
      rfl

/-- The check of a map is that of its crates in groups. -/
lemma check_grouped (versions : VersionMap) : check versions.grouped = check versions := by
  -- the anchors are in their groups, and so they are kept
  have hruntime : versions.grouped.runtime? = versions.runtime? := by
    unfold VersionMap.runtime?
    rw [VersionMap.get?_grouped, if_pos inGroup_runtimeAnchor]
  have hdistribution : versions.grouped.distribution? = versions.distribution? := by
    unfold VersionMap.distribution?
    rw [VersionMap.get?_grouped, if_pos inGroup_distributionAnchor]
  have hlist : versions.grouped.toList = versions.toList.filter fun e => decide (InGroup e.1) := rfl
  unfold check
  rw [hruntime, hdistribution, hlist]
  cases versions.runtime? with
  | none => rfl
  | some runtime => exact checkAll_filter runtime _ versions.toList

/-- Maps that agree on the names in groups are checked alike. -/
lemma check_congr (h : ∀ a, InGroup a → versions.get? a = others.get? a) :
    check versions = check others := by
  calc check versions
      = check versions.grouped := (check_grouped versions).symm
    _ = check others.grouped := by rw [VersionMap.grouped_congr h]
    _ = check others := check_grouped others

/-- Two maps are checked alike: both pass, or both end with the same fault, after the same notes. -/
structure CheckedAlike (versions others : VersionMap) : Prop where
  pass : check versions = .ok () ↔ check others = .ok ()
  fault : ∀ fault, check versions = .error fault ↔ check others = .error fault
  report : report versions = report others

/-- If the checks of two maps come to the same, the maps are checked alike. -/
lemma CheckedAlike.of_eq (h : check versions = check others) : CheckedAlike versions others := by
  refine ⟨?_, fun fault => ?_, ?_⟩
  · rw [h]
  · rw [h]
  · unfold Alignment.report
    rw [h]

/-- **What is outside the groups makes no difference.** Two maps that hold the same versions for the
names that start with `aws-` are checked alike, whatever other names they hold and at whatever
versions; and so are two maps that are made by setting entries one after another, in whatever order
that was done, if for those names the last entries have the same versions. -/
theorem checkedAlike_of_same_groups :
    (∀ versions others : VersionMap,
      (∀ a, "aws-".toList <+: a.toList → versions.get? a = others.get? a) →
        CheckedAlike versions others) ∧
    ∀ entries entries' : List (String × Version),
      (∀ a v, "aws-".toList <+: a.toList → (LastSet entries a v ↔ LastSet entries' a v)) →
        CheckedAlike (.ofList entries) (.ofList entries') := by
  refine ⟨fun versions others h => .of_eq (check_congr h), fun entries entries' h => ?_⟩
  refine .of_eq (check_congr fun a ha => Option.ext fun v => ?_)
  rw [get?_ofList_eq_some_iff, get?_ofList_eq_some_iff]
  exact h a v ha

/-- Entries of two crates in groups, one of which is out of line, among crates that are in
none. -/
def crowded : List (String × Version) :=
  [("tokio", ⟨9, 0, 0, "", ""⟩), ("aws-smithy-http", ⟨1, 0, 1, "", ""⟩),
    ("aws-smithy-types", ⟨1, 0, 0, "", ""⟩), ("aws", ⟨7, 0, 0, "", ""⟩)]

/-- The same crates in groups in another order, one of them set twice. -/
def reordered : List (String × Version) :=
  [("aws-smithy-types", ⟨2, 0, 0, "", ""⟩), ("my-aws-smithy-types", ⟨3, 0, 0, "", ""⟩),
    ("aws-smithy-types", ⟨1, 0, 0, "", ""⟩), ("aws-smithy-http", ⟨1, 0, 1, "", ""⟩)]

/-- The two are checked alike, whatever else they hold and in whatever order: the same crate is out
of line in both. -/
theorem checkedAlike_crowded :
    CheckedAlike (.ofList crowded) (.ofList reordered) ∧
      check (.ofList reordered) =
        .error (.versionMismatch "aws-smithy-http" ⟨1, 0, 0, "", ""⟩ ⟨1, 0, 1, "", ""⟩) := by
  refine ⟨checkedAlike_of_same_groups.2 crowded reordered fun a v ha => ?_, by rfl⟩
  have htokio : "tokio" ≠ a := fun h => absurd (h ▸ ha) (by decide)
  have haws : "aws" ≠ a := fun h => absurd (h ▸ ha) (by decide)
  have hmy : "my-aws-smithy-types" ≠ a := fun h => absurd (h ▸ ha) (by decide)
  rw [← get?_ofList_eq_some_iff, ← get?_ofList_eq_some_iff, SortedMap.get?_ofList,
    SortedMap.get?_ofList]
  by_cases hhttp : "aws-smithy-http" = a
  · subst hhttp
    rfl
  · by_cases htypes : "aws-smithy-types" = a
    · subst htypes
      rfl
    · simp [crowded, reordered, htokio, haws, hmy, hhttp, htypes]

end Alignment

end CrateGate
