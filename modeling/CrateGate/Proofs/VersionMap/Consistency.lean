import CrateGate.Proofs.VersionMap
import CrateGate.Proofs.Walk

/-!
# Which declarations make a map

Declarations are consistent if each of them reads as a version and no crate is declared at two
(`Consistent`). That is a matter of what is declared and not of the order, and it is exactly when
declarations make a map (`exists_build_iff`). What goes wrong otherwise does depend on the order:
adding declarations ends at the first that fails (`build_eq_error_iff`), and this is one that does
not read, or that goes against an earlier one (`DeclarationFault`). Both together say how
declarations end (`build_consistent`).
-/

namespace CrateGate

namespace VersionMap

variable {versions : VersionMap} {pairs before others : List (String × Declared)} {a : String}
  {declared : Declared} {v w : Version} {fault : Fault}

/-! ## Consistent declarations -/

/-- Declarations are consistent if each reads as a version, and those of one crate as one
version. -/
structure Consistent (pairs : List (String × Declared)) : Prop where
  readable : ∀ pair ∈ pairs, ∃ v, pair.2.read = .ok v
  agree : ∀ a declared later v w, (a, declared) ∈ pairs → (a, later) ∈ pairs →
    declared.read = .ok v → later.read = .ok w → v = w

/-- It does not matter in what order, or how often, something is declared. -/
lemma Consistent.congr (h : Consistent pairs) (hsame : ∀ pair, pair ∈ others ↔ pair ∈ pairs) :
    Consistent others where
  readable pair hpair := h.readable pair ((hsame pair).mp hpair)
  agree a declared later v w hdeclared hlater :=
    h.agree a declared later v w ((hsame _).mp hdeclared) ((hsame _).mp hlater)

/-- All declarations that are added have been read. -/
lemma readable_of_declareAll_eq_ok {versions' : VersionMap}
    (h : declareAll versions pairs = .ok versions') :
    ∀ pair ∈ pairs, ∃ v, pair.2.read = .ok v := by
  induction pairs generalizing versions with
  | nil => simp
  | cons pair pairs ih =>
    obtain ⟨a, declared⟩ := pair
    rw [declareAll_cons] at h
    obtain ⟨v, hread, h⟩ := bind_eq_ok_iff.mp h
    obtain ⟨next, -, h⟩ := bind_eq_ok_iff.mp h
    rw [List.forall_mem_cons]
    exact ⟨⟨v, hread⟩, ih h⟩

/-- Declarations that make a map are consistent. -/
lemma consistent_of_build (h : build pairs = .ok versions) : Consistent pairs := by
  refine ⟨readable_of_declareAll_eq_ok h, fun a declared later v w hdeclared hlater hv hw => ?_⟩
  have hgetv := (get?_of_build_eq_ok h).mpr ⟨declared, hdeclared, hv⟩
  have hgetw := (get?_of_build_eq_ok h).mpr ⟨later, hlater, hw⟩
  exact Option.some.inj (hgetv.symm.trans hgetw)

/-- **Declarations make a map if and only if they are consistent.** -/
lemma exists_build_iff : (∃ versions, build pairs = .ok versions) ↔ Consistent pairs := by
  constructor
  · rintro ⟨versions, h⟩
    exact consistent_of_build h
  · intro h
    exact exists_build_eq_ok h.readable h.agree

/-- The same declarations make the same map. -/
lemma build_congr (h : build pairs = .ok versions)
    (hsame : ∀ pair, pair ∈ others ↔ pair ∈ pairs) : build others = .ok versions := by
  obtain ⟨made, hmade⟩ := exists_build_iff.mpr ((consistent_of_build h).congr hsame)
  have heq : made = versions := by
    refine SortedMap.ext_get? fun a => Option.ext fun v => ?_
    rw [get?_of_build_eq_ok hmade, get?_of_build_eq_ok h]
    simp only [hsame]
  rw [hmade, heq]

/-- A declared crate is in the map at the version that it was declared at. -/
lemma exists_get?_of_mem (h : build pairs = .ok versions) (hmem : (a, declared) ∈ pairs) :
    ∃ v, declared.read = .ok v ∧ versions.get? a = some v := by
  obtain ⟨v, hread⟩ := (consistent_of_build h).readable _ hmem
  exact ⟨v, hread, (get?_of_build_eq_ok h).mpr ⟨declared, hmem, hread⟩⟩

/-- The crates of the map are those that were declared. -/
lemma mem_keys_of_build (h : build pairs = .ok versions) :
    a ∈ versions.keys ↔ ∃ declared, (a, declared) ∈ pairs := by
  rw [SortedMap.mem_keys_iff]
  constructor
  · rintro ⟨v, hget⟩
    obtain ⟨declared, hmem, -⟩ := (get?_of_build_eq_ok h).mp hget
    exact ⟨declared, hmem⟩
  · rintro ⟨declared, hmem⟩
    obtain ⟨v, -, hget⟩ := exists_get?_of_mem h hmem
    exact ⟨v, hget⟩

/-! ## The first declaration that fails -/

/-- What is wrong with a declaration that comes after others: it does not read as a version, or an
earlier one of the crate reads as another version. -/
inductive DeclarationFault (before : List (String × Declared)) (a : String)
    (declared : Declared) : Fault → Prop
  | unread {fault : Fault} (read : declared.read = .error fault) :
      DeclarationFault before a declared fault
  | differs {earlier : Declared} {v w : Version} (read : declared.read = .ok w)
      (mem : (a, earlier) ∈ before) (earlierRead : earlier.read = .ok v) (ne : v ≠ w) :
      DeclarationFault before a declared (.discovery (.versionsDiffer a v w))

/-- A declaration that reads is at fault as a second version of its crate. -/
lemma DeclarationFault.read_or_duplicate (h : DeclarationFault before a declared fault) :
    declared.read = .error fault ∨
      ∃ problem, fault = .discovery problem ∧ problem.code = "DUPLICATE_PACKAGE" := by
  cases h with
  | unread read => exact .inl read
  | differs => exact .inr ⟨_, rfl, rfl⟩

/-- The map with one more declaration, once that is read. -/
def declareNext (versions : VersionMap) (a : String) (declared : Declared) :
    Except Fault VersionMap :=
  declared.read.bind (declare versions a)

/-- Entering a version fails if and only if another one was entered under the name, and both are
reported. -/
lemma declare_eq_error_iff : declare versions a v = .error fault ↔
    ∃ earlier, versions.get? a = some earlier ∧ earlier ≠ v ∧
      fault = .discovery (.versionsDiffer a earlier v) := by
  unfold declare
  cases versions.get? a with
  | none => simp
  | some earlier =>
    by_cases heq : earlier = v
    · simp [heq]
    · simp only [heq, if_false, Except.error.injEq, Option.some.injEq, exists_eq_left', ne_eq,
        not_false_eq_true, true_and]
      exact eq_comm

/-- One more declaration fails if something is wrong with it after those before it. -/
lemma declareNext_eq_error_iff (h : build before = .ok versions) :
    declareNext versions a declared = .error fault ↔
      DeclarationFault before a declared fault := by
  unfold declareNext
  constructor
  · intro herror
    cases hread : declared.read with
    | error first =>
      rw [hread] at herror
      obtain rfl := Except.error.inj herror
      exact .unread hread
    | ok w =>
      rw [hread] at herror
      obtain ⟨v, hget, hne, rfl⟩ := declare_eq_error_iff.mp herror
      obtain ⟨earlier, hmem, hearlier⟩ := (get?_of_build_eq_ok h).mp hget
      exact .differs hread hmem hearlier hne
  · intro hfault
    cases hfault with
    | unread read =>
      rw [read]
      rfl
    | differs read mem earlierRead ne =>
      rw [read]
      have hget := (get?_of_build_eq_ok h).mpr ⟨_, mem, earlierRead⟩
      exact declare_eq_error_iff.mpr ⟨_, hget, ne, rfl⟩

/-- Declarations are added one after another. -/
lemma declareAll_eq_foldlM (versions : VersionMap) (pairs : List (String × Declared)) :
    declareAll versions pairs =
      pairs.foldlM (fun versions pair => declareNext versions pair.1 pair.2) versions := by
  induction pairs generalizing versions with
  | nil => rfl
  | cons pair pairs ih =>
    obtain ⟨a, declared⟩ := pair
    rw [declareAll_cons, foldlM_cons_eq, declareNext]
    simp only [← ih]
    cases declared.read <;> rfl

/-- **Adding declarations ends at the first that goes wrong** after those before it. -/
lemma build_eq_error_iff : build pairs = .error fault ↔
    ∃ before a declared after, pairs = before ++ (a, declared) :: after ∧ Consistent before ∧
      DeclarationFault before a declared fault := by
  rw [build, declareAll_eq_foldlM, foldlM_eq_error_iff]
  simp only [← declareAll_eq_foldlM]
  constructor
  · rintro ⟨before, ⟨a, declared⟩, after, hsplit, versions, hbefore, hfault⟩
    exact ⟨before, a, declared, after, hsplit, consistent_of_build hbefore,
      (declareNext_eq_error_iff hbefore).mp hfault⟩
  · rintro ⟨before, a, declared, after, hsplit, hconsistent, hfault⟩
    obtain ⟨versions, hbefore⟩ := exists_build_iff.mpr hconsistent
    exact ⟨before, (a, declared), after, hsplit, versions, hbefore,
      (declareNext_eq_error_iff hbefore).mpr hfault⟩

/-- **How declarations end.** They make a map if and only if each reads as a version and no crate is
declared at two. The map then has the declared crates, in strictly increasing order of their names,
each at its one version; the same declarations in any order and any number make it too, and so do
its own entries. Otherwise what is reported belongs to the first declaration that goes wrong after
those before it: why it does not read, or that an earlier one of its crate has another version. -/
theorem build_consistent (pairs : List (String × Declared)) :
    ((∃ versions, build pairs = .ok versions) ↔
      (∀ pair ∈ pairs, ∃ v, pair.2.read = .ok v) ∧
      ∀ a declared later v w, (a, declared) ∈ pairs → (a, later) ∈ pairs →
        declared.read = .ok v → later.read = .ok w → v = w) ∧
    (∀ versions, build pairs = .ok versions →
      versions.keys.Pairwise (· < ·) ∧
      (∀ a, a ∈ versions.keys ↔ ∃ declared, (a, declared) ∈ pairs) ∧
      (∀ a declared, (a, declared) ∈ pairs →
        ∃ v, declared.read = .ok v ∧ versions.get? a = some v) ∧
      (∀ others : List (String × Declared), others.Perm pairs → build others = .ok versions) ∧
      (∀ others, (∀ pair, pair ∈ others ↔ pair ∈ pairs) → build others = .ok versions) ∧
      build (versions.toList.map fun e => (e.1, .version e.2)) = .ok versions) ∧
    ∀ fault, build pairs = .error fault ↔
      ∃ before a declared after, pairs = before ++ (a, declared) :: after ∧ Consistent before ∧
        DeclarationFault before a declared fault ∧
        (declared.read = .error fault ∨
          ∃ problem, fault = .discovery problem ∧ problem.code = "DUPLICATE_PACKAGE") := by
  refine ⟨?_, fun versions h => ?_, fun fault => ?_⟩
  · rw [exists_build_iff]
    exact ⟨fun h => ⟨h.readable, h.agree⟩, fun ⟨hreadable, hagree⟩ => ⟨hreadable, hagree⟩⟩
  · exact ⟨SortedMap.pairwise_keys versions, fun a => mem_keys_of_build h,
      fun a declared => exists_get?_of_mem h,
      fun others hperm => build_congr h fun pair => hperm.mem_iff,
      fun others hsame => build_congr h hsame, build_toList fun a v _ => rfl⟩
  · rw [build_eq_error_iff]
    constructor
    · rintro ⟨before, a, declared, after, hsplit, hconsistent, hfault⟩
      exact ⟨before, a, declared, after, hsplit, hconsistent, hfault, hfault.read_or_duplicate⟩
    · rintro ⟨before, a, declared, after, hsplit, hconsistent, hfault, -⟩
      exact ⟨before, a, declared, after, hsplit, hconsistent, hfault⟩

/-- The second declaration goes wrong before the third goes against the first. -/
example : build [("a", .datum (.text "1.0.0")), ("b", .datum (.text "1")),
    ("a", .version ⟨2, 0, 0, "", ""⟩)] = .error (.version (.malformed "1")) := by
  rfl

end VersionMap

end CrateGate
