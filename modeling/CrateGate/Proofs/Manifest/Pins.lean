import CrateGate.Proofs.InsertionSort
import CrateGate.Proofs.Manifest.Entries
import Mathlib.Data.List.Nodup

/-!
# The pins of a manifest

The pins are gathered entry by entry. While the entries are in order, what has been gathered is what
they ask for, with no crate twice (`Gathered`); the first entry that breaks the order ends the
reading with its fault (`collect_cases`). In the end the pins are sorted by crate
(`sortPins_eq_ok`). Together: a manifest with a valid package has a package if and only if its
entries are in order, and then its pins are exactly those that the entries ask for
(`parse_dependencies`).
-/

namespace CrateGate

/-! ## Labels that name crates -/

namespace Label

variable {a b : String} {label : Label}

/-- Labels of crates are the same if and only if the names are. -/
lemma same_crate_iff : (crate a).same (crate b) = true ↔ a = b := by
  have hsame : (crate a).same (crate b) = (compare a b == .eq) := rfl
  rw [hsame, beq_iff_eq, Std.compare_eq_iff_eq]

/-- Labels of crates are in the order of their names. -/
lemma isBefore_crate_iff : (crate a).isBefore (crate b) = true ↔ a < b := by
  have hbefore : (crate a).isBefore (crate b) = (compareOfLessAndEq a b == .lt) := rfl
  rw [hbefore, beq_iff_eq, compareOfLessAndEq_eq_lt]

end Label

namespace Manifest

open Discovery Version

variable {text crate a s : String} {path : Path} {fields package : List (String × Datum)}
  {before rest after : List Entry} {e e' : Entry} {w w' : Spelling} {pin earlier : Pin}
  {pins left right : List Pin} {published : Bool} {problem : Discovery.Problem}

/-! ## Adding a pin -/

/-- A pin on a crate without one comes last. -/
lemma addPin_of_absent (habsent : ∀ p ∈ pins, p.label.same pin.label = false) :
    addPin crate path pin pins = .ok (pins ++ [pin]) := by
  induction pins with
  | nil => rfl
  | cons p pins ih =>
    obtain ⟨hp, hpins⟩ := List.forall_mem_cons.mp habsent
    rw [addPin, hp, if_neg Bool.false_ne_true, ih hpins]
    rfl

/-- A pin on a crate that has one takes its place, or is in conflict with it. -/
lemma addPin_of_present (habsent : ∀ p ∈ left, p.label.same pin.label = false)
    (hsame : earlier.label.same pin.label = true) :
    addPin crate path pin (left ++ earlier :: right) =
      if earlier.version = pin.version then .ok (left ++ pin :: right)
      else .error (.discovery
        (.pinConflict crate pin.label earlier.version pin.version path)) := by
  induction left with
  | nil => rw [List.nil_append, addPin, if_pos hsame, List.nil_append]
  | cons p left ih =>
    obtain ⟨hp, hleft⟩ := List.forall_mem_cons.mp habsent
    rw [List.cons_append, addPin, hp, if_neg Bool.false_ne_true, ih hleft]
    split <;> rfl

/-! ## Gathering -/

/-- An entry that names a crate and is pinned at a version asks for the pin of that crate at that
version, and for no other. -/
lemma asks_iff (hname : e.subject = .text a) (hpinned : PinnedAt e w) :
    Asks e pin ↔ pin = ⟨.crate a, w.version⟩ := by
  constructor
  · rintro ⟨a', w', hname', hpinned', rfl⟩
    obtain rfl : a = a' := by simpa [hname] using hname'
    rw [hpinned.eq hpinned']
  · rintro rfl
    exact ⟨a, w, hname, hpinned, rfl⟩

/-- One more entry in order: pinned, and at the version of the earlier entries of its name. -/
lemma InOrder.concat (h : InOrder before) (hpinned : PinnedAt e w)
    (hagree : ∀ e' ∈ before, e'.subject = e.subject → ∀ w', PinnedAt e' w' →
      w'.version = w.version) : InOrder (before ++ [e]) := by
  refine ⟨fun e₁ he₁ => ?_, fun e₁ he₁ e₂ he₂ hsubject w₁ w₂ hw₁ hw₂ => ?_⟩
  · rcases List.mem_append.mp he₁ with he₁ | he₁
    · exact h.pinned e₁ he₁
    · rw [List.mem_singleton.mp he₁]
      exact ⟨w, hpinned⟩
  · rcases List.mem_append.mp he₁ with he₁ | he₁ <;> rcases List.mem_append.mp he₂ with he₂ | he₂
    · exact h.agree e₁ he₁ e₂ he₂ hsubject w₁ w₂ hw₁ hw₂
    · rw [List.mem_singleton.mp he₂] at hsubject hw₂
      rw [hagree e₁ he₁ hsubject w₁ hw₁, hpinned.eq hw₂]
    · rw [List.mem_singleton.mp he₁] at hsubject hw₁
      rw [hagree e₂ he₂ hsubject.symm w₂ hw₂, hpinned.eq hw₁]
    · rw [List.mem_singleton.mp he₁] at hw₁
      rw [List.mem_singleton.mp he₂] at hw₂
      rw [hw₁.eq hw₂]

/-- The pins that entries in order ask for, with no crate twice. -/
structure Gathered (pins : List Pin) (entries : List Entry) : Prop where
  inOrder : InOrder entries
  distinct : (pins.map (·.label)).Nodup
  mem_iff : ∀ pin, pin ∈ pins ↔ ∃ e ∈ entries, Asks e pin

/-- Before the first entry no pins are gathered, and none is asked for. -/
lemma gathered_nil : Gathered [] [] := by
  refine ⟨⟨fun _ h => ?_, fun _ h => ?_⟩, List.nodup_nil, fun pin => ?_⟩
  · exact absurd h List.not_mem_nil
  · exact absurd h List.not_mem_nil
  · simp

namespace Gathered

/-- Where all entries name crates, every pin gathered is on a crate. -/
lemma exists_crate (h : Gathered pins before) (hpin : pin ∈ pins) :
    ∃ a, pin.label = .crate a := by
  obtain ⟨e, -, a, w, -, -, rfl⟩ := (h.mem_iff pin).mp hpin
  exact ⟨a, rfl⟩

/-- Pins on other crates are not the same. -/
lemma same_eq_false (h : Gathered pins before) (hpin : pin ∈ pins) (hne : pin.label ≠ .crate a) :
    pin.label.same (.crate a) = false := by
  obtain ⟨b, hb⟩ := h.exists_crate hpin
  rw [hb] at hne ⊢
  rw [Bool.eq_false_iff, ne_eq, Label.same_crate_iff]
  exact fun hba => hne (congrArg Label.crate hba)

/-- Gathering goes on with an entry on a crate that no pin is on. -/
lemma concat (h : Gathered pins before) (hname : e.subject = .text a) (hpinned : PinnedAt e w)
    (habsent : ∀ p ∈ pins, p.label ≠ .crate a) :
    Gathered (pins ++ [⟨.crate a, w.version⟩]) (before ++ [e]) := by
  refine ⟨h.inOrder.concat hpinned fun e' he' hsubject w' hpinned' => ?_, ?_, fun pin => ?_⟩
  · have hmem : (⟨.crate a, w'.version⟩ : Pin) ∈ pins :=
      (h.mem_iff _).mpr ⟨e', he', a, w', hsubject.trans hname, hpinned', rfl⟩
    exact absurd rfl (habsent _ hmem)
  · rw [List.map_append, List.nodup_append]
    refine ⟨h.distinct, List.nodup_singleton _, fun l hl l' hl' => ?_⟩
    obtain ⟨p, hp, rfl⟩ := List.mem_map.mp hl
    rw [List.mem_singleton.mp hl']
    exact habsent p hp
  · simp only [List.mem_append, List.mem_singleton, h.mem_iff, or_and_right, exists_or,
      exists_eq_left, asks_iff hname hpinned]

/-- Gathering goes on with an entry that asks for a pin that is there. -/
lemma concat_of_mem (h : Gathered pins before) (hname : e.subject = .text a)
    (hpinned : PinnedAt e w) (hmem : ⟨.crate a, w.version⟩ ∈ pins) :
    Gathered pins (before ++ [e]) := by
  refine ⟨h.inOrder.concat hpinned fun e' he' hsubject w' hpinned' => ?_, h.distinct,
    fun pin => ?_⟩
  · obtain ⟨e₀, he₀, a₀, w₀, hname₀, hpinned₀, heq⟩ := (h.mem_iff _).mp hmem
    obtain ⟨hlabel, hversion⟩ := Pin.mk.inj heq
    obtain rfl : a = a₀ := Label.crate.inj hlabel
    rw [hversion]
    exact h.inOrder.agree e' he' e₀ he₀ (hsubject.trans (hname.trans hname₀.symm)) w' w₀ hpinned'
      hpinned₀
  · simp only [List.mem_append, List.mem_singleton, or_and_right, exists_or, exists_eq_left,
      asks_iff hname hpinned, ← h.mem_iff]
    exact ⟨.inl, fun hpin => hpin.elim id fun heq => heq ▸ hmem⟩

/-- **One pinned entry more**: its pin is gathered, or it is in conflict with an earlier one. -/
lemma addPin_cases (h : Gathered pins before) (crate : String) (path : Path)
    (hname : e.subject = .text a) (hpinned : PinnedAt e w) :
    (∃ pins', addPin crate path ⟨.crate a, w.version⟩ pins = .ok pins' ∧
        Gathered pins' (before ++ [e])) ∨
      ∃ problem, EntryFault crate path before e problem ∧
        addPin crate path ⟨.crate a, w.version⟩ pins = .error (.discovery problem) := by
  by_cases hpresent : ∃ p ∈ pins, p.label = .crate a
  · obtain ⟨p, hp, hlabel⟩ := hpresent
    obtain ⟨e', he', a', w', hname', hpinned', rfl⟩ := (h.mem_iff p).mp hp
    obtain rfl : a' = a := Label.crate.inj hlabel
    obtain ⟨left, right, rfl⟩ := List.append_of_mem hp
    have hleft : ∀ q ∈ left, q.label.same (.crate a') = false := fun q hq => by
      refine h.same_eq_false (List.mem_append_left _ hq) fun heq => ?_
      have hdistinct := h.distinct
      rw [List.map_append, List.nodup_append] at hdistinct
      exact hdistinct.2.2 q.label (List.mem_map_of_mem hq) (.crate a')
        (List.mem_map_of_mem List.mem_cons_self) heq
    rw [addPin_of_present hleft (Label.same_crate_iff.mpr rfl)]
    by_cases hversion : w'.version = w.version
    · rw [if_pos hversion]
      rw [hversion] at h hp
      exact .inl ⟨_, rfl, h.concat_of_mem hname hpinned hp⟩
    · rw [if_neg hversion]
      exact .inr ⟨_, .conflict hname hpinned he' hname' hpinned' hversion, rfl⟩
  · have habsent : ∀ p ∈ pins, p.label ≠ .crate a := fun p hp hlabel => hpresent ⟨p, hp, hlabel⟩
    exact .inl ⟨_, addPin_of_absent fun p hp => h.same_eq_false hp (habsent p hp),
      h.concat hname hpinned habsent⟩

end Gathered

/-- Some entry is the first that is not in order, and the reading ends with its fault. -/
def EndsAtFirst (crate : String) (path : Path) (entries : List Entry)
    (outcome : Except Fault (List Pin)) : Prop :=
  ∃ before e after problem, entries = before ++ e :: after ∧ InOrder before ∧
    EntryFault crate path before e problem ∧ outcome = .error (.discovery problem)

/-- **How gathering ends**: with the pins of all entries, or at the first that is not in order. -/
lemma Gathered.collect_cases (h : Gathered pins before) (crate : String) (path : Path)
    (hnames : ∀ e ∈ rest, ∃ a, e.subject = .text a)
    (hshort : ∀ e ∈ rest, ∀ w, PinnedAt e w → w.Short) :
    (∃ pins', collect crate path pins rest = .ok pins' ∧ Gathered pins' (before ++ rest)) ∨
      EndsAtFirst crate path (before ++ rest) (collect crate path pins rest) := by
  induction rest generalizing pins before with
  | nil =>
    rw [List.append_nil]
    exact .inl ⟨pins, rfl, h⟩
  | cons e rest ih =>
    obtain ⟨⟨a, hname⟩, hnames⟩ := List.forall_mem_cons.mp hnames
    obtain ⟨hshort, hshorts⟩ := List.forall_mem_cons.mp hshort
    have hstep : collect crate path pins (e :: rest) = (readPin crate path e).bind fun pin =>
        (addPin crate path pin pins).bind fun pins => collect crate path pins rest := rfl
    rw [hstep]
    rcases readPin_cases crate path before hname hshort with ⟨w, hpinned, hread⟩ |
      ⟨problem, hfault, hread⟩
    · rcases h.addPin_cases crate path hname hpinned with ⟨pins', hadd, hgathered⟩ |
        ⟨problem, hfault, hadd⟩
      · have hrest := ih hgathered hnames hshorts
        rw [List.append_assoc, List.singleton_append] at hrest
        simpa only [hread, hadd, Except.bind] using hrest
      · refine .inr ⟨before, e, rest, problem, rfl, h.inOrder, hfault, ?_⟩
        simp only [hread, hadd, Except.bind]
    · refine .inr ⟨before, e, rest, problem, rfl, h.inOrder, hfault, ?_⟩
      rw [hread, Except.bind]

/-! ## Sorting -/

/-- Pins on crates are ordered by the names of the crates. -/
lemma orders_crates : InsertionSort.Orders (fun p q : Pin => p.label.isBefore q.label)
    fun p => ∃ a, p.label = .crate a := by
  constructor
  · rintro p q ⟨a, ha⟩ ⟨b, hb⟩ hpq
    simp only [ha, hb, Label.isBefore_crate_iff] at hpq ⊢
    rw [Bool.eq_false_iff, ne_eq, Label.isBefore_crate_iff]
    exact Std.not_gt_of_lt hpq
  · rintro p q r ⟨a, ha⟩ ⟨b, hb⟩ ⟨c, hc⟩ hqp hrq
    simp only [ha, hb, hc, Bool.eq_false_iff, ne_eq, Label.isBefore_crate_iff,
      Std.not_lt] at hqp hrq ⊢
    exact Std.le_trans hqp hrq

/-- Pins on distinct crates are sorted by strictly increasing name. -/
lemma sortPins_eq_ok (hcrates : ∀ p ∈ pins, ∃ a, p.label = .crate a)
    (hdistinct : (pins.map (·.label)).Nodup) :
    ∃ sorted, sortPins pins = .ok sorted ∧ (∀ pin, pin ∈ sorted ↔ pin ∈ pins) ∧
      sorted.Pairwise fun p q => ∃ a b, p.label = .crate a ∧ q.label = .crate b ∧ a < b := by
  let sorted := InsertionSort.sort (fun p q : Pin => p.label.isBefore q.label) pins
  have hperm : sorted.Perm pins := InsertionSort.sort_perm _ pins
  have hsort : sortPins pins = .ok sorted := by
    unfold sortPins
    cases pins with
    | nil => rfl
    | cons p pins =>
      obtain ⟨⟨a, ha⟩, hcrates⟩ := List.forall_mem_cons.mp hcrates
      have hcomparable : (pins.all fun q => (p.label.compare? q.label).isSome) = true :=
        List.all_eq_true.mpr fun q hq => by
          obtain ⟨b, hb⟩ := hcrates q hq
          rw [ha, hb]
          rfl
      simp only [hcomparable, if_true]
      rfl
  refine ⟨sorted, hsort, fun pin => hperm.mem_iff, ?_⟩
  have hsorted : InsertionSort.Sorted _ sorted :=
    InsertionSort.sort_sorted orders_crates hcrates
  have hne : sorted.Pairwise fun p q => p.label ≠ q.label :=
    List.pairwise_map.mp ((hperm.map _).nodup_iff.mpr hdistinct)
  refine (hsorted.and hne).imp_of_mem fun {p q} hp hq hpq => ?_
  obtain ⟨a, ha⟩ := hcrates p (hperm.mem_iff.mp hp)
  obtain ⟨b, hb⟩ := hcrates q (hperm.mem_iff.mp hq)
  obtain ⟨hle, hne⟩ := hpq
  simp only [ha, hb, Bool.eq_false_iff, ne_eq, Label.isBefore_crate_iff, Std.not_lt,
    Label.crate.injEq] at hle hne
  exact ⟨a, b, ha, hb, Std.lt_of_le_of_ne hle hne⟩

/-! ## The manifest -/

/-- The fields of a package that is valid apart from its dependencies: a name that is not blank, a
version, and if at all a flag or a list that says whether it is to be published. -/
structure ValidPackage (package : List (String × Datum)) (crate : String) (w : Spelling)
    (published : Bool) : Prop where
  name : package.lookup "name" = some (.text crate)
  nonblank : ∃ c ∈ crate.toList, Text.isBlank c = false
  version : ∃ s, package.lookup "version" = some (.text s) ∧ w.chars = s.toList
  valid : w.Valid
  short : w.Short
  publish : (package.lookup "publish" = none ∧ published = true) ∨
    package.lookup "publish" = some (.atom (.flag published)) ∨
    ∃ items, package.lookup "publish" = some (.list items) ∧ (published = true ↔ items ≠ [])

/-- The flag of a valid package is read as it is: missing, a flag, or a list of registries. -/
lemma readPublished_eq_ok (h : ValidPackage package crate w published) :
    readPublished crate path (package.lookup "publish") = .ok published := by
  rcases h.publish with ⟨hnone, hpublished⟩ | hflag | ⟨items, hlist, hpublished⟩
  · rw [hnone, hpublished]
    rfl
  · rw [hflag]
    rfl
  · have hempty : (!items.isEmpty) = published := by
      rw [Bool.eq_iff_iff, Bool.not_eq_true', List.isEmpty_eq_false_iff, hpublished]
    rw [hlist, readPublished, hempty]

/-- Where the package is valid, the manifest is read as far as its pins are. -/
lemma parse_of_valid (path : Path) (htoml : Toml.parse text = .ok fields)
    (hpackage : fields.lookup "package" = some (.record package))
    (hvalid : ValidPackage package crate w published) :
    parse text path = ((collect crate path [] (pathEntries fields)).bind sortPins).bind fun pins =>
      .ok (some ⟨crate, w.version, path, pins, published⟩) := by
  have hblank : Text.allBlank crate = false := Text.allBlank_eq_false_iff.mpr hvalid.nonblank
  obtain ⟨s, hs, hchars⟩ := hvalid.version
  have hversion :
      readVersion id (.crate crate) path (package.lookup "version") = .ok w.version := by
    rw [hs]
    exact readVersion_of_valid id _ path hvalid.valid hvalid.short hchars
  have hread : readPackage path (.record fields) (.record package) =
      ((collect crate path [] (pathEntries fields)).bind sortPins).bind fun pins =>
        .ok ⟨crate, w.version, path, pins, published⟩ := by
    have hfield (name : String) : (Datum.record package).field? name = package.lookup name := rfl
    rw [← entries_eq]
    simp only [readPackage, hfield, hvalid.name, hblank, hversion, readPublished_eq_ok hvalid]
    rfl
  simp only [parse, htoml, ofDocument, hpackage, hread]
  cases (collect crate path [] (pathEntries fields)).bind sortPins <;> rfl

/-- **What a manifest says of its dependencies.** Let it be a document with a valid package, whose
entries name crates and are pinned to versions that are computed. It has a package if and only if
its entries are in order. The pins then stand in strictly increasing order of the crates, and are
those that the entries ask for. Otherwise the first entry that is not in order is reported, with the
manifest. -/
theorem parse_dependencies (htoml : Toml.parse text = .ok fields)
    (hpackage : fields.lookup "package" = some (.record package))
    (hvalid : ValidPackage package crate w published)
    (hnames : ∀ e ∈ pathEntries fields, ∃ a, e.subject = .text a)
    (hshort : ∀ e ∈ pathEntries fields, ∀ w, PinnedAt e w → w.Short) :
    ((∃ p, parse text path = .ok (some p)) ↔ InOrder (pathEntries fields)) ∧
    (∀ p, parse text path = .ok (some p) →
      p.name = crate ∧ p.version = w.version ∧ p.manifest = path ∧ p.published = published ∧
      (p.pins.Pairwise fun q r => ∃ a b, q.label = .crate a ∧ r.label = .crate b ∧ a < b) ∧
      ∀ pin, pin ∈ p.pins ↔ ∃ e ∈ pathEntries fields, Asks e pin) ∧
    (¬InOrder (pathEntries fields) →
      ∃ before e after problem, pathEntries fields = before ++ e :: after ∧ InOrder before ∧
        EntryFault crate path before e problem ∧ parse text path = .error (.discovery problem) ∧
        problem.path = some path ∧
        ((problem.code = "MANIFEST_PARSE" ∧ ∀ w, ¬PinnedAt e w) ∨
          (problem.code = "VERSION_CONFLICT" ∧ ∃ w, PinnedAt e w))) := by
  have hparse := parse_of_valid path htoml hpackage hvalid
  rcases gathered_nil.collect_cases crate path hnames hshort with
    ⟨pins, hcollect, hgathered⟩ | ⟨before, e, after, problem, hsplit, hbefore, hfault, hcollect⟩
  · rw [List.nil_append] at hgathered
    obtain ⟨sorted, hsort, hmem, hsorted⟩ :=
      sortPins_eq_ok (fun p hp => hgathered.exists_crate hp) hgathered.distinct
    rw [hcollect, Except.bind, hsort, Except.bind] at hparse
    refine ⟨⟨fun _ => hgathered.inOrder, fun _ => ⟨_, hparse⟩⟩, fun p hp => ?_,
      fun hnot => absurd hgathered.inOrder hnot⟩
    obtain rfl : _ = p := Option.some.inj (Except.ok.inj (hparse.symm.trans hp))
    exact ⟨rfl, rfl, rfl, rfl, hsorted, fun pin => (hmem pin).trans (hgathered.mem_iff pin)⟩
  · rw [List.nil_append] at hsplit
    rw [hcollect, Except.bind, Except.bind] at hparse
    have hnot : ¬InOrder (pathEntries fields) := hsplit ▸ hfault.not_inOrder
    refine ⟨⟨fun ⟨p, hp⟩ => ?_, fun hin => absurd hin hnot⟩, fun p hp => ?_, fun _ => ?_⟩
    · rw [hparse] at hp
      cases hp
    · rw [hparse] at hp
      cases hp
    · exact ⟨before, e, after, problem, hsplit, hbefore, hfault, hparse, hfault.problem_eq⟩

/-- A manifest that names one crate by an alias and by its key, at two spellings of one version. -/
def aliasedText : String :=
  "[package]\nname='app'\nversion='1.2.0'\n" ++
    "[dependencies]\nk=\x7bpackage='b',version='= 1.0.0',path='b'\x7d\n" ++
    "[target.x.build-dependencies]\nb=\x7bversion='1.0.0',path='b'\x7d\n" ++
    "a=\x7bversion='2.0.0',path='a'\x7d"

/-- The package of that manifest as it stands there. -/
def aliasedPackage : List (String × Datum) :=
  [("name", .text "app"), ("version", .text "1.2.0")]

/-- The fields of that manifest. -/
def aliasedFields : List (String × Datum) :=
  [("package", .record aliasedPackage),
    ("dependencies", .record [("k",
      .record [("package", .text "b"), ("version", .text "= 1.0.0"), ("path", .text "b")])]),
    ("target", .record [("x", .record [("build-dependencies", .record [
      ("b", .record [("version", .text "1.0.0"), ("path", .text "b")]),
      ("a", .record [("version", .text "2.0.0"), ("path", .text "a")])])])])]

/-- The entries of the example, in their order: two of one crate under different keys, and one of
another. -/
lemma pathEntries_aliasedFields :
    pathEntries aliasedFields = [⟨.text "b", some (.text "= 1.0.0")⟩,
      ⟨.text "b", some (.text "1.0.0")⟩, ⟨.text "a", some (.text "2.0.0")⟩] := by
  rfl

/-- A manifest that depends on one crate by two keys, once with an equals sign and once without: it
is read, and the crate is pinned once. -/
theorem parse_aliased :
    let p : Package := ⟨"app", ⟨1, 2, 0, "", ""⟩, ⟨["Cargo.toml"]⟩,
      [⟨.crate "a", ⟨2, 0, 0, "", ""⟩⟩, ⟨.crate "b", ⟨1, 0, 0, "", ""⟩⟩], true⟩
    Toml.parse aliasedText = .ok aliasedFields ∧
      ValidPackage aliasedPackage "app" ⟨['1'], ['2'], ['0'], [], []⟩ true ∧
      InOrder (pathEntries aliasedFields) ∧ parse aliasedText p.manifest = .ok (some p) ∧
      ∀ pin, pin ∈ p.pins ↔ ∃ e ∈ pathEntries aliasedFields, Asks e pin := by
  intro p
  have htoml : Toml.parse aliasedText = .ok aliasedFields := by decide +kernel
  have hvalid : ValidPackage aliasedPackage "app" ⟨['1'], ['2'], ['0'], [], []⟩ true := by
    refine ⟨rfl, ⟨'a', by decide, rfl⟩, ⟨"1.2.0", rfl, rfl⟩, ⟨?_, ?_, .zero, ?_, ?_⟩, ?_, ?_⟩
    · exact .positive (by decide) (by simp)
    · exact .positive (by decide) (by simp)
    · simp
    · simp
    · exact Spelling.short_of_length_le (by decide)
    · exact .inl ⟨rfl, rfl⟩
  have hparse : parse aliasedText p.manifest = .ok (some p) := by
    rw [parse_of_valid p.manifest htoml rfl hvalid]
    decide +kernel
  have hnames : ∀ e ∈ pathEntries aliasedFields, ∃ a, e.subject = .text a := by
    simp [pathEntries_aliasedFields]
  have hshort : ∀ e ∈ pathEntries aliasedFields, ∀ w, PinnedAt e w → w.Short := by
    rw [pathEntries_aliasedFields]
    rintro e he w ⟨s, hs, hrequires⟩
    refine Spelling.short_of_length_le ?_
    rw [(requires_iff.mp hrequires).2]
    simp only [List.mem_cons, List.not_mem_nil, or_false] at he
    rcases he with rfl | rfl | rfl <;> cases hs <;> decide
  obtain ⟨hiff, hpackage, -⟩ := parse_dependencies htoml rfl hvalid hnames hshort
  exact ⟨htoml, hvalid, hiff.mp ⟨p, hparse⟩, hparse, (hpackage p hparse).2.2.2.2.2⟩

/-- A second pin on one crate at another version is in conflict with the first. -/
example :
    let pin (label : String) (w : String) : String × Datum :=
      (label, .record [("package", .text "b"), ("version", .text w), ("path", .text "b")])
    let manifest := Datum.record [("dependencies", .record [pin "a" "=1.0.0", pin "c" "1.0.0+x"])]
    readPins "app" ⟨["Cargo.toml"]⟩ manifest = .error (.discovery
      (.pinConflict "app" (.crate "b") ⟨1, 0, 0, "", ""⟩ ⟨1, 0, 0, "", "x"⟩ ⟨["Cargo.toml"]⟩)) := by
  decide +kernel

end Manifest

end CrateGate
