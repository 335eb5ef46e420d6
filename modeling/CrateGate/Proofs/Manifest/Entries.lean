import CrateGate.Manifest
import CrateGate.Proofs.Version.Text
import CrateGate.Report

/-!
# The entries of a manifest

Which dependencies of a manifest count (`pathEntries`), which exact version a requirement asks for
(`Requires`), and when entries are in order (`InOrder`): each of them is pinned to a version, and
entries of one name are pinned to one version. What is wrong with an entry depends on those before
it (`EntryFault`).
-/

namespace CrateGate.Manifest

open Discovery Version

variable {fields spec : List (String × Datum)} {c : Char} {cs : List Char} {w w' : Spelling}
  {e : Entry} {before after : List Entry} {crate a s : String} {path : Path}
  {problem : Discovery.Problem}

/-! ## Which entries there are -/

/-- The entry that a field of a dependency table makes, if it is a table with a path. Its name is
its `package`, or else its key. -/
def pathEntry : String × Datum → Option Entry
  | (key, .record spec) =>
    if (spec.lookup "path").isSome then
      some ⟨(spec.lookup "package").getD (.text key), spec.lookup "version"⟩
    else none
  | _ => none

/-- The entries of a dependency table; there are none if it is absent or no table. -/
def entriesOf : Option Datum → List Entry
  | some (.record fields) => fields.filterMap pathEntry
  | _ => []

/-- The entries of the two dependency tables of a table. -/
def tableEntries (fields : List (String × Datum)) : List Entry :=
  entriesOf (fields.lookup "dependencies") ++ entriesOf (fields.lookup "build-dependencies")

/-- The entries of a value inside `target`; there are none if it is no table. -/
def targetEntries : Datum → List Entry
  | .record fields => tableEntries fields
  | _ => []

/-- The entries of `target`; there are none if it is absent or no table. -/
def targetsEntries : Option Datum → List Entry
  | some (.record targets) => targets.flatMap fun target => targetEntries target.2
  | _ => []

/-- The entries of a manifest: of its own tables, then of those of its targets. -/
def pathEntries (fields : List (String × Datum)) : List Entry :=
  tableEntries fields ++ targetsEntries (fields.lookup "target")

/-- The entries that the reader takes from a table. -/
def readEntries (table : Datum) : List Entry :=
  table.fields.filterMap fun (key, spec) => entry? key spec

/-- The reader takes an entry from a field just where the field has a path. -/
lemma entry?_eq (key : String) (d : Datum) : entry? key d = pathEntry (key, d) := by
  cases d with
  | record spec =>
    have hentry : entry? key (.record spec) = (spec.lookup "path").map fun _ =>
        ⟨(spec.lookup "package").getD (.text key), spec.lookup "version"⟩ := rfl
    rw [hentry, pathEntry]
    cases spec.lookup "path" <;> rfl
  | _ => rfl

/-- The entries of a table that may be missing are those of the table, or none. -/
lemma flatMap_readEntries (o : Option Datum) : o.toList.flatMap readEntries = entriesOf o := by
  cases o with
  | none => rfl
  | some d =>
    simp only [Option.toList_some, List.flatMap_cons, List.flatMap_nil, List.append_nil,
      readEntries, entry?_eq]
    cases d <;> rfl

/-- The entries of the dependency tables of any value. -/
lemma flatMap_tablesOf (d : Datum) : (tablesOf d).flatMap readEntries = targetEntries d := by
  cases d with
  | record fields =>
    have htables : tablesOf (.record fields) =
        (fields.lookup "dependencies").toList ++ (fields.lookup "build-dependencies").toList := by
      have hfield (name : String) : (Datum.record fields).field? name = fields.lookup name := rfl
      simp only [tablesOf, dependencyTables, List.filterMap_cons, List.filterMap_nil, hfield]
      cases fields.lookup "dependencies" <;> cases fields.lookup "build-dependencies" <;> rfl
    rw [htables, List.flatMap_append, flatMap_readEntries, flatMap_readEntries]
    rfl
  | _ => rfl

/-- The entries that are read are those of the tables. -/
lemma entries_eq (fields : List (String × Datum)) :
    entries (.record fields) = pathEntries fields := by
  have htargets : ((((fields.lookup "target").map Datum.fields).getD []).flatMap fun target =>
      tablesOf target.2).flatMap readEntries = targetsEntries (fields.lookup "target") := by
    simp only [List.flatMap_assoc, flatMap_tablesOf]
    cases fields.lookup "target" with
    | none => rfl
    | some d => cases d <;> rfl
  calc entries (.record fields)
      = (tablesOf (.record fields)).flatMap readEntries ++ ((((fields.lookup "target").map
          Datum.fields).getD []).flatMap fun target => tablesOf target.2).flatMap readEntries :=
        List.flatMap_append
    _ = pathEntries fields := by rw [flatMap_tablesOf, htargets]; rfl

/-! ## Which version a requirement asks for -/

/-- A requirement asks for exactly one version: it is the text of a version, or an equals sign and
then, after white space if any, the text of a version. -/
structure Requires (requirement : String) (w : Spelling) : Prop where
  valid : w.Valid
  text : requirement.toList = w.chars ∨
    ∃ blanks, (∀ c ∈ blanks, Text.isBlank c = true) ∧ requirement.toList = '=' :: blanks ++ w.chars

/-- An entry is pinned to a version. -/
def PinnedAt (e : Entry) (w : Spelling) : Prop :=
  ∃ s, e.version = some (.text s) ∧ Requires s w

/-- The text of a version starts with an ASCII digit. -/
lemma exists_head_chars (h : w.Valid) :
    ∃ c rest, w.chars = c :: rest ∧ 48 ≤ c.toNat ∧ c.toNat ≤ 57 := by
  have hmajor := h.major
  unfold Spelling.chars Spelling.core
  generalize w.major = number at hmajor ⊢
  cases hmajor with
  | zero => exact ⟨'0', _, rfl, by decide, by decide⟩
  | @positive c rest first digits =>
    exact ⟨c, _, rfl, Text.isDigit_ascii_iff.mp (positive_iff.mp first).2⟩

/-- White space before a version is skipped and nothing else, since a version starts with a
digit. -/
lemma stripLeft_append_chars (h : w.Valid) (hblanks : ∀ c ∈ cs, Text.isBlank c = true) :
    Text.stripLeft (cs ++ w.chars) = w.chars := by
  obtain ⟨c, rest, hchars, hlow, hhigh⟩ := exists_head_chars h
  have hc : ¬Text.isBlank c = true := by
    simp only [Text.isBlank, Bool.or_eq_true, Bool.and_eq_true, decide_eq_true_eq, beq_iff_eq]
    omega
  unfold Text.stripLeft
  rw [List.dropWhile_append_of_pos hblanks, hchars, List.dropWhile_cons_of_neg hc]

/-- What is left of a requirement without its equals sign is the text of the version. -/
lemma requires_iff : Requires s w ↔ w.Valid ∧ w.chars = (exactly s).toList := by
  unfold exactly
  split
  · next rest hs =>
    rw [String.toList_ofList]
    constructor
    · rintro ⟨hvalid, htext | ⟨blanks, hblanks, htext⟩⟩
      · -- a version starts with a digit, and so with no equals sign
        obtain ⟨c, chars, hchars, -, hhigh⟩ := exists_head_chars hvalid
        rw [hs, hchars] at htext
        rw [← (List.cons.inj htext).1] at hhigh
        exact absurd hhigh (by decide)
      · rw [hs] at htext
        have hrest : rest = blanks ++ w.chars := (List.cons.inj htext).2
        rw [hrest, stripLeft_append_chars hvalid hblanks]
        exact ⟨hvalid, rfl⟩
    · rintro ⟨hvalid, hchars⟩
      refine ⟨hvalid, .inr ⟨rest.takeWhile Text.isBlank, fun c hc => ?_, ?_⟩⟩
      · exact List.all_eq_true.mp List.all_takeWhile c hc
      · rw [hs, hchars, Text.stripLeft, List.cons_append, List.takeWhile_append_dropWhile]
  · next hs =>
    constructor
    · rintro ⟨hvalid, htext | ⟨blanks, hblanks, htext⟩⟩
      · exact ⟨hvalid, htext.symm⟩
      · exact absurd htext (hs _)
    · rintro ⟨hvalid, hchars⟩
      exact ⟨hvalid, .inl hchars.symm⟩

/-! ## When entries are in order -/

/-- An entry asks for a pin: on the crate that it names, at the version that it is pinned to. -/
def Asks (e : Entry) (pin : Pin) : Prop :=
  ∃ a w, e.subject = .text a ∧ PinnedAt e w ∧ pin = ⟨.crate a, w.version⟩

/-- Entries are in order if each is pinned to a version, and those of one name to one version. -/
structure InOrder (entries : List Entry) : Prop where
  pinned : ∀ e ∈ entries, ∃ w, PinnedAt e w
  agree : ∀ e ∈ entries, ∀ e' ∈ entries, e.subject = e'.subject →
    ∀ w w', PinnedAt e w → PinnedAt e' w' → w.version = w'.version

/-- What is wrong with an entry of a crate's manifest that comes after others: it asks for no
version, its version is none that the grammar makes, or an earlier entry of its name is pinned to
another version. -/
inductive EntryFault (crate : String) (path : Path) (before : List Entry) (e : Entry) :
    Discovery.Problem → Prop
  | notText {a : String} (subject : e.subject = .text a)
      (version : ∀ s, e.version ≠ some (.text s)) :
    EntryFault crate path before e (.versionNotText (.pin a crate) path)
  | malformed {a s : String} (subject : e.subject = .text a) (version : e.version = some (.text s))
      (unpinned : ∀ w, ¬Requires s w) :
    EntryFault crate path before e
      (.versionMalformed (.pin a crate) (.malformed (exactly s)) path)
  | conflict {a : String} {w w' : Spelling} {e' : Entry} (subject : e.subject = .text a)
      (pinned : PinnedAt e w) (mem : e' ∈ before) (earlier : e'.subject = .text a)
      (pinned' : PinnedAt e' w') (differ : w'.version ≠ w.version) :
    EntryFault crate path before e (.pinConflict crate (.crate a) w'.version w.version path)

/-- An entry is pinned to one version only. -/
lemma PinnedAt.eq (h : PinnedAt e w) (h' : PinnedAt e w') : w = w' := by
  obtain ⟨s, hs, hrequires⟩ := h
  obtain ⟨s', hs', hrequires'⟩ := h'
  obtain rfl : s = s' := by simpa [hs] using hs'
  obtain ⟨hvalid, hchars⟩ := requires_iff.mp hrequires
  obtain ⟨hvalid', hchars'⟩ := requires_iff.mp hrequires'
  exact hvalid.eq_of_chars_eq hvalid' (hchars.trans hchars'.symm)

/-- Entries with one in the midst that has something wrong with it are not in order. -/
lemma EntryFault.not_inOrder (h : EntryFault crate path before e problem) :
    ¬InOrder (before ++ e :: after) := by
  intro hin
  have he : e ∈ before ++ e :: after := List.mem_append_right _ List.mem_cons_self
  obtain ⟨w, hpinned⟩ := hin.pinned e he
  cases h with
  | notText subject version =>
    obtain ⟨s, hs, -⟩ := hpinned
    exact version s hs
  | malformed subject version unpinned =>
    obtain ⟨s, hs, hrequires⟩ := hpinned
    obtain rfl : _ = s := by simpa [version] using hs
    exact unpinned w hrequires
  | conflict subject pinned mem earlier pinned' differ =>
    exact differ (hin.agree _ (List.mem_append_left _ mem) e he (earlier.trans subject.symm) _ _
      pinned' pinned)

/-- A fault of an entry is a problem of the manifest; its kind says whether the entry is pinned. -/
lemma EntryFault.problem_eq (h : EntryFault crate path before e problem) :
    problem.path = some path ∧
      ((problem.code = "MANIFEST_PARSE" ∧ ∀ w, ¬PinnedAt e w) ∨
        (problem.code = "VERSION_CONFLICT" ∧ ∃ w, PinnedAt e w)) := by
  cases h with
  | notText subject version => exact ⟨rfl, .inl ⟨rfl, fun w ⟨s, hs, _⟩ => version s hs⟩⟩
  | malformed subject version unpinned =>
    refine ⟨rfl, .inl ⟨rfl, fun w ⟨s, hs, hrequires⟩ => ?_⟩⟩
    obtain rfl : _ = s := by simpa [version] using hs
    exact unpinned w hrequires
  | @conflict a w w' e' subject pinned mem earlier pinned' differ =>
    exact ⟨rfl, .inr ⟨rfl, w, pinned⟩⟩

/-! ## Reading one entry -/

/-- A declared version that the grammar makes is read. -/
lemma readVersion_of_valid (trim : String → String) (subject : Subject) (path : Path)
    (hvalid : w.Valid) (hshort : w.Short) (hchars : w.chars = (trim s).toList) :
    readVersion trim subject path (some (.text s)) = .ok w.version := by
  rw [readVersion, parse_eq_ok hvalid hshort hchars]

/-- An entry that names a crate is read as the pin it asks for, or its fault is found. -/
lemma readPin_cases (crate : String) (path : Path) (before : List Entry)
    (hname : e.subject = .text a) (hshort : ∀ w, PinnedAt e w → w.Short) :
    (∃ w, PinnedAt e w ∧ readPin crate path e = .ok ⟨.crate a, w.version⟩) ∨
      ∃ problem, EntryFault crate path before e problem ∧
        readPin crate path e = .error (.discovery problem) := by
  have hread : readPin crate path e =
      (readVersion exactly (.pin a crate) path e.version).bind fun v => .ok ⟨.crate a, v⟩ := by
    unfold readPin
    rw [hname]
    rfl
  rw [hread]
  by_cases htext : ∃ s, e.version = some (.text s)
  · obtain ⟨s, hs⟩ := htext
    by_cases hpinned : ∃ w, Requires s w
    · obtain ⟨w, hw⟩ := hpinned
      obtain ⟨hvalid, hchars⟩ := requires_iff.mp hw
      have hpinned : PinnedAt e w := ⟨s, hs, hw⟩
      refine .inl ⟨w, hpinned, ?_⟩
      rw [hs, readVersion_of_valid exactly _ path hvalid (hshort w hpinned) hchars]
      rfl
    · have hnone : ∀ w, ¬Requires s w := fun w hw => hpinned ⟨w, hw⟩
      have hparse : Version.parse (exactly s) = .error (.malformed (exactly s)) :=
        parse_eq_malformed_iff.mpr fun ⟨w, hw⟩ => hnone w (requires_iff.mpr hw)
      refine .inr ⟨_, .malformed hname hs hnone, ?_⟩
      rw [hs, readVersion, hparse]
      rfl
  · have hnot : ∀ s, e.version ≠ some (.text s) := fun s hs => htext ⟨s, hs⟩
    refine .inr ⟨_, .notText hname hnot, ?_⟩
    unfold readVersion
    split
    · next s hs => exact absurd hs (hnot s)
    · rfl

end CrateGate.Manifest
