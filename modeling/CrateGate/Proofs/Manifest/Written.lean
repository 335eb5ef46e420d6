import CrateGate.Proofs.Manifest.Pins
import CrateGate.Proofs.Toml.Document
import CrateGate.Proofs.Version.Render

/-!
# Manifests as they are written

A manifest can be written down from what it is to declare: a crate, its version, whether it is to be
published, and the crates beside it with the versions that it asks for (`Declaration.text`). What is
read from such a manifest is what was declared, in the order of the names (`parse_declaration`).
-/

namespace CrateGate

namespace Version

variable {c : Char} {w : Spelling}

/-- In the text of a version stand only decimal digits, the characters of identifiers, dots and plus
signs. -/
lemma Spelling.Valid.notMem_chars (h : w.Valid) (hdigit : Text.isDigit c = false)
    (hchar : ¬IdentifierChar c) (hdot : c ≠ '.') (hplus : c ≠ '+') : c ∉ w.chars := by
  have hhyphen : c ≠ '-' := fun heq => hchar (.inr heq)
  have hpre : ∀ cs ∈ w.pre, c ∉ cs := by
    intro cs hcs hc
    rcases (h.pre cs hcs).isDigit_or_identifierChar hc with hc | hc
    · rw [hdigit] at hc
      cases hc
    · exact hchar hc
  have hbuild : ∀ cs ∈ w.build, c ∉ cs := fun cs hcs hc => hchar ((h.build cs hcs).chars c hc)
  simp only [Spelling.chars, List.mem_append, not_or]
  exact ⟨⟨h.notMem_core hdigit hdot, notMem_part hhyphen hdot hpre⟩,
    notMem_part hplus hdot hbuild⟩

/-- The characters of a version stand for themselves between quotes. -/
lemma Spelling.Valid.plain_chars (h : w.Valid) (hc : c ∈ w.chars) : Toml.Plain c := by
  have hcode : ¬(c.toNat < 43 ∨ c.toNat = 92 ∨ c.toNat = 127) := by
    intro hcode
    have hdigit : Text.isDigit c = false := by
      rw [Text.isDigit_eq_of_lt (by omega), Bool.eq_false_iff, ne_eq, Text.isDigit_ascii_iff]
      omega
    have hchar : ¬IdentifierChar c := by
      rintro (halphanum | rfl)
      · rw [Char.isAlphanum, Bool.or_eq_true, Text.isAlpha_iff, Text.isDigit_ascii_iff]
          at halphanum
        omega
      · revert hcode
        decide
    refine h.notMem_chars hdigit hchar ?_ ?_ hc <;> rintro rfl <;> revert hcode <;> decide
  refine ⟨?_, ?_, ?_⟩
  · rintro rfl
    exact hcode (by decide)
  · rintro rfl
    exact hcode (by decide)
  · rw [Toml.isControl, decide_eq_false (p := c.toNat < 32) (by omega),
      decide_eq_false (p := c.toNat = 127) (by omega)]
    rfl

/-- What is read as a version may be put between quotes. -/
lemma quotable_of_parse {s : String} {v : Version} (h : parse s = .ok v) : Toml.Quotable s := by
  obtain ⟨w, hvalid, -, hchars, -⟩ := exists_spelling_of_parse h
  refine ⟨fun c hc => hvalid.plain_chars (hchars ▸ hc), ?_⟩
  rintro rfl
  cases h

end Version

namespace Manifest

open Version Toml

variable {v : Version}

/-! ## Writing a manifest -/

/-- A dependency on a crate beside the one of a manifest. -/
structure Dependency where
  /-- The name of the crate. -/
  crate : String
  /-- The text of the version that is asked for. -/
  version : String

/-- What a manifest is to declare. -/
structure Declaration where
  /-- The name of the crate. -/
  name : String
  /-- The text of its version. -/
  version : String
  /-- Whether it is to be published. -/
  published : Bool
  /-- The crates beside it that it depends on. -/
  dependencies : List Dependency

/-- The line of a dependency, with the path and the version of the crate. -/
def Dependency.line (x : Dependency) : String :=
  x.crate ++ " = \x7b path = \"../" ++ x.crate ++ "\", version = \"" ++ x.version ++ "\" \x7d"

/-- The lines of the manifest: the package, an empty line, and the dependencies. -/
def Declaration.lines (d : Declaration) : List String :=
  ["[package]", "name = \"" ++ d.name ++ "\"", "version = \"" ++ d.version ++ "\""] ++
    (if d.published then [] else ["publish = false"]) ++ ["", "[dependencies]"] ++
    d.dependencies.map Dependency.line

/-- The text of the manifest. -/
def Declaration.text (d : Declaration) : String :=
  "\n".intercalate d.lines ++ "\n"

/-- A declaration can be written down: names need no quotes, every version is one that can be read,
and no crate is named twice among the dependencies. -/
structure Declaration.Valid (d : Declaration) (v : Version) : Prop where
  name : BareKey d.name
  version : Version.parse d.version = .ok v
  crates : ∀ x ∈ d.dependencies, BareKey x.crate
  versions : ∀ x ∈ d.dependencies, ∃ w, Version.parse x.version = .ok w
  distinct : (d.dependencies.map Dependency.crate).Nodup

/-! ## The manifest as a document -/

namespace Dependency

variable {x : Dependency}

/-- The fields of the inline table of a dependency. -/
def fields (x : Dependency) : List Field :=
  [Field.ofText "path" ("../" ++ x.crate), Field.ofText "version" x.version]

/-- The field of a dependency. -/
def field (x : Dependency) : Field :=
  ⟨x.crate, inlineTable x.fields, .record (x.fields.map Field.pair)⟩

/-- The line of a dependency is a field: its name, an equals sign, and a table of path and
version. -/
lemma toList_line (x : Dependency) : x.line.toList = x.field.chars := by
  simp [line, field, fields, Field.ofText, inlineTable, fieldList, Text.joinWith, Field.chars,
    quoted]

/-- The field of a dependency is valid if its name is a bare key and its version can be read. -/
lemma valid_field {w : Version} (hcrate : BareKey x.crate)
    (hversion : Version.parse x.version = .ok w) : x.field.Valid depthLimit := by
  have hpath : Quotable ("../" ++ x.crate) := by
    refine ⟨fun c hc => ?_, by simp⟩
    rcases List.mem_append.mp (String.toList_append ▸ hc) with hc | hc
    · have hdots : c = '.' ∨ c = '/' := by simpa using hc
      rcases hdots with rfl | rfl <;> exact ⟨by decide, by decide, by decide⟩
    · exact hcrate.quotable.chars c hc
  have hfields : ∀ f ∈ x.fields, f.Valid (depthLimit - 3) :=
    List.forall_mem_cons.mpr ⟨Field.valid_ofText (.of_all (by decide) (by decide)) hpath,
      List.forall_mem_singleton.mpr
        (Field.valid_ofText (.of_all (by decide) (by decide)) (quotable_of_parse hversion))⟩
  have hkeys : ["path", "version"].Nodup := by decide
  exact ⟨hcrate, writes_inlineTable hfields (List.cons_ne_nil _ _) hkeys⟩

/-- The entry that a manifest takes from the line of a dependency. -/
def entry (x : Dependency) : Entry :=
  ⟨.text x.crate, some (.text x.version)⟩

/-- What is read of the field of a dependency is an entry with its name and its version. -/
lemma pathEntry_pair (x : Dependency) : pathEntry x.field.pair = some x.entry := by
  rfl

/-- The entry is pinned to the version that the line asks for. -/
lemma exists_pinnedAt (x : Dependency) (h : Version.parse x.version = .ok v) :
    ∃ w, PinnedAt x.entry w ∧ w.Short ∧ w.version = v := by
  obtain ⟨w, hvalid, hshort, hchars, hw⟩ := exists_spelling_of_parse h
  exact ⟨w, ⟨x.version, rfl, hvalid, .inl hchars.symm⟩, hshort, hw⟩

/-- The entry of a dependency asks for the pin of its crate at the version that its text says. -/
lemma asks_entry_iff {pin : Pin} (x : Dependency) (h : Version.parse x.version = .ok v) :
    Asks x.entry pin ↔
      pin.label = .crate x.crate ∧ Version.parse x.version = .ok pin.version := by
  obtain ⟨w, hpinned, -, rfl⟩ := x.exists_pinnedAt h
  rw [asks_iff rfl hpinned, h]
  constructor
  · rintro rfl
    exact ⟨rfl, rfl⟩
  · rintro ⟨hlabel, hversion⟩
    rw [Except.ok.inj hversion, ← hlabel]

end Dependency

namespace Declaration

variable {d : Declaration}

/-- The fields that say whether the crate is to be published: one if it is not. -/
def publishFields : Bool → List Field
  | true => []
  | false => [⟨"publish", "false".toList, .atom (.flag false)⟩]

/-- The table of the package. -/
def packageTable (d : Declaration) : Table :=
  ⟨"package", Field.ofText "name" d.name :: Field.ofText "version" d.version ::
    publishFields d.published⟩

/-- The table of the dependencies. -/
def dependencyTable (d : Declaration) : Table :=
  ⟨"dependencies", d.dependencies.map Dependency.field⟩

/-- Every line of the manifest is ended. -/
lemma toList_text (d : Declaration) :
    d.text.toList = d.lines.flatMap fun l => l.toList ++ ['\n'] := by
  have hjoin : ∀ l ls, ['\n'].intercalate ((l :: ls).map String.toList) ++ ['\n'] =
      (l :: ls).flatMap fun l => l.toList ++ ['\n'] := by
    intro l ls
    induction ls generalizing l with
    | nil => simp
    | cons next ls ih =>
      rw [List.flatMap_cons, ← ih next, List.map_cons, List.map_cons, List.intercalate_cons_cons,
        List.append_assoc]
  rw [text, String.toList_append, String.toList_intercalate]
  exact hjoin _ _

/-- **The manifest is a document of two tables.** -/
lemma toList_text_eq (d : Declaration) :
    d.text.toList = document [d.packageTable, d.dependencyTable] := by
  have hdependencies : (d.dependencies.map Dependency.line).flatMap (fun l => l.toList ++ ['\n']) =
      (d.dependencies.map Dependency.field).flatMap fun f => f.chars ++ ['\n'] := by
    simp only [List.flatMap_map, Dependency.toList_line]
  rw [toList_text, lines, List.flatMap_append, hdependencies]
  cases hpublished : d.published <;>
    simp [document, Text.joinWith, Table.chars, packageTable, dependencyTable, publishFields,
      hpublished, Field.ofText, Field.chars, quoted]

/-- The field that says a package is not to be published is valid, where there is one. -/
lemma valid_publishFields {cost : Nat} {published : Bool} :
    ∀ f ∈ publishFields published, f.Valid cost := by
  cases published with
  | true => exact fun _ hf => absurd hf List.not_mem_nil
  | false => exact List.forall_mem_singleton.mpr ⟨.of_all (by decide) (by decide), writes_false⟩

/-- The table of the package is valid: its keys are bare and its texts can be quoted. -/
lemma Valid.valid_packageTable (h : d.Valid v) : d.packageTable.Valid where
  header := show BareKey "package" from .of_all (by decide) (by decide)
  fields :=
    List.forall_mem_cons.mpr ⟨Field.valid_ofText (.of_all (by decide) (by decide)) h.name.quotable,
      List.forall_mem_cons.mpr ⟨Field.valid_ofText (.of_all (by decide) (by decide))
        (quotable_of_parse h.version), valid_publishFields⟩⟩
  keys := by
    cases hpublished : d.published <;> simp [packageTable, publishFields, hpublished, Field.ofText]

/-- The table of the dependencies is valid, since each of its fields is and no two have one key. -/
lemma Valid.valid_dependencyTable (h : d.Valid v) : d.dependencyTable.Valid where
  header := show BareKey "dependencies" from .of_all (by decide) (by decide)
  fields := by
    intro f hf
    obtain ⟨x, hx, rfl⟩ := List.mem_map.mp hf
    obtain ⟨w, hw⟩ := h.versions x hx
    exact Dependency.valid_field (h.crates x hx) hw
  keys := by
    rw [dependencyTable, List.map_map]
    exact h.distinct

/-- The fields of the manifest. -/
def fields (d : Declaration) : List (String × Datum) :=
  [d.packageTable.pair, d.dependencyTable.pair]

/-- The text of a valid declaration is a document with the two tables, as they are meant. -/
lemma Valid.parse_text (h : d.Valid v) : Toml.parse d.text = .ok d.fields := by
  refine parse_document d.toList_text_eq ?_ (by simp [packageTable, dependencyTable])
  exact List.forall_mem_cons.mpr ⟨h.valid_packageTable,
    List.forall_mem_singleton.mpr h.valid_dependencyTable⟩

/-- The entries in the document of a declaration are those of its dependencies, in their order. -/
lemma pathEntries_fields (d : Declaration) :
    pathEntries d.fields = d.dependencies.map Dependency.entry := by
  have htable : pathEntries d.fields =
      ((d.dependencies.map Dependency.field).map Field.pair).filterMap pathEntry ++ [] ++ [] := rfl
  rw [htable, List.append_nil, List.append_nil, List.map_map, List.filterMap_map]
  have hentry : pathEntry ∘ Field.pair ∘ Dependency.field = some ∘ Dependency.entry :=
    funext Dependency.pathEntry_pair
  rw [← List.filterMap_eq_map, ← hentry]

/-- The package that is declared is valid. -/
lemma Valid.exists_validPackage (h : d.Valid v) :
    ∃ w : Spelling, ValidPackage (d.packageTable.fields.map Field.pair) d.name w d.published ∧
      w.version = v := by
  obtain ⟨w, hvalid, hshort, hchars, rfl⟩ := exists_spelling_of_parse h.version
  obtain ⟨c, cs, hcs, hc⟩ := h.name.exists_cons
  have hpublish : (d.packageTable.fields.map Field.pair).lookup "publish" =
      ((publishFields d.published).map Field.pair).lookup "publish" := rfl
  refine ⟨w, ⟨rfl, ⟨c, hcs ▸ List.mem_cons_self, isBlank_of_isKeyChar hc⟩, ⟨d.version, rfl, hchars⟩,
    hvalid, hshort, ?_⟩, rfl⟩
  rw [hpublish]
  cases d.published with
  | true => exact .inl ⟨rfl, rfl⟩
  | false => exact .inr (.inl rfl)

/-- The entries are in order: each is pinned, and no two of them are of one crate. -/
lemma Valid.inOrder (h : d.Valid v) : InOrder (d.dependencies.map Dependency.entry) := by
  refine ⟨fun e he => ?_, fun e he e' he' hsubject w w' hpinned hpinned' => ?_⟩
  · obtain ⟨x, hx, rfl⟩ := List.mem_map.mp he
    obtain ⟨v, hv⟩ := h.versions x hx
    obtain ⟨w, hpinned, -, -⟩ := x.exists_pinnedAt hv
    exact ⟨w, hpinned⟩
  · obtain ⟨x, hx, rfl⟩ := List.mem_map.mp he
    obtain ⟨y, hy, rfl⟩ := List.mem_map.mp he'
    have hcrate : x.crate = y.crate := Datum.text.inj hsubject
    obtain rfl : x = y := List.inj_on_of_nodup_map h.distinct hx hy hcrate
    rw [hpinned.eq hpinned']

/-- The pins of the entries are read and sorted. -/
lemma Valid.exists_pins (h : d.Valid v) (path : Path) :
    ∃ pins, (collect d.name path [] (pathEntries d.fields)).bind sortPins = .ok pins ∧
      (pins.Pairwise fun p q => ∃ a b, p.label = .crate a ∧ q.label = .crate b ∧ a < b) ∧
      ∀ pin, pin ∈ pins ↔ ∃ x ∈ d.dependencies, Asks x.entry pin := by
  rw [pathEntries_fields]
  have hnames : ∀ e ∈ d.dependencies.map Dependency.entry, ∃ a, e.subject = .text a := by
    intro e he
    obtain ⟨x, -, rfl⟩ := List.mem_map.mp he
    exact ⟨x.crate, rfl⟩
  have hshort : ∀ e ∈ d.dependencies.map Dependency.entry, ∀ w, PinnedAt e w → w.Short := by
    intro e he w hpinned
    obtain ⟨x, hx, rfl⟩ := List.mem_map.mp he
    obtain ⟨v, hv⟩ := h.versions x hx
    obtain ⟨w', hpinned', hshort, -⟩ := x.exists_pinnedAt hv
    rw [hpinned.eq hpinned']
    exact hshort
  rcases gathered_nil.collect_cases d.name path hnames hshort with
    ⟨pins, hcollect, hgathered⟩ | ⟨before, e, after, problem, hsplit, -, hfault, -⟩
  · obtain ⟨sorted, hsort, hmem, hsorted⟩ :=
      sortPins_eq_ok (fun p hp => hgathered.exists_crate hp) hgathered.distinct
    refine ⟨sorted, by rw [hcollect]; exact hsort, hsorted, fun pin => ?_⟩
    rw [hmem, hgathered.mem_iff, List.nil_append]
    simp only [List.mem_map, exists_exists_and_eq_and]
  · have hin := h.inOrder
    rw [List.nil_append] at hsplit
    rw [hsplit] at hin
    exact absurd hin hfault.not_inOrder

end Declaration

/-! ## Reading it back -/

/-- **What is read from a written manifest is what was declared**, for a declaration that can be
written down: names that need no quotes, versions that can be read, and no two dependencies on one
crate. The dependencies come in strictly increasing order of their names. -/
theorem parse_declaration (d : Declaration) (path : Path) (hname : BareKey d.name)
    (hcrates : ∀ x ∈ d.dependencies, BareKey x.crate)
    (hdistinct : (d.dependencies.map Dependency.crate).Nodup)
    (hversion : Version.parse d.version = .ok v)
    (hversions : ∀ x ∈ d.dependencies, ∃ w, Version.parse x.version = .ok w) :
    ∃ p, parse d.text path = .ok (some p) ∧ p.name = d.name ∧ p.version = v ∧
      p.category = Category.ofName d.name ∧ p.manifest = path ∧ p.published = d.published ∧
      (p.pins.Pairwise fun q r => ∃ a b, q.label = .crate a ∧ r.label = .crate b ∧ a < b) ∧
      ∀ pin, pin ∈ p.pins ↔ ∃ x ∈ d.dependencies,
        pin.label = .crate x.crate ∧ Version.parse x.version = .ok pin.version := by
  have hvalid : d.Valid v := ⟨hname, hversion, hcrates, hversions, hdistinct⟩
  obtain ⟨w, hpackage, rfl⟩ := hvalid.exists_validPackage
  obtain ⟨pins, hpins, hsorted, hmem⟩ := hvalid.exists_pins path
  have hparse := parse_of_valid path hvalid.parse_text rfl hpackage
  rw [hpins, Except.bind] at hparse
  refine ⟨_, hparse, rfl, rfl, rfl, rfl, rfl, hsorted, fun pin => ?_⟩
  rw [hmem]
  refine exists_congr fun x => and_congr_right fun hx => ?_
  obtain ⟨u, hu⟩ := hversions x hx
  exact x.asks_entry_iff hu

/-- A crate that is not published, with dependencies whose names could be values. -/
def unpublishedDeclaration : Declaration :=
  ⟨"aws-0", "1.2٣.0-rc.1+007", false, [⟨"true", "10.0.0"⟩, ⟨"-1", "0.0.0-x"⟩, ⟨"1e3", "2.0.0"⟩]⟩

/-- That declaration is read back from its text, with the three dependencies in the order of their
names and the digits of another script in the version. -/
theorem parse_unpublishedDeclaration :
    let d := unpublishedDeclaration
    let p : Package := ⟨"aws-0", ⟨1, 23, 0, "rc.1", "007"⟩, ⟨["a", "Cargo.toml"]⟩,
      [⟨.crate "-1", ⟨0, 0, 0, "x", ""⟩⟩, ⟨.crate "1e3", ⟨2, 0, 0, "", ""⟩⟩,
        ⟨.crate "true", ⟨10, 0, 0, "", ""⟩⟩], false⟩
    BareKey d.name ∧ (∀ x ∈ d.dependencies, BareKey x.crate) ∧
      (d.dependencies.map Dependency.crate).Nodup ∧ Version.parse d.version = .ok p.version ∧
      (∀ x ∈ d.dependencies, ∃ w, Version.parse x.version = .ok w) ∧
      parse d.text p.manifest = .ok (some p) ∧ p.category = .distribution ∧
      ∀ pin, pin ∈ p.pins ↔ ∃ x ∈ d.dependencies,
        pin.label = .crate x.crate ∧ Version.parse x.version = .ok pin.version := by
  intro d p
  have hname : BareKey d.name := .of_all (by decide) (by decide)
  have hcrates : ∀ x ∈ d.dependencies, BareKey x.crate := by
    simp only [d, unpublishedDeclaration, List.forall_mem_cons]
    exact ⟨.of_all (by decide) (by decide), .of_all (by decide) (by decide),
      .of_all (by decide) (by decide), nofun⟩
  have hdistinct : (d.dependencies.map Dependency.crate).Nodup := by decide
  have hversion : Version.parse d.version = .ok p.version := by decide
  have hversions : ∀ x ∈ d.dependencies, ∃ w, Version.parse x.version = .ok w := by
    simp only [d, unpublishedDeclaration, List.forall_mem_cons]
    exact ⟨⟨_, rfl⟩, ⟨_, rfl⟩, ⟨_, rfl⟩, nofun⟩
  have hvalid : d.Valid p.version := ⟨hname, hversion, hcrates, hversions, hdistinct⟩
  have hparse : parse d.text p.manifest = .ok (some p) := by
    rw [parse, hvalid.parse_text]
    decide +kernel
  obtain ⟨q, hq, -, -, -, -, -, -, hpins⟩ :=
    parse_declaration d p.manifest hname hcrates hdistinct hversion hversions
  obtain rfl : p = q := Option.some.inj (Except.ok.inj (hparse.symm.trans hq))
  exact ⟨hname, hcrates, hdistinct, hversion, hversions, hparse, by decide, hpins⟩

/-- A dependency without a name cannot be written so: a key without quotes is not empty. -/
theorem parse_namelessDependency :
    let d : Declaration := ⟨"a", "1.0.0", true, [⟨"", "1.0.0"⟩]⟩
    let path : Path := ⟨["a", "Cargo.toml"]⟩
    BareKey d.name ∧ (∀ x ∈ d.dependencies, ∀ c ∈ x.crate.toList, isKeyChar c = true) ∧
      (d.dependencies.map Dependency.crate).Nodup ∧
      Version.parse d.version = .ok ⟨1, 0, 0, "", ""⟩ ∧
      (∀ x ∈ d.dependencies, Version.parse x.version = .ok ⟨1, 0, 0, "", ""⟩) ∧
      parse d.text path = .error (.discovery (.malformed path (Toml.joined d.text))) ∧
      ∀ p, parse d.text path ≠ .ok (some p) := by
  intro d path
  have hparse : parse d.text path =
      .error (.discovery (.malformed path (Toml.joined d.text))) := by decide +kernel
  refine ⟨.of_all (by decide) (by decide), ?_, by decide, by decide, ?_, hparse, fun p hp => ?_⟩
  · exact List.forall_mem_singleton.mpr nofun
  · exact List.forall_mem_singleton.mpr rfl
  · rw [hparse] at hp
    cases hp

end Manifest

end CrateGate
