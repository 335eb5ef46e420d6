import CrateGate.Proofs.Settings.Load
import CrateGate.Proofs.Text.Strip
import CrateGate.Yaml.Read
import Mathlib.Data.List.Sort

/-!
# What settings documents say

A document whose keys are texts describes settings, or has a first flaw, never both. What it means
to describe settings is said key by key: a key that is absent stands for the standard value, and one
that is held stands for what its last value means (`Describes`). The settings that are loaded are
those which the document describes, and otherwise its first flaw is reported (`load_document`). The
document that settings are written as describes them again (`describes_document`).
-/

namespace CrateGate.Settings

open Yaml (Value)

variable {α : Type} {pairs : List (Value × Value)} {key name : Text} {v w : Value}
  {settings : Settings} {flaw : Flaw} {Means : Value → α → Prop} {standard a : α}

/-! ## Keys -/

/-- The value that is a text. -/
def textValue (t : Text) : Value :=
  .plain (.text t)

/-- The pairs hold a value for a key: the last one that they have. -/
def Holds (pairs : List (Value × Value)) (key : Text) (v : Value) : Prop :=
  ∃ before after, pairs = before ++ (textValue key, v) :: after ∧
    ∀ pair ∈ after, pair.1 ≠ textValue key

/-- The pairs have nothing for a key. -/
def Lacks (pairs : List (Value × Value)) (key : Text) : Prop :=
  ∀ pair ∈ pairs, pair.1 ≠ textValue key

/-- A value is a text if and only if it is the value of that text. -/
lemma text?_eq_some_iff {t : Text} : text? v = some t ↔ v = textValue t := by
  unfold text? textValue
  split
  · simp
  · next hno =>
    constructor
    · intro h
      cases h
    · rintro rfl
      exact absurd rfl (hno t)

/-- What is found for a key is what the pairs hold for it: the value of the last pair with that
key. -/
lemma field?_eq_some_iff {key : String} : field? key pairs = some v ↔ Holds pairs key v := by
  unfold field?
  simp only [Option.map_eq_some_iff, List.find?_eq_some_iff_append, decide_eq_true_eq,
    text?_eq_some_iff]
  constructor
  · rintro ⟨⟨k, _⟩, ⟨rfl, after, before, hsplit, hafter⟩, rfl⟩
    refine ⟨before.reverse, after.reverse, ?_, ?_⟩
    · rw [← List.reverse_inj, hsplit]
      simp
    · intro pair hpair
      simpa [text?_eq_some_iff] using hafter pair (List.mem_reverse.mp hpair)
  · rintro ⟨before, after, rfl, hafter⟩
    refine ⟨(textValue key, v), ⟨rfl, after.reverse, before.reverse, by simp, ?_⟩, rfl⟩
    intro pair hpair
    simpa [text?_eq_some_iff] using hafter pair (List.mem_reverse.mp hpair)

/-- Nothing is found for a key if and only if no pair has it. -/
lemma field?_eq_none_iff {key : String} : field? key pairs = none ↔ Lacks pairs key := by
  unfold field? Lacks
  simp [text?_eq_some_iff]

/-- The pairs have known keys only. -/
def KnownOnly (pairs : List (Value × Value)) : Prop :=
  ∀ pair ∈ pairs, ∃ key ∈ knownKeys, pair.1 = textValue key

/-- The keys of the pairs are texts. -/
def TextKeys (pairs : List (Value × Value)) : Prop :=
  ∀ pair ∈ pairs, ∃ key, pair.1 = textValue key

/-- The unknown keys of the pairs, which there are, one after another. -/
structure UnknownKeys (pairs : List (Value × Value)) (keys : List Text) : Prop where
  nonempty : keys ≠ []
  sorted : keys.Pairwise (· < ·)
  exactly : ∀ key, key ∈ keys ↔ key ∉ knownKeys ∧ ∃ v, (textValue key, v) ∈ pairs

/-- A key is known if and only if it is one of the known texts; a key of another kind never is. -/
lemma isKnown_iff : isKnown v = true ↔ ∃ key ∈ knownKeys, v = textValue key := by
  unfold isKnown
  simp only [Option.any_eq_true, text?_eq_some_iff, List.contains_iff_mem]
  constructor
  · rintro ⟨key, rfl, hkey⟩
    exact ⟨key, hkey, rfl⟩
  · rintro ⟨key, hkey, rfl⟩
    exact ⟨key, rfl, hkey⟩

/-- A text is known as a key if and only if it is one of the known ones. -/
lemma isKnown_textValue : isKnown (textValue key) = true ↔ key ∈ knownKeys := by
  rw [isKnown_iff]
  constructor
  · rintro ⟨key', hkey', heq⟩
    cases heq
    exact hkey'
  · intro hkey
    exact ⟨key, hkey, rfl⟩

/-- The keys of the pairs that are not known. -/
def strangers (pairs : List (Value × Value)) : List Value :=
  (pairs.map (·.1)).filter fun key => !isKnown key

/-- Their names, each once and one after another. -/
def strangerNames (pairs : List (Value × Value)) : List Text :=
  (SortedMap.ofList (((strangers pairs).filterMap text?).map fun name => (name, ()))).keys

/-- The check of the keys, with the keys that are not known named: none of them is fine, texts alone
are a problem, and anything else among them is a slip. -/
lemma checkKeys_eq (pairs : List (Value × Value)) :
    checkKeys pairs =
      if (strangers pairs).isEmpty then .ok ()
      else if ((strangers pairs).filterMap text?).length < (strangers pairs).length then
        .error (.inr .badType)
      else .error (.inl (.unknownKeys (strangerNames pairs))) :=
  rfl

/-- The strangers are the keys of the pairs that are not known. -/
lemma mem_strangers : v ∈ strangers pairs ↔ (∃ w, (v, w) ∈ pairs) ∧ isKnown v = false := by
  simp [strangers]

/-- A text is a stranger if and only if it is a key of the pairs and none of the known ones. -/
lemma textValue_mem_strangers :
    textValue key ∈ strangers pairs ↔ key ∉ knownKeys ∧ ∃ v, (textValue key, v) ∈ pairs := by
  have hknown : isKnown (textValue key) = false ↔ key ∉ knownKeys := by
    rw [Bool.eq_false_iff, ne_eq, isKnown_textValue]
  rw [mem_strangers, hknown, and_comm]

/-- There are no strangers if and only if the pairs have known keys only. -/
lemma strangers_eq_nil_iff : strangers pairs = [] ↔ KnownOnly pairs := by
  simp only [strangers, List.filter_eq_nil_iff, List.mem_map, forall_exists_index, and_imp,
    forall_apply_eq_imp_iff₂, Bool.not_eq_true', Bool.not_eq_false, isKnown_iff]
  rfl

/-- The names of strangers are the texts that are keys of the pairs and none of the known ones. -/
lemma mem_strangerNames :
    key ∈ strangerNames pairs ↔ key ∉ knownKeys ∧ ∃ v, (textValue key, v) ∈ pairs := by
  have hnames : key ∈ (strangers pairs).filterMap text? ↔ textValue key ∈ strangers pairs := by
    simp only [List.mem_filterMap, text?_eq_some_iff, exists_eq_right]
  rw [strangerNames, SortedMap.mem_keys_iff, SortedMap.get?_ofList, ← textValue_mem_strangers,
    ← hnames, ← List.map_reverse, List.find?_map, ← Option.isSome_iff_exists]
  simp only [Option.isSome_map, List.find?_isSome, List.mem_reverse, Function.comp_apply,
    decide_eq_true_eq, exists_eq_right]

/-- The unknown keys of the pairs are one list, as their order leaves no choice. -/
lemma UnknownKeys.unique {keys others : List Text} (h : UnknownKeys pairs keys)
    (h' : UnknownKeys pairs others) : keys = others :=
  h.sorted.eq_of_mem_iff h'.sorted fun key => (h.exactly key).trans (h'.exactly key).symm

/-- Where there are unknown keys, not all keys are known. -/
lemma UnknownKeys.not_knownOnly {keys : List Text} (h : UnknownKeys pairs keys) :
    ¬KnownOnly pairs := by
  intro hknown
  obtain ⟨key, hkey⟩ := List.exists_mem_of_ne_nil _ h.nonempty
  obtain ⟨hunknown, v, hv⟩ := (h.exactly key).mp hkey
  obtain ⟨key', hkey', heq⟩ := hknown _ hv
  cases heq
  exact hunknown hkey'

/-- Pairs with known keys only pass the check of the keys. -/
lemma checkKeys_of_known (h : KnownOnly pairs) : checkKeys pairs = .ok () := by
  rw [checkKeys_eq, strangers_eq_nil_iff.mpr h]
  rfl

/-- Unknown keys are reported, all of them, if every key is a text. -/
lemma checkKeys_of_unknown (htexts : TextKeys pairs) (h : ¬KnownOnly pairs) :
    checkKeys pairs = .error (.inl (.unknownKeys (strangerNames pairs))) ∧
      UnknownKeys pairs (strangerNames pairs) := by
  have hne : strangers pairs ≠ [] := by
    intro hnil
    exact h (strangers_eq_nil_iff.mp hnil)
  -- every stranger has a name, so none is lost where they are listed by name
  have hnamed : ∀ k ∈ strangers pairs, ∃ key, k = textValue key := by
    intro k hk
    obtain ⟨⟨v, hv⟩, -⟩ := mem_strangers.mp hk
    exact htexts _ hv
  have hlength : ((strangers pairs).filterMap text?).length = (strangers pairs).length := by
    rw [List.length_filterMap_eq_countP, List.countP_eq_length]
    intro k hk
    obtain ⟨key, rfl⟩ := hnamed k hk
    rfl
  refine ⟨?_, ?_, SortedMap.pairwise_keys _, fun key => mem_strangerNames⟩
  · rw [checkKeys_eq, if_neg (by simpa using hne), if_neg (by omega)]
  · obtain ⟨k, hk⟩ := List.exists_mem_of_ne_nil _ hne
    obtain ⟨key, rfl⟩ := hnamed k hk
    exact List.ne_nil_of_mem (mem_strangerNames.mpr (textValue_mem_strangers.mp hk))

/-- A key that is no text cannot be listed. -/
lemma checkKeys_of_no_text (h : ¬TextKeys pairs) : checkKeys pairs = .error (.inr .badType) := by
  obtain ⟨pair, hpair, hno⟩ : ∃ pair ∈ pairs, ∀ key, pair.1 ≠ textValue key := by
    simpa [TextKeys] using h
  have hnone : text? pair.1 = none := by
    cases htext : text? pair.1 with
    | none => rfl
    | some s => exact absurd (text?_eq_some_iff.mp htext) (hno s)
  have hstranger : pair.1 ∈ strangers pairs := by
    refine mem_strangers.mpr ⟨⟨pair.2, hpair⟩, ?_⟩
    rw [isKnown, hnone]
    rfl
  have hlength : ((strangers pairs).filterMap text?).length < (strangers pairs).length := by
    rw [List.length_filterMap_eq_countP]
    apply Nat.lt_of_le_of_ne List.countP_le_length
    intro hall
    have hsome := List.countP_eq_length.mp hall _ hstranger
    rw [hnone] at hsome
    cases hsome
  rw [checkKeys_eq, if_neg, if_pos hlength]
  rw [List.isEmpty_iff]
  exact List.ne_nil_of_mem hstranger

/-! ## Values -/

/-- A value means a name of manifests: a text with something other than white space in it, of which
the name is all but the white space at its ends. -/
def MeansName (v : Value) (name : Text) : Prop :=
  ∃ t, v = textValue t ∧ (∃ a ∈ t.letters, Text.isBlankLetter a = false) ∧ Text.Trims t name

/-- A value means a list of directories: the texts in it, and there is nothing else in it. -/
def MeansDirs (v : Value) (dirs : List Text) : Prop :=
  v = .list (dirs.map textValue)

/-- A value means a severity: a text that is its name in upper case. -/
def MeansLevel (v : Value) (level : Severity) : Prop :=
  ∃ t, v = textValue t ∧ Text.upper t = level.name

/-- A reader of what is held for a key, if anything is: it comes to the standard value if not, to
what the value means if it means something, and to a flaw otherwise. -/
structure Reads (read : Option Value → Except (Flaw ⊕ Slip) α) (Means : Value → α → Prop)
    (standard : α) (flaw : Flaw) : Prop where
  absent : read none = .ok standard
  meant : ∀ v a, Means v a → read (some v) = .ok a
  refused : ∀ v, (∀ a, ¬Means v a) → read (some v) = .error (.inl flaw)

/-- A text is refused as the name of manifests if it is all white space; otherwise it is taken
without the white space at its ends. -/
lemma readManifestName_text (t : Text) :
    readManifestName (some (textValue t)) =
      if t.letters.all Text.isBlankLetter then .error (.inl .manifestName) else .ok t.stripped :=
  rfl

/-- Letters are not all white space if and only if one of them is none. -/
lemma not_all_isBlankLetter_iff {letters : List Letter} :
    ¬letters.all Text.isBlankLetter = true ↔ ∃ a ∈ letters, Text.isBlankLetter a = false := by
  simp

/-- The reader of the name of manifests takes what means a name, stands in with the standard one,
and refuses all else. -/
lemma reads_manifestName :
    Reads readManifestName MeansName ({} : Settings).manifestName .manifestName where
  absent := rfl
  meant v name h := by
    obtain ⟨t, rfl, hletter, htrims⟩ := h
    rw [readManifestName_text, if_neg (not_all_isBlankLetter_iff.mpr hletter), htrims.stripped_eq]
  refused v h := by
    cases htext : text? v with
    | none => simp only [readManifestName, htext]
    | some t =>
      obtain rfl := text?_eq_some_iff.mp htext
      rw [readManifestName_text, if_pos]
      by_contra hblank
      exact h t.stripped ⟨t, rfl, not_all_isBlankLetter_iff.mp hblank, Text.trims_stripped t⟩

/-- Items are all texts if and only if they are the values of some texts, in that order. -/
lemma mapM_text?_eq_some_iff {items : List Value} {names : List Text} :
    items.mapM text? = some names ↔ items = names.map textValue := by
  induction items generalizing names with
  | nil => cases names <;> simp
  | cons v items ih =>
    rw [List.mapM_cons]
    simp only [bind, Option.bind_eq_some_iff, pure, Option.some.injEq, ih, text?_eq_some_iff]
    constructor
    · rintro ⟨s, rfl, names, rfl, rfl⟩
      rfl
    · intro h
      cases names with
      | nil => cases h
      | cons s names =>
        obtain ⟨rfl, rfl⟩ := List.cons.inj h
        exact ⟨s, rfl, names, rfl, rfl⟩

/-- A list is taken for excluded directories if and only if all its items are texts. -/
lemma readExcludedDirs_list (items : List Value) :
    readExcludedDirs (some (.list items)) =
      match items.mapM text? with
      | some names => .ok names
      | none => .error (.inl .excludedDirs) :=
  rfl

/-- The reader of excluded directories takes what means a list of names, stands in with the standard
ones, and refuses all else. -/
lemma reads_excludedDirs :
    Reads readExcludedDirs MeansDirs ({} : Settings).excludedDirs .excludedDirs where
  absent := rfl
  meant v dirs h := by
    subst h
    rw [readExcludedDirs_list, mapM_text?_eq_some_iff.mpr rfl]
  refused v h := by
    cases v with
    | list items =>
      rw [readExcludedDirs_list]
      cases hnames : items.mapM text? with
      | none => rfl
      | some names =>
        rw [mapM_text?_eq_some_iff.mp hnames] at h
        exact absurd rfl (h names)
    | _ => rfl

/-- A severity is found for its own name and for no other text. -/
lemma ofName?_eq_some_iff {level : Severity} :
    Severity.ofName? name = some level ↔ name = level.name := by
  constructor
  · intro h
    have hfound := List.find?_some h
    simpa using (of_decide_eq_true hfound).symm
  · rintro rfl
    cases level <;> rfl

/-- A text is taken for a severity in capital letters, however it is written. -/
lemma readLogLevel_text (t : Text) :
    readLogLevel (some (textValue t)) =
      match Severity.ofName? t.upper with
      | some level => .ok level
      | none => .error (.inl .logLevel) :=
  rfl

/-- The reader of the severity takes what means one, stands in with the standard one, and refuses
all else. -/
lemma reads_logLevel : Reads readLogLevel MeansLevel ({} : Settings).logLevel .logLevel where
  absent := rfl
  meant v level h := by
    obtain ⟨s, rfl, hname⟩ := h
    rw [readLogLevel_text, ofName?_eq_some_iff.mpr hname]
  refused v h := by
    cases htext : text? v with
    | none => simp only [readLogLevel, htext, Option.bind_none]
    | some s =>
      obtain rfl := text?_eq_some_iff.mp htext
      rw [readLogLevel_text]
      cases hlevel : Severity.ofName? s.upper with
      | none => rfl
      | some level => exact absurd ⟨s, rfl, ofName?_eq_some_iff.mp hlevel⟩ (h level)

/-! ## Keys with their values -/

/-- What the pairs say under a key: the standard value if they lack it, and otherwise what the value
they hold means. -/
def Says (pairs : List (Value × Value)) (key : Text) (Means : Value → α → Prop) (standard a : α) :
    Prop :=
  (Lacks pairs key ∧ a = standard) ∨ ∃ v, Holds pairs key v ∧ Means v a

/-- The value that the pairs hold for a key means nothing. -/
def Misuses (pairs : List (Value × Value)) (key : Text) (Means : Value → α → Prop) : Prop :=
  ∃ v, Holds pairs key v ∧ ∀ a, ¬Means v a

/-- The pairs say something under a key, or they misuse it. -/
lemma says_or_misuses (pairs : List (Value × Value)) (key : String) (Means : Value → α → Prop)
    (standard : α) : (∃ a, Says pairs key Means standard a) ∨ Misuses pairs key Means := by
  cases hfield : field? key pairs with
  | none => exact .inl ⟨standard, .inl ⟨field?_eq_none_iff.mp hfield, rfl⟩⟩
  | some v =>
    have hholds := field?_eq_some_iff.mp hfield
    rcases Classical.em (∃ a, Means v a) with ⟨a, ha⟩ | hno
    · exact .inl ⟨a, .inr ⟨v, hholds, ha⟩⟩
    · refine .inr ⟨v, hholds, ?_⟩
      intro a ha
      exact hno ⟨a, ha⟩

section Reads

variable {read : Option Value → Except (Flaw ⊕ Slip) α} {key : String}

/-- What a reader takes is what the pairs say under its key, the standard value included if they say
nothing. -/
lemma Reads.of_says (h : Reads read Means standard flaw) (hsaid : Says pairs key Means standard a) :
    read (field? key pairs) = .ok a := by
  rcases hsaid with ⟨hlacks, rfl⟩ | ⟨v, hholds, hmeans⟩
  · rw [field?_eq_none_iff.mpr hlacks]
    exact h.absent
  · rw [field?_eq_some_iff.mpr hholds]
    exact h.meant v a hmeans

/-- A key that is misused is refused with the flaw of its reader. -/
lemma Reads.of_misuses (h : Reads read Means standard flaw) (hmisuses : Misuses pairs key Means) :
    read (field? key pairs) = .error (.inl flaw) := by
  obtain ⟨v, hholds, hno⟩ := hmisuses
  rw [field?_eq_some_iff.mpr hholds]
  exact h.refused v hno

end Reads

/-! ## Documents -/

/-- A document describes settings. An empty one describes the standard settings; a mapping with
known keys only says under each of them what the settings are. -/
inductive Describes : Value → Settings → Prop
  | nothing : Describes (.plain .null) {}
  | mapping {pairs : List (Value × Value)} {settings : Settings} (known : KnownOnly pairs)
      (manifestName : Says pairs "manifest_name" MeansName "Cargo.toml" settings.manifestName)
      (excludedDirs : Says pairs "exclude_dirs" MeansDirs ["target", ".git"]
        settings.excludedDirs)
      (logLevel : Says pairs "log_level" MeansLevel .info settings.logLevel) :
      Describes (.mapping pairs) settings

/-- The first flaw of a document: what comes before it is in order. -/
inductive FirstFlaw : Value → Flaw → Prop
  | notMapping {v : Value} (something : v ≠ .plain .null) (other : ∀ pairs, v ≠ .mapping pairs) :
      FirstFlaw v .notMapping
  | unknownKeys {pairs : List (Value × Value)} {keys : List Text}
      (unknown : UnknownKeys pairs keys) : FirstFlaw (.mapping pairs) (.unknownKeys keys)
  | manifestName {pairs : List (Value × Value)} (known : KnownOnly pairs)
      (misuses : Misuses pairs "manifest_name" MeansName) :
      FirstFlaw (.mapping pairs) .manifestName
  | excludedDirs {pairs : List (Value × Value)} {name : Text} (known : KnownOnly pairs)
      (manifestName : Says pairs "manifest_name" MeansName "Cargo.toml" name)
      (misuses : Misuses pairs "exclude_dirs" MeansDirs) :
      FirstFlaw (.mapping pairs) .excludedDirs
  | logLevel {pairs : List (Value × Value)} {name : Text} {dirs : List Text}
      (known : KnownOnly pairs)
      (manifestName : Says pairs "manifest_name" MeansName "Cargo.toml" name)
      (excludedDirs : Says pairs "exclude_dirs" MeansDirs ["target", ".git"] dirs)
      (misuses : Misuses pairs "log_level" MeansLevel) :
      FirstFlaw (.mapping pairs) .logLevel

/-- Pairs with known keys only are read key by key, in the order of the settings. -/
lemma ofPairs_of_known (h : KnownOnly pairs) :
    ofPairs pairs = (do
      let manifestName ← readManifestName (field? "manifest_name" pairs)
      let excludedDirs ← readExcludedDirs (field? "exclude_dirs" pairs)
      let logLevel ← readLogLevel (field? "log_level" pairs)
      .ok ⟨manifestName, excludedDirs, logLevel⟩) := by
  rw [ofPairs, checkKeys_of_known h]
  rfl

/-- The settings that a document describes are those it asks for. -/
lemma ofValue_of_describes (h : Describes v settings) : ofValue v = .ok settings := by
  cases h with
  | nothing => rfl
  | mapping known hname hdirs hlevel =>
    rw [ofValue, ofPairs_of_known known, reads_manifestName.of_says hname,
      reads_excludedDirs.of_says hdirs, reads_logLevel.of_says hlevel]
    rfl

/-- The first flaw of a document whose keys are texts is reported. -/
lemma ofValue_of_firstFlaw (htexts : ∀ pairs, v = .mapping pairs → TextKeys pairs)
    (h : FirstFlaw v flaw) : ofValue v = .error (.inl flaw) := by
  cases h with
  | notMapping something other =>
    cases v with
    | mapping pairs => exact absurd rfl (other pairs)
    | plain p =>
      cases p with
      | null => exact absurd rfl something
      | _ => rfl
    | _ => rfl
  | unknownKeys unknown =>
    obtain ⟨hcheck, hkeys⟩ := checkKeys_of_unknown (htexts _ rfl) unknown.not_knownOnly
    rw [ofValue, ofPairs, hcheck, hkeys.unique unknown]
    rfl
  | manifestName known misuses =>
    rw [ofValue, ofPairs_of_known known, reads_manifestName.of_misuses misuses]
    rfl
  | excludedDirs known hname misuses =>
    rw [ofValue, ofPairs_of_known known, reads_manifestName.of_says hname,
      reads_excludedDirs.of_misuses misuses]
    rfl
  | logLevel known hname hdirs misuses =>
    rw [ofValue, ofPairs_of_known known, reads_manifestName.of_says hname,
      reads_excludedDirs.of_says hdirs, reads_logLevel.of_misuses misuses]
    rfl

/-- A document whose keys are texts describes settings or has a first flaw. -/
lemma describes_or_firstFlaw (htexts : ∀ pairs, v = .mapping pairs → TextKeys pairs) :
    (∃ settings, Describes v settings) ∨ ∃ flaw, FirstFlaw v flaw := by
  cases v with
  | mapping pairs =>
    rcases Classical.em (KnownOnly pairs) with known | unknown
    · obtain ⟨name, hname⟩ | misuses :=
        says_or_misuses pairs "manifest_name" MeansName "Cargo.toml"
      · obtain ⟨dirs, hdirs⟩ | misuses :=
          says_or_misuses pairs "exclude_dirs" MeansDirs ["target", ".git"]
        · obtain ⟨level, hlevel⟩ | misuses :=
            says_or_misuses pairs "log_level" MeansLevel .info
          · exact .inl ⟨⟨name, dirs, level⟩, .mapping known hname hdirs hlevel⟩
          · exact .inr ⟨_, .logLevel known hname hdirs misuses⟩
        · exact .inr ⟨_, .excludedDirs known hname misuses⟩
      · exact .inr ⟨_, .manifestName known misuses⟩
    · exact .inr ⟨_, .unknownKeys (checkKeys_of_unknown (htexts pairs rfl) unknown).2⟩
  | plain p =>
    cases p with
    | null => exact .inl ⟨_, .nothing⟩
    | _ => exact .inr ⟨_, .notMapping (by simp) (by simp)⟩
  | _ => exact .inr ⟨_, .notMapping (by simp) (by simp)⟩

/-! ## Writing settings -/

/-- The document that settings are written as. -/
def document (settings : Settings) : Value :=
  .mapping [(textValue "manifest_name", textValue settings.manifestName),
    (textValue "exclude_dirs", .list (settings.excludedDirs.map textValue)),
    (textValue "log_level", textValue settings.logLevel.name)]

/-- The name of the manifests has something other than white space in it, and no white space at its
ends. -/
def Tidy (settings : Settings) : Prop :=
  MeansName (textValue settings.manifestName) settings.manifestName

/-- What a name means is a name that means itself. -/
lemma MeansName.again (h : MeansName v name) : MeansName (textValue name) name := by
  obtain ⟨t, -, ⟨a, ha, hletter⟩, htrims⟩ := h
  exact ⟨name, rfl, ⟨a, htrims.mem_of_not_blank ha hletter, hletter⟩, htrims.again⟩

/-- The standard name of manifests means itself, as it has no white space at its ends. -/
lemma meansName_standard : MeansName (textValue "Cargo.toml") "Cargo.toml" :=
  ⟨"Cargo.toml", rfl, ⟨'C', by decide, by decide⟩, Text.trims_iff.mpr (by decide +kernel)⟩

/-- The settings that a document describes are tidy. -/
lemma Describes.tidy (h : Describes v settings) : Tidy settings := by
  cases h with
  | nothing => exact meansName_standard
  | mapping known hname hdirs hlevel =>
    rcases hname with ⟨-, hstandard⟩ | ⟨w, -, hmeans⟩
    · rw [Tidy, hstandard]
      exact meansName_standard
    · exact hmeans.again

/-- **The document of tidy settings describes them.** -/
theorem describes_document (h : Tidy settings) : Describes settings.document settings := by
  refine .mapping ?_ (.inr ⟨_, ⟨[], _, rfl, by simp [textValue]⟩, h⟩)
    (.inr ⟨_, ⟨[_], _, rfl, by simp [textValue]⟩, rfl⟩)
    (.inr ⟨_, ⟨[_, _], _, rfl, by simp⟩, settings.logLevel.name, rfl, ?_⟩)
  · simp [KnownOnly, knownKeys]
  · cases settings.logLevel <;> rfl

/-! ## Keys without a value -/

/-- What the pairs hold for a key is in one of them. -/
lemma Holds.mem (h : Holds pairs key v) : (textValue key, v) ∈ pairs := by
  obtain ⟨before, after, rfl, -⟩ := h
  simp

/-- The pairs hold one value for a key at most, that of the last pair with it. -/
lemma Holds.unique {key : String} (h : Holds pairs key v) (h' : Holds pairs key w) : v = w :=
  Option.some.inj ((field?_eq_some_iff.mpr h).symm.trans (field?_eq_some_iff.mpr h'))

/-- What is said under a key that is held is what its value means. -/
lemma Says.means {key : String} (h : Says pairs key Means standard a) (hholds : Holds pairs key v) :
    Means v a := by
  rcases h with ⟨hlacks, -⟩ | ⟨w, hholds', hmeans⟩
  · exact absurd rfl (hlacks _ hholds.mem)
  · obtain rfl := hholds.unique hholds'
    exact hmeans

/-- A key that is held without a value is a mistake, not a mention. -/
lemma not_describes_of_null (hholds : Holds pairs key (.plain .null)) :
    ¬Describes (.mapping pairs) settings := by
  intro h
  cases h with
  | mapping known hname hdirs hlevel =>
    obtain ⟨key', hkey', heq⟩ := known _ hholds.mem
    cases heq
    simp only [knownKeys, List.mem_cons, List.not_mem_nil, or_false] at hkey'
    rcases hkey' with rfl | rfl | rfl
    · obtain ⟨s, hs, -⟩ := hname.means hholds
      cases hs
    · cases hdirs.means hholds
    · obtain ⟨s, hs, -⟩ := hlevel.means hholds
      cases hs

/-! ## Files -/

section Files

variable {reader : Yaml.Reader} {disk : Files.Disk} {file : Path} {bytes : ByteArray}

/-- The settings of a file that a reader can read are those of the document it reads. -/
lemma ofReading_of_ok (h : ofValue v = .ok settings) (file : Path) :
    ofReading file (.ok v) = .ok settings := by
  simp only [ofReading, h]

/-- The flaw of a file that a reader can read is that of the document it reads. -/
lemma ofReading_of_flaw (h : ofValue v = .error (.inl flaw)) (file : Path) :
    ofReading file (.ok v) = .error (.settings (.flawed file flaw)) := by
  simp only [ofReading, h]

/-- **The settings of a file are those that its document describes**, if the reader makes a
document of it whose keys are texts. Otherwise the first flaw is reported. A key without a value is
a mistake, and the settings are written as a document that describes them again. -/
theorem load_document (hfile : disk.isFile file = .ok true)
    (hbytes : disk.readBytes file = .ok bytes)
    (hvalue : reader bytes = .ok v) (htexts : ∀ pairs, v = .mapping pairs → TextKeys pairs) :
    (∀ settings, load reader disk (some file) = .ok settings ↔ Describes v settings) ∧
    (∀ fault, load reader disk (some file) = .error fault ↔
      ∃ flaw, fault = .settings (.flawed file flaw) ∧ FirstFlaw v flaw) ∧
    (∀ settings, Describes v settings → ofValue settings.document = .ok settings) ∧
    ∀ pairs key, v = .mapping pairs → Holds pairs key (.plain .null) →
      ∃ flaw, load reader disk (some file) = .error (.settings (.flawed file flaw)) := by
  have hload : load reader disk (some file) = ofReading file (reader bytes) :=
    load_of_readBytes hfile hbytes
  have hdescribes (settings : Settings) (h : Describes v settings) :
      load reader disk (some file) = .ok settings := by
    rw [hload, hvalue]
    exact ofReading_of_ok (ofValue_of_describes h) file
  have hflaw (flaw : Flaw) (h : FirstFlaw v flaw) :
      load reader disk (some file) = .error (.settings (.flawed file flaw)) := by
    rw [hload, hvalue]
    exact ofReading_of_flaw (ofValue_of_firstFlaw htexts h) file
  refine ⟨?_, ?_, ?_, ?_⟩
  · intro settings
    refine ⟨?_, hdescribes settings⟩
    intro hok
    rcases describes_or_firstFlaw htexts with ⟨others, h⟩ | ⟨flaw, h⟩
    · obtain rfl := Except.ok.inj ((hdescribes others h).symm.trans hok)
      exact h
    · cases (hflaw flaw h).symm.trans hok
  · intro fault
    constructor
    · intro herror
      rcases describes_or_firstFlaw htexts with ⟨settings, h⟩ | ⟨flaw, h⟩
      · cases (hdescribes settings h).symm.trans herror
      · exact ⟨flaw, Except.error.inj (herror.symm.trans (hflaw flaw h)), h⟩
    · rintro ⟨flaw, rfl, h⟩
      exact hflaw flaw h
  · intro settings h
    exact ofValue_of_describes (describes_document h.tidy)
  · rintro pairs key rfl hholds
    rcases describes_or_firstFlaw htexts with ⟨settings, h⟩ | ⟨flaw, h⟩
    · exact absurd h (not_describes_of_null hholds)
    · exact ⟨flaw, hflaw flaw h⟩

/-- The text of a settings file, in which a key occurs twice. -/
def fussyText : String :=
  "log_level:\nmanifest_name: ' Cargo.toml '\nexclude_dirs: [a, b]\nlog_level: Debug\n"

/-- A disk with that settings file. -/
def fussyDisk : Files.Disk where
  root := .folder [("gate.yaml", .file fussyText.toUTF8)]
  standing := []

/-- A settings file with one key twice, the first time without a value: the last pair counts, and
the settings are those that the document then describes. -/
theorem load_fussyDisk :
    let file : Path := ⟨["gate.yaml"]⟩
    let v := Value.mapping [
      (textValue "log_level", .plain .null),
      (textValue "manifest_name", textValue " Cargo.toml "),
      (textValue "exclude_dirs", .list [textValue "a", textValue "b"]),
      (textValue "log_level", textValue "Debug")]
    let settings : Settings := ⟨"Cargo.toml", ["a", "b"], .debug⟩
    fussyDisk.isFile file = .ok true ∧
      fussyDisk.readBytes file = .ok fussyText.toUTF8 ∧
      Yaml.read fussyText.toUTF8 = .ok v ∧
      (∀ pairs, v = .mapping pairs → TextKeys pairs) ∧
      Describes v settings ∧ ofValue settings.document = .ok settings := by
  intro file v settings
  have hfile : fussyDisk.isFile file = .ok true := by decide +kernel
  have hbytes : fussyDisk.readBytes file = .ok fussyText.toUTF8 := rfl
  have hvalue : Yaml.read fussyText.toUTF8 = .ok v := by
    decide +kernel
  have htexts : ∀ pairs, v = .mapping pairs → TextKeys pairs := by
    rintro pairs hv
    obtain rfl := Value.mapping.inj hv
    simp [TextKeys, textValue]
  have hok : load Yaml.read fussyDisk (some file) = .ok settings := by decide +kernel
  obtain ⟨hload, -, hagain, -⟩ := load_document hfile hbytes hvalue htexts
  have hdescribes := (hload settings).mp hok
  exact ⟨hfile, hbytes, hvalue, htexts, hdescribes, hagain settings hdescribes⟩

end Files

end CrateGate.Settings
