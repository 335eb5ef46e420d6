import CrateGate.Proofs.Text.LineEnds
import CrateGate.Proofs.Toml.Text
import CrateGate.Toml.Document

/-!
# Documents as they are written

A value is written on one line (`Writes`), a field by its key and its value, a table by its header
and its fields, each on a line of its own, and a document by its tables with empty lines between
them. What is read from a document that is written so is what was written (`parse_document`), if no
table has two fields of one key and no two tables have one header.

Reading goes line by line. `Passes` says what one piece of a document does to what is read before
it, so pieces are put together by `Passes.append`.
-/

namespace CrateGate.Toml

variable {c : Char} {cs cs' rest value : List Char} {fuel cost deep : Nat} {key header : String}
  {d : Datum} {entries inner : Entries} {draft other : Draft} {st st' st'' : State}

/-! ## Entries -/

namespace Entries

/-- A key gets its place behind the entries of other keys. -/
lemma set_append (h : entries.lookup key = none) (draft : Draft) (after : Entries) :
    set key draft (entries ++ after) = entries ++ set key draft after := by
  induction entries with
  | nil => rfl
  | cons entry entries ih =>
    obtain ⟨k, first⟩ := entry
    rw [List.lookup_cons] at h
    by_cases hk : k = key
    · simp [hk] at h
    · have hne : (key == k) = false := beq_false_of_ne (Ne.symm hk)
      rw [hne] at h
      rw [List.cons_append, set, if_neg hk, ih h, List.cons_append]

/-- What has no place yet is put at the end. -/
lemma set_of_absent (h : entries.lookup key = none) :
    set key draft entries = entries ++ [(key, draft)] := by
  have hset := set_append h draft []
  rwa [List.append_nil] at hset

/-- What is at the end keeps its place. -/
lemma set_concat (h : entries.lookup key = none) :
    set key draft (entries ++ [(key, other)]) = entries ++ [(key, draft)] := by
  rw [set_append h, set, if_pos rfl]

/-- An entry that is added at the end is found by its key, if no entry before it had that key. -/
lemma lookup_concat (h : entries.lookup key = none) :
    (entries ++ [(key, draft)]).lookup key = some draft := by
  rw [List.lookup_append, h, Option.none_or]
  simp

/-- A value whose key is not there yet is put at the end of the entries; nothing before it
changes. -/
lemma put_of_absent (n : Nat) (d : Datum) (h : entries.lookup key = none) :
    put n d [key] entries = .ok (entries ++ [(key, .value d)]) := by
  rw [put, h, ← set_of_absent h]

/-- A header that is new opens an empty table at the end. -/
lemma openTable_of_absent (h : entries.lookup key = none) :
    openTable [key] entries = .ok (entries ++ [(key, .table .header [])]) := by
  have hopen : openTable [key] entries = openLast key entries := rfl
  rw [hopen, openLast, h, ← set_of_absent h]

/-- What is assigned under the last header is put into its table. -/
lemma assign_of_absent (n : Nat) (d : Datum) (h : entries.lookup header = none)
    (hinner : inner.lookup key = none) :
    assign n [header] [key] d (entries ++ [(header, .table .header inner)]) =
      .ok (entries ++ [(header, .table .header (inner ++ [(key, .value d)]))]) := by
  rw [assign, below, lookup_concat h]
  simp only [below, put_of_absent n d hinner, bind, Except.bind, set_concat h]

end Entries

/-! ## Values -/

/-- A text on one line writes a value: wherever values may lie so deep in others, and whatever
follows, this value is read from the text, and nothing more than the text is read. -/
structure Writes (cost : Nat) (cs : List Char) (d : Datum) : Prop where
  noReturn : '\r' ∉ cs
  starts : ∀ rest, skipSpaces (cs ++ rest) = cs ++ rest
  reads : ∀ fuel deep rest, cs.length ≤ fuel → cost ≤ deep →
    readValue (fuel + 1) deep (cs ++ rest) = .ok (d, rest)

/-- What starts as a text is a text. -/
lemma readValue_of_readText? {reading : Except Problem (List Char × List Char)}
    (h : readText? cs = some reading) :
    readValue (fuel + 1) deep cs = reading.map fun p => (.text (String.ofList p.1), p.2) := by
  unfold readValue
  rw [h]

/-- A text in quotes is read as that text, and what stands behind the quotes is left to be read. -/
lemma writes_quoted {s : String} (h : Quotable s) : Writes cost (quoted s) (.text s) where
  noReturn := by
    simp only [quoted, List.mem_append, List.mem_cons, not_or]
    refine ⟨⟨by decide, fun hmem => ?_⟩, by decide, List.not_mem_nil⟩
    exact absurd (h.chars _ hmem).control (by decide)
  starts rest := rfl
  reads fuel deep rest _ _ := by
    rw [readValue_of_readText? (readText?_quoted h)]
    simp only [Except.map, String.ofList_toList]

/-- The word for the flag that is off is read as that flag, if no letter of a bare word follows. -/
lemma writes_false : Writes cost "false".toList (.atom (.flag false)) where
  noReturn := by decide
  starts rest := rfl
  reads fuel deep rest _ _ := rfl

/-! ## Fields -/

/-- A key and a value, as a document writes them. -/
structure Field where
  /-- The key. -/
  key : String
  /-- The value as it is written. -/
  text : List Char
  /-- The value. -/
  value : Datum

namespace Field

variable {f : Field} {fields written : List Field}

/-- The field as it is written. -/
def chars (f : Field) : List Char :=
  f.key.toList ++ ' ' :: '=' :: ' ' :: f.text

/-- What the field says. -/
def pair (f : Field) : String × Datum :=
  (f.key, f.value)

/-- The entry that the field makes in its table. -/
def entry (f : Field) : String × Draft :=
  (f.key, .value f.value)

/-- The key needs no quotes, and the text writes the value. -/
structure Valid (cost : Nat) (f : Field) : Prop where
  key : BareKey f.key
  text : Writes cost f.text f.value

/-- A field starts with its key, so a blank before it is skipped and nothing of the field. -/
lemma Valid.starts (h : f.Valid cost) (rest : List Char) :
    skipSpaces (' ' :: f.chars ++ rest) = f.chars ++ rest := by
  rw [chars, List.cons_append, List.append_assoc]
  exact h.key.skipSpaces_append _

/-- There is no carriage return in a field, neither in its key nor in the text of its value. -/
lemma Valid.noReturn (h : f.Valid cost) : '\r' ∉ f.chars := by
  simp only [chars, List.mem_append, List.mem_cons, not_or]
  exact ⟨h.key.notMem (by decide), by decide, by decide, by decide, h.text.noReturn⟩

/-- The key of a field is read up to the equals sign, and the value is left with the blank before
it. -/
lemma Valid.readKey_chars (h : f.Valid cost) (rest : List Char) :
    readKey (f.chars ++ rest) = .ok ([f.key], '=' :: ' ' :: (f.text ++ rest)) := by
  rw [chars, List.append_assoc]
  exact readKey_bare h.key (by decide) nofun

/-- The text of a value does not start with a blank, so only the one before it is skipped. -/
lemma Valid.skipSpaces_text (h : f.Valid cost) (rest : List Char) :
    skipSpaces (' ' :: (f.text ++ rest)) = f.text ++ rest :=
  h.text.starts rest

/-- A field whose value is a text. -/
def ofText (key s : String) : Field :=
  ⟨key, quoted s, .text s⟩

/-- A field of a bare key and a text that can be quoted is valid, whatever depth is left. -/
lemma valid_ofText {s : String} (hkey : BareKey key) (hs : Quotable s) :
    (ofText key s).Valid cost :=
  ⟨hkey, writes_quoted hs⟩

end Field

section InlineTables

open Toml.Field

variable {f : Field} {fields written : List Field}

/-- The fields of an inline table, as they are written. -/
def fieldList (fields : List Field) : List Char :=
  Text.joinWith [','] (fields.map fun f => ' ' :: f.chars)

/-- An inline table as it is written. -/
def inlineTable (fields : List Field) : List Char :=
  '\x7b' :: fieldList fields ++ [' ', '\x7d']

/-- One field is read and put to those before it. -/
lemma readFields_chars (hf : f.Valid cost) (habsent : entries.lookup f.key = none)
    (hfuel : f.chars.length ≤ fuel) (hdeep : cost ≤ deep) (rest : List Char) :
    readFields (fuel + 1) deep entries (f.chars ++ rest) =
      match skipSpaces rest with
      | '}' :: rest => .ok (entries ++ [f.entry], rest)
      | ',' :: rest => readFields fuel deep (entries ++ [f.entry]) (skipSpaces rest)
      | _ => .error .malformed := by
  have hlength : f.text.length + 1 ≤ fuel := by
    simp only [chars, List.length_append, List.length_cons] at hfuel
    omega
  obtain ⟨fuel, rfl⟩ := Nat.exists_eq_succ_of_ne_zero (Nat.ne_zero_of_lt hlength)
  have hread := hf.text.reads fuel deep rest (Nat.le_of_succ_le_succ hlength) hdeep
  rw [readFields, hf.readKey_chars]
  simp only [bind, Except.bind, hf.skipSpaces_text, hread, Entries.put_of_absent 0 f.value habsent]
  rfl

/-- Fields of other keys leave a key without an entry. -/
lemma lookup_map_entry (h : ∀ g ∈ written, g.key ≠ key) :
    (written.map entry).lookup key = none := by
  rw [List.lookup_eq_none_iff]
  intro p hp
  obtain ⟨g, hg, rfl⟩ := List.mem_map.mp hp
  exact bne_iff_ne.mpr (Ne.symm (h g hg))

/-- The first field starts with a character of its key. -/
lemma skipSpaces_fieldList_ne (rest : List Char) (hfields : ∀ f ∈ fields, f.Valid cost)
    (hne : fields ≠ []) (after : List Char) :
    skipSpaces (fieldList fields ++ rest) ≠ '\x7d' :: after := by
  obtain ⟨f, fields, rfl⟩ := List.exists_cons_of_ne_nil hne
  have hf : f.Valid cost := hfields f List.mem_cons_self
  obtain ⟨tail, htail⟩ : ∃ tail, fieldList (f :: fields) = ' ' :: f.chars ++ tail := by
    cases fields with
    | nil => exact ⟨[], (List.append_nil _).symm⟩
    | cons g fields => exact ⟨_, Text.joinWith_cons_cons _ _ _⟩
  obtain ⟨c, cs, hcs, hc⟩ := hf.key.exists_cons
  rw [htail, List.append_assoc, hf.starts, chars, hcs]
  intro heq
  rw [(List.cons.inj heq).1] at hc
  exact absurd hc (by decide)

/-- **The fields of an inline table are read**, and put to those before them. -/
lemma readFields_fieldList (written : List Field) (fuel : Nat) (rest : List Char)
    (hfields : ∀ f ∈ fields, f.Valid cost) (hne : fields ≠ [])
    (hkeys : ((written ++ fields).map Field.key).Nodup)
    (hfuel : (fieldList fields).length ≤ fuel) (hdeep : cost ≤ deep) :
    readFields (fuel + 1) deep (written.map entry)
        (skipSpaces (fieldList fields ++ ' ' :: '\x7d' :: rest)) =
      .ok ((written ++ fields).map entry, rest) := by
  induction fields generalizing written fuel with
  | nil => exact absurd rfl hne
  | cons f fields ih =>
    obtain ⟨hf, hfields⟩ := List.forall_mem_cons.mp hfields
    have habsent : (written.map entry).lookup f.key = none := by
      rw [List.map_append, List.nodup_append] at hkeys
      exact lookup_map_entry fun g hg => hkeys.2.2 g.key (List.mem_map_of_mem hg) f.key
        (List.mem_map_of_mem List.mem_cons_self)
    have hentries : written.map entry ++ [f.entry] = (written ++ [f]).map entry := by simp
    cases fields with
    | nil =>
      have hlist : fieldList [f] = ' ' :: f.chars := rfl
      rw [hlist, List.length_cons] at hfuel
      rw [hlist, hf.starts, readFields_chars hf habsent (by omega) hdeep, hentries]
      rfl
    | cons g fields =>
      have hlist : fieldList (f :: g :: fields) =
          ' ' :: f.chars ++ ',' :: fieldList (g :: fields) := Text.joinWith_cons_cons _ _ _
      rw [hlist, List.length_append, List.length_cons, List.length_cons] at hfuel
      obtain ⟨fuel, rfl⟩ : ∃ n, fuel = n + 1 := ⟨fuel - 1, by omega⟩
      have hrest := ih (written ++ [f]) fuel hfields (List.cons_ne_nil _ _)
        (by simpa using hkeys) (by omega)
      rw [hlist, List.append_assoc, hf.starts, readFields_chars hf habsent (by omega) hdeep,
        hentries]
      rw [List.append_assoc, List.singleton_append] at hrest
      exact hrest

/-- The fields that entries of values come to. -/
lemma toFields_map_entry (fields : List Field) :
    Draft.toFields (fields.map entry) = fields.map pair := by
  induction fields with
  | nil => rfl
  | cons f fields ih => rw [List.map_cons, List.map_cons, ← ih]; rfl

/-- Behind an opening brace, what is not the closing one starts the fields of an inline table. -/
lemma readValue_brace (h : ∀ after, skipSpaces cs ≠ '\x7d' :: after) :
    readValue (fuel + 1) deep ('\x7b' :: cs) =
      (descend 3 deep).bind fun deep => (readFields fuel deep [] (skipSpaces cs)).bind fun p =>
        .ok (.record (Draft.toFields p.1), p.2) := by
  have htext : readText? ('\x7b' :: cs) = none := rfl
  rw [readValue, htext]
  simp only [bind, Except.bind]

/-- **An inline table writes the record of its fields.** -/
lemma writes_inlineTable (hfields : ∀ f ∈ fields, f.Valid cost) (hne : fields ≠ [])
    (hkeys : (fields.map Field.key).Nodup) :
    Writes (cost + 3) (inlineTable fields) (.record (fields.map pair)) where
  noReturn := by
    simp only [inlineTable, List.mem_append, List.mem_cons, not_or]
    refine ⟨⟨by decide, fun hmem => ?_⟩, by decide, by decide, List.not_mem_nil⟩
    rcases Text.mem_joinWith hmem with h | ⟨part, hpart, h⟩
    · exact absurd h (by decide)
    · obtain ⟨f, hf, rfl⟩ := List.mem_map.mp hpart
      rcases List.mem_cons.mp h with h | h
      · exact absurd h (by decide)
      · exact (hfields f hf).noReturn h
  starts rest := rfl
  reads fuel deep rest hfuel hdeep := by
    rw [inlineTable, List.length_append, List.length_cons] at hfuel
    obtain ⟨fuel, rfl⟩ : ∃ n, fuel = n + 1 := ⟨fuel - 1, by omega⟩
    have hdescend : descend 3 deep = .ok (deep - 3) := if_neg (by omega)
    have hdeep' : cost ≤ deep - 3 := by omega
    have hread := readFields_fieldList [] fuel rest hfields hne hkeys (by omega) hdeep'
    have hstart := skipSpaces_fieldList_ne (' ' :: '\x7d' :: rest) hfields hne
    rw [List.nil_append, List.map_nil] at hread
    rw [inlineTable, List.append_assoc, List.cons_append, List.cons_append, List.cons_append,
      List.nil_append, readValue_brace hstart, hdescend]
    simp only [Except.bind, hread, toFields_map_entry]

end InlineTables

/-! ## Lines -/

/-- Reading passes over a piece of a document: behind the piece it goes on from another state, with
fuel for all that follows. -/
def Passes (st : State) (cs : List Char) (st' : State) : Prop :=
  ∀ fuel rest, (cs ++ rest).length < fuel →
    ∃ fuel', rest.length < fuel' ∧ readLines fuel st (cs ++ rest) = readLines fuel' st' rest

namespace Passes

/-- Nothing to read leaves the document as it is. -/
lemma nil (st : State) : Passes st [] st :=
  fun fuel _ hfuel => ⟨fuel, hfuel, rfl⟩

/-- What is read of two pieces one after the other leads from where the first began to where the
second ends. -/
lemma append (h : Passes st cs st') (h' : Passes st' cs' st'') : Passes st (cs ++ cs') st'' := by
  intro fuel rest hfuel
  rw [List.append_assoc] at hfuel ⊢
  obtain ⟨fuel₁, hfuel₁, hread₁⟩ := h fuel (cs' ++ rest) hfuel
  obtain ⟨fuel₂, hfuel₂, hread₂⟩ := h' fuel₁ rest hfuel₁
  exact ⟨fuel₂, hfuel₂, hread₁.trans hread₂⟩

/-- What is passed over to the end of a document is the document. -/
lemma parse_eq_ok {s : String} (h : Passes ⟨[], [], 0⟩ s.toList st) (hreturn : '\r' ∉ s.toList) :
    parse s = .ok (Draft.toFields st.entries) := by
  obtain ⟨fuel, hfuel, hread⟩ := h (s.toList.length + 1) [] (by simp)
  obtain ⟨fuel, rfl⟩ := Nat.exists_eq_succ_of_ne_zero (Nat.ne_zero_of_lt hfuel)
  rw [List.append_nil] at hread
  rw [parse, joined, String.toList_ofList, Text.joinLineEnds_of_notMem hreturn, hread]
  rfl

/-- An empty line changes nothing. -/
lemma emptyLine (st : State) : Passes st ['\n'] st := by
  intro fuel rest hfuel
  obtain ⟨fuel, rfl⟩ := Nat.exists_eq_succ_of_ne_zero (Nat.ne_zero_of_lt hfuel)
  exact ⟨fuel, Nat.lt_of_succ_lt_succ hfuel, rfl⟩

end Passes

/-- A statement on a line of its own is passed over. -/
lemma passes_statement (hspace : isSpace c = false) (hfeed : c ≠ '\n') (hcomment : c ≠ '#')
    (hread : ∀ rest, readStatement st (c :: cs ++ '\n' :: rest) = .ok (st', '\n' :: rest)) :
    Passes st (c :: cs ++ ['\n']) st' := by
  intro fuel rest hfuel
  obtain ⟨fuel, rfl⟩ := Nat.exists_eq_succ_of_ne_zero (Nat.ne_zero_of_lt hfuel)
  have hskip : skipSpaces (c :: cs ++ '\n' :: rest) = c :: (cs ++ '\n' :: rest) :=
    List.dropWhile_cons_of_neg (by rw [hspace]; exact Bool.false_ne_true)
  refine ⟨fuel, ?_, ?_⟩
  · simp only [List.length_append, List.length_cons, List.length_nil] at hfuel
    omega
  · have hread' : readStatement st (c :: (cs ++ '\n' :: rest)) = .ok (st', '\n' :: rest) :=
      hread rest
    rw [List.append_assoc, List.singleton_append, readLines, hskip]
    simp only [if_neg hfeed, if_neg hcomment, hread']
    rfl

/-! ## Tables -/

/-- A header and the fields under it, as a document writes them. -/
structure Table where
  /-- The header. -/
  header : String
  /-- The fields in their order. -/
  fields : List Field

namespace Table

variable {t : Table} {tables written : List Table} {f : Field} {fields : List Field} {n : Nat}

/-- The table as it is written, with every line ended. -/
def chars (t : Table) : List Char :=
  '[' :: t.header.toList ++ [']', '\n'] ++ t.fields.flatMap fun f => f.chars ++ ['\n']

/-- What the table says. -/
def pair (t : Table) : String × Datum :=
  (t.header, .record (t.fields.map Field.pair))

/-- The entry that the table makes in the document. -/
def entry (t : Table) : String × Draft :=
  (t.header, .table .header (t.fields.map Field.entry))

/-- Header and keys need no quotes, no two fields have one key, and every text writes its value. -/
structure Valid (t : Table) : Prop where
  header : BareKey t.header
  fields : ∀ f ∈ t.fields, f.Valid depthLimit
  keys : (t.fields.map Field.key).Nodup

/-- The line of a header opens its table. -/
lemma passes_header (hkey : BareKey header) (habsent : st.entries.lookup header = none) :
    Passes st ('[' :: header.toList ++ [']', '\n'])
      ⟨st.entries ++ [(header, .table .header [])], [header], st.sections + 1⟩ := by
  have hline : '[' :: header.toList ++ [']', '\n'] = '[' :: (header.toList ++ [']']) ++ ['\n'] := by
    simp
  rw [hline]
  refine passes_statement rfl (by decide) (by decide) fun rest => ?_
  obtain ⟨c, cs, hcs, hc⟩ := hkey.exists_cons
  have hread : readKey (skipSpaces (header.toList ++ ']' :: '\n' :: rest)) =
      .ok ([header], ']' :: '\n' :: rest) := by
    rw [hkey.skipSpaces_append]
    exact readKey_bare hkey (by decide) nofun
  rw [List.cons_append, List.append_assoc, List.singleton_append]
  unfold readStatement
  split
  · next heq =>
    rw [hcs] at heq
    exact absurd (List.cons.inj (List.cons.inj heq).2).1 (ne_of_isKeyChar hc (by decide))
  · next heq =>
    rw [← (List.cons.inj heq).2, hread]
    simp only [bind, Except.bind, Entries.openTable_of_absent habsent]
  · next hnone => exact absurd rfl (hnone _)

/-- The line of a field puts it into the last table. -/
lemma passes_field (hf : f.Valid depthLimit) (habsent : entries.lookup header = none)
    (hinner : inner.lookup f.key = none) :
    Passes ⟨entries ++ [(header, .table .header inner)], [header], n⟩ (f.chars ++ ['\n'])
      ⟨entries ++ [(header, .table .header (inner ++ [f.entry]))], [header], n⟩ := by
  obtain ⟨c, cs, hcs, hc⟩ := hf.key.exists_cons
  have hchars : f.chars = c :: (cs ++ ' ' :: '=' :: ' ' :: f.text) := by
    rw [Field.chars, hcs, List.cons_append]
  have hbracket : c ≠ '[' := ne_of_isKeyChar hc (by decide)
  rw [hchars]
  refine passes_statement (isSpace_of_isKeyChar hc) (ne_of_isKeyChar hc (by decide))
    (ne_of_isKeyChar hc (by decide)) fun rest => ?_
  have hread := hf.text.reads (f.text ++ '\n' :: rest).length depthLimit ('\n' :: rest)
    (by simp) (Nat.le_refl _)
  rw [← hchars]
  unfold readStatement
  split
  · next heq =>
    rw [hchars] at heq
    exact absurd (List.cons.inj heq).1 hbracket
  · next heq =>
    rw [hchars] at heq
    exact absurd (List.cons.inj heq).1 hbracket
  · rw [hf.readKey_chars]
    simp only [bind, Except.bind, hf.skipSpaces_text, hread,
      Entries.assign_of_absent n f.value habsent hinner]
    rfl

/-- The lines of fields put them into the last table. -/
lemma passes_fields (before : List Field) (hfields : ∀ f ∈ fields, f.Valid depthLimit)
    (hkeys : ((before ++ fields).map Field.key).Nodup) (habsent : entries.lookup header = none) :
    Passes ⟨entries ++ [(header, .table .header (before.map Field.entry))], [header], n⟩
      (fields.flatMap fun f => f.chars ++ ['\n'])
      ⟨entries ++ [(header, .table .header ((before ++ fields).map Field.entry))], [header],
        n⟩ := by
  induction fields generalizing before with
  | nil =>
    rw [List.append_nil]
    exact .nil _
  | cons f fields ih =>
    obtain ⟨hf, hfields⟩ := List.forall_mem_cons.mp hfields
    have hinner : (before.map Field.entry).lookup f.key = none := by
      rw [List.map_append, List.nodup_append] at hkeys
      exact lookup_map_entry fun g hg => hkeys.2.2 g.key (List.mem_map_of_mem hg) f.key
        (List.mem_map_of_mem List.mem_cons_self)
    have hentries : before.map Field.entry ++ [f.entry] = (before ++ [f]).map Field.entry := by
      simp
    have hline := passes_field (n := n) hf habsent hinner
    rw [hentries] at hline
    have hrest := ih (before ++ [f]) hfields (by simpa using hkeys)
    rw [List.append_assoc, List.singleton_append] at hrest
    rw [List.flatMap_cons]
    exact hline.append hrest

/-- A table is read into the document. -/
lemma Valid.passes (ht : t.Valid) (habsent : st.entries.lookup t.header = none) :
    Passes st t.chars ⟨st.entries ++ [t.entry], [t.header], st.sections + 1⟩ :=
  (passes_header ht.header habsent).append
    (passes_fields [] ht.fields ht.keys habsent)

/-- There is no carriage return in a table, neither in its heading nor in its fields. -/
lemma Valid.noReturn (h : t.Valid) : '\r' ∉ t.chars := by
  simp only [chars, List.mem_append, List.mem_cons, not_or, List.mem_flatMap, not_exists, not_and]
  refine ⟨⟨⟨by decide, h.header.notMem (by decide)⟩, by decide, by decide, List.not_mem_nil⟩,
    fun f hf => ⟨(h.fields f hf).noReturn, by decide, List.not_mem_nil⟩⟩

end Table

/-! ## Documents -/

section Documents

open Toml.Table

variable {tables written : List Table}

/-- A document as it is written: its tables, with empty lines between them. -/
def document (tables : List Table) : List Char :=
  Text.joinWith ['\n'] (tables.map Table.chars)

/-- **The tables of a document are read**, and put behind those before them. -/
lemma passes_document (written : List Table) (st : State) (hvalid : ∀ t ∈ tables, t.Valid)
    (hheaders : ((written ++ tables).map Table.header).Nodup)
    (hentries : st.entries = written.map Table.entry) :
    ∃ st', Passes st (document tables) st' ∧
      st'.entries = (written ++ tables).map Table.entry := by
  induction tables generalizing written st with
  | nil => exact ⟨st, .nil st, by rw [List.append_nil, hentries]⟩
  | cons t tables ih =>
    obtain ⟨ht, hvalid⟩ := List.forall_mem_cons.mp hvalid
    have habsent : st.entries.lookup t.header = none := by
      rw [hentries, List.lookup_eq_none_iff]
      intro p hp
      obtain ⟨u, hu, rfl⟩ := List.mem_map.mp hp
      rw [List.map_append, List.nodup_append] at hheaders
      exact bne_iff_ne.mpr (hheaders.2.2 u.header (List.mem_map_of_mem hu) t.header
        (List.mem_map_of_mem List.mem_cons_self)).symm
    have hpasses := ht.passes habsent
    have hnext : st.entries ++ [t.entry] = (written ++ [t]).map Table.entry := by
      rw [hentries]
      simp
    cases tables with
    | nil => exact ⟨_, hpasses, hnext⟩
    | cons u tables =>
      obtain ⟨st', hrest, hentries'⟩ := ih (written ++ [t])
        ⟨st.entries ++ [t.entry], [t.header], st.sections + 1⟩ hvalid (by simpa using hheaders)
        hnext
      have hdocument : document (t :: u :: tables) =
          t.chars ++ (['\n'] ++ document (u :: tables)) := Text.joinWith_cons_cons _ _ _
      rw [hdocument]
      refine ⟨st', hpasses.append ((Passes.emptyLine _).append hrest), ?_⟩
      rw [hentries', List.append_assoc, List.singleton_append]

/-- The tables of a document become its fields, each as a record under its name and in the order of
the tables. -/
lemma toFields_map_tableEntry (tables : List Table) :
    Draft.toFields (tables.map Table.entry) = tables.map Table.pair := by
  induction tables with
  | nil => rfl
  | cons t tables ih =>
    rw [List.map_cons, List.map_cons, ← ih, pair, ← toFields_map_entry]
    rfl

/-- **What is read from a document is what was written in it**: its tables in their order, each with
its fields in their order. -/
theorem parse_document {s : String} (hs : s.toList = document tables)
    (hvalid : ∀ t ∈ tables, t.Valid) (hheaders : (tables.map Table.header).Nodup) :
    parse s = .ok (tables.map Table.pair) := by
  obtain ⟨st, hpasses, hentries⟩ := passes_document [] ⟨[], [], 0⟩ hvalid hheaders rfl
  have hreturn : '\r' ∉ s.toList := by
    rw [hs]
    intro hmem
    rcases Text.mem_joinWith hmem with h | ⟨part, hpart, h⟩
    · exact absurd h (by decide)
    · obtain ⟨t, ht, rfl⟩ := List.mem_map.mp hpart
      exact (hvalid t ht).noReturn h
  rw [← hs] at hpasses
  rw [hpasses.parse_eq_ok hreturn, hentries, List.nil_append, toFields_map_tableEntry]

end Documents

end CrateGate.Toml
