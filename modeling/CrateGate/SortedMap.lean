/-!
# Sorted maps

A finite map as the list of its entries, in increasing order of the keys. The order is part of the
type, so two maps that hold the same entries are equal.

* `get?_insert`: after an insertion, its key holds the new value and every other key what it held.
* `mem_toList_iff`: the entries are exactly what `get?` finds.
* `ext_get?`: maps with the same look-ups are equal.
* `get?_filter`, `get?_map`, `get?_ofList`: what the other operations do to the look-ups.
-/

set_option linter.unusedSectionVars false

namespace CrateGate

/-- A finite map. -/
structure SortedMap (κ : Type) (α : Type) [LT κ] where
  /-- The entries by increasing key. -/
  toList : List (κ × α)
  /-- No two entries have one key, and they stand in order. -/
  ordered : toList.Pairwise (fun a b => a.1 < b.1)

namespace SortedMap

variable {κ α β : Type} [LE κ] [LT κ] [DecidableLT κ] [Std.IsLinearOrder κ] [Std.LawfulOrderLT κ]

/-- The value that the entries of an ordered list hold for a key. -/
def lookup (k : κ) : List (κ × α) → Option α
  | [] => none
  | (a, x) :: rest => if k < a then none else if a < k then lookup k rest else some x

/-- An ordered list of entries with `k` set to `x`. -/
def insertEntry (k : κ) (x : α) : List (κ × α) → List (κ × α)
  | [] => [(k, x)]
  | (a, y) :: rest =>
    if k < a then (k, x) :: (a, y) :: rest
    else if a < k then (a, y) :: insertEntry k x rest
    else (k, x) :: rest

/-- Inserting brings in the new entry and no other: whatever is in the list afterwards is that
entry, or was in it before. -/
theorem mem_insertEntry {k : κ} {x : α} {entries : List (κ × α)} {e : κ × α}
    (h : e ∈ insertEntry k x entries) : e = (k, x) ∨ e ∈ entries := by
  induction entries with
  | nil => simpa [insertEntry] using h
  | cons head rest ih =>
    obtain ⟨a, y⟩ := head
    simp only [insertEntry] at h
    split at h
    · simpa using h
    · split at h
      · rcases List.mem_cons.1 h with h | h
        · exact .inr (by simp [h])
        · exact (ih h).imp id (List.mem_cons_of_mem _)
      · rcases List.mem_cons.1 h with h | h
        · exact .inl h
        · exact .inr (List.mem_cons_of_mem _ h)

/-- Keys are comparable, so of two of which neither is before the other there is one only. -/
theorem eq_of_not_lt {a b : κ} (h : ¬a < b) (h' : ¬b < a) : a = b :=
  Std.le_antisymm (Std.not_lt.1 h') (Std.not_lt.1 h)

/-- An insertion keeps entries in strictly increasing order of their keys; this is what makes a map
of the result again. -/
theorem pairwise_insertEntry (k : κ) (x : α) {entries : List (κ × α)}
    (h : entries.Pairwise (fun a b => a.1 < b.1)) :
    (insertEntry k x entries).Pairwise (fun a b => a.1 < b.1) := by
  induction entries with
  | nil => simp [insertEntry]
  | cons head rest ih =>
    obtain ⟨a, y⟩ := head
    obtain ⟨hall, hrest⟩ := List.pairwise_cons.1 h
    simp only [insertEntry]
    split
    · next hk =>
      refine List.pairwise_cons.2 ⟨fun e he => ?_, h⟩
      rcases List.mem_cons.1 he with rfl | he
      · exact hk
      · exact Std.lt_trans hk (hall e he)
    · next hk =>
      split
      · next ha =>
        refine List.pairwise_cons.2 ⟨fun e he => ?_, ih hrest⟩
        rcases mem_insertEntry he with rfl | he
        · exact ha
        · exact hall e he
      · next ha =>
        obtain rfl := eq_of_not_lt hk ha
        exact List.pairwise_cons.2 ⟨hall, hrest⟩

/-- The map without entries. -/
def empty : SortedMap κ α :=
  ⟨[], List.Pairwise.nil⟩

instance : EmptyCollection (SortedMap κ α) :=
  ⟨empty⟩

/-- What the map holds for a key. -/
def get? (m : SortedMap κ α) (k : κ) : Option α :=
  lookup k m.toList

/-- The map with `k` set to `x`. -/
def insert (m : SortedMap κ α) (k : κ) (x : α) : SortedMap κ α :=
  ⟨insertEntry k x m.toList, pairwise_insertEntry k x m.ordered⟩

/-- The keys, in order. -/
def keys (m : SortedMap κ α) : List κ :=
  m.toList.map (·.1)

/-- The values, in the order of their keys. -/
def values (m : SortedMap κ α) : List α :=
  m.toList.map (·.2)

/-- How many entries there are. -/
def size (m : SortedMap κ α) : Nat :=
  m.toList.length

/-- The entries set one after another: of two with one key the later stays. -/
def ofList (entries : List (κ × α)) : SortedMap κ α :=
  entries.foldl (fun m e => m.insert e.1 e.2) empty

/-- The entries whose value passes a test. -/
def filter (p : κ → α → Bool) (m : SortedMap κ α) : SortedMap κ α :=
  ⟨m.toList.filter fun e => p e.1 e.2, m.ordered.sublist List.filter_sublist⟩

/-- Every value replaced by its image. -/
def map (f : α → β) (m : SortedMap κ α) : SortedMap κ β :=
  ⟨m.toList.map fun e => (e.1, f e.2), List.pairwise_map.2 m.ordered⟩

/-- The empty map has no entries, so what is folded or searched over them ends at once. -/
@[simp] theorem toList_empty : (empty : SortedMap κ α).toList = [] := rfl

/-- Nothing is found in the empty map, whatever the key. -/
@[simp] theorem get?_empty (k : κ) : (empty : SortedMap κ α).get? k = none := rfl

/-- Where the keys increase strictly, looking a key up finds just the entry that is in the list with
it. -/
theorem lookup_eq_some_iff {k : κ} {x : α} {entries : List (κ × α)}
    (h : entries.Pairwise (fun a b => a.1 < b.1)) :
    lookup k entries = some x ↔ (k, x) ∈ entries := by
  induction entries with
  | nil => simp [lookup]
  | cons head rest ih =>
    obtain ⟨a, y⟩ := head
    obtain ⟨hall, hrest⟩ := List.pairwise_cons.1 h
    simp only [lookup, List.mem_cons, Prod.mk.injEq]
    split
    · next hk =>
      refine ⟨by simp, ?_⟩
      rintro (⟨rfl, rfl⟩ | he)
      · exact absurd hk Std.lt_irrefl
      · exact absurd (Std.lt_trans hk (hall _ he)) Std.lt_irrefl
    · next hk =>
      split
      · next ha =>
        rw [ih hrest]
        refine ⟨.inr, ?_⟩
        rintro (⟨rfl, rfl⟩ | he)
        · exact absurd ha Std.lt_irrefl
        · exact he
      · next ha =>
        obtain rfl := eq_of_not_lt hk ha
        refine ⟨fun he => .inl ⟨rfl, (Option.some.inj he).symm⟩, ?_⟩
        rintro (⟨_, rfl⟩ | he)
        · rfl
        · exact absurd (hall _ he) Std.lt_irrefl

/-- The entries of a map are exactly its look-ups. -/
theorem mem_toList_iff {m : SortedMap κ α} {k : κ} {x : α} :
    (k, x) ∈ m.toList ↔ m.get? k = some x :=
  (lookup_eq_some_iff m.ordered).symm

/-- After an insertion the new key has the new value, and every other key has the value that it
had. -/
theorem lookup_insertEntry (k : κ) (x : α) (entries : List (κ × α)) (q : κ) :
    lookup q (insertEntry k x entries) =
      if q < k then lookup q entries else if k < q then lookup q entries else some x := by
  induction entries with
  | nil => simp [insertEntry, lookup]
  | cons head rest ih =>
    obtain ⟨a, y⟩ := head
    simp only [insertEntry]
    by_cases hka : k < a
    · simp only [hka, if_true, lookup]
      by_cases hqk : q < k
      · simp [hqk, Std.lt_trans hqk hka]
      · by_cases hkq : k < q <;> simp [hqk, hkq]
    · by_cases hak : a < k
      · simp only [hka, if_false, hak, if_true, lookup, ih]
        by_cases hqa : q < a
        · simp [hqa, Std.lt_trans hqa hak]
        · by_cases haq : a < q
          · simp [hqa, haq]
          · obtain rfl := eq_of_not_lt hqa haq
            simp [Std.lt_irrefl, hak]
      · obtain rfl := eq_of_not_lt hka hak
        simp only [Std.lt_irrefl, if_false, lookup]
        by_cases hqa : q < k
        · simp [hqa]
        · by_cases haq : k < q <;> simp [hqa, haq]

/-- An insertion changes what its own key holds, and nothing else. -/
theorem get?_insert [DecidableEq κ] (m : SortedMap κ α) (k q : κ) (x : α) :
    (m.insert k x).get? q = if q = k then some x else m.get? q := by
  simp only [get?, insert, lookup_insertEntry]
  by_cases h : q = k
  · subst h
    simp [Std.lt_irrefl]
  · by_cases hqk : q < k
    · simp [h, hqk]
    · by_cases hkq : k < q
      · simp [h, hqk, hkq]
      · exact absurd (eq_of_not_lt hqk hkq) h

/-- Entries in strictly increasing order of their keys are determined by which of them there are. -/
theorem eq_of_mem_iff {entries others : List (κ × α)}
    (h : entries.Pairwise (fun a b => a.1 < b.1)) (h' : others.Pairwise (fun a b => a.1 < b.1))
    (same : ∀ e, e ∈ entries ↔ e ∈ others) : entries = others := by
  induction entries generalizing others with
  | nil =>
    cases others with
    | nil => rfl
    | cons e _ => exact absurd ((same e).2 (by simp)) (by simp)
  | cons a rest ih =>
    cases others with
    | nil => exact absurd ((same a).1 (by simp)) (by simp)
    | cons b others =>
      obtain ⟨hall, hrest⟩ := List.pairwise_cons.1 h
      obtain ⟨hall', hrest'⟩ := List.pairwise_cons.1 h'
      have hab : a = b := by
        rcases List.mem_cons.1 ((same a).1 (by simp)) with hab | hab
        · exact hab
        · rcases List.mem_cons.1 ((same b).2 (by simp)) with hba | hba
          · exact hba.symm
          · exact absurd (Std.lt_trans (hall _ hba) (hall' _ hab)) Std.lt_irrefl
      subst hab
      refine congrArg _ (ih hrest hrest' fun e => ⟨fun he => ?_, fun he => ?_⟩)
      · rcases List.mem_cons.1 ((same e).1 (List.mem_cons_of_mem _ he)) with rfl | he'
        · exact absurd (hall _ he) Std.lt_irrefl
        · exact he'
      · rcases List.mem_cons.1 ((same e).2 (List.mem_cons_of_mem _ he)) with rfl | he'
        · exact absurd (hall' _ he) Std.lt_irrefl
        · exact he'

/-- Maps with the same look-ups are equal. -/
theorem ext_get? {m n : SortedMap κ α} (h : ∀ k, m.get? k = n.get? k) : m = n := by
  have hl : m.toList = n.toList :=
    eq_of_mem_iff m.ordered n.ordered fun ⟨k, x⟩ => by rw [mem_toList_iff, mem_toList_iff, h]
  cases m
  cases n
  simpa using hl

/-- The keys of a map come in strictly increasing order, so none of them comes twice. -/
theorem pairwise_keys (m : SortedMap κ α) : m.keys.Pairwise (· < ·) :=
  List.pairwise_map.2 m.ordered

/-- The keys are those for which a map holds something. -/
theorem mem_keys_iff {m : SortedMap κ α} {k : κ} : k ∈ m.keys ↔ ∃ x, m.get? k = some x := by
  constructor
  · intro h
    obtain ⟨⟨a, x⟩, he, rfl⟩ := List.mem_map.1 h
    exact ⟨x, mem_toList_iff.1 he⟩
  · rintro ⟨x, h⟩
    exact List.mem_map.2 ⟨(k, x), mem_toList_iff.2 h, rfl⟩

/-- There are as many keys as entries, since every entry has a key of its own. -/
theorem length_keys (m : SortedMap κ α) : m.keys.length = m.size :=
  List.length_map _

/-- A filter keeps what a map holds for a key if it passes the test. -/
theorem get?_filter (p : κ → α → Bool) (m : SortedMap κ α) (k : κ) :
    (m.filter p).get? k = (m.get? k).filter (p k) := by
  refine Option.ext fun x => ?_
  rw [← mem_toList_iff, Option.filter_eq_some_iff, ← mem_toList_iff]
  exact List.mem_filter

/-- The values of a map can be changed before they are looked up or afterwards. -/
theorem get?_map (f : α → β) (m : SortedMap κ α) (k : κ) :
    (m.map f).get? k = (m.get? k).map f := by
  refine Option.ext fun y => ?_
  rw [← mem_toList_iff, Option.map_eq_some_iff]
  simp only [map, List.mem_map, Prod.mk.injEq]
  constructor
  · rintro ⟨⟨a, x⟩, he, rfl, rfl⟩
    exact ⟨x, mem_toList_iff.1 he, rfl⟩
  · rintro ⟨x, hx, rfl⟩
    exact ⟨(k, x), mem_toList_iff.2 hx, rfl, rfl⟩

/-- When entries are inserted one after another, the last one of a key wins; a key that none of them
has keeps what it had. -/
theorem get?_foldl_insert [DecidableEq κ] (entries : List (κ × α)) (m : SortedMap κ α) (k : κ) :
    (entries.foldl (fun m e => m.insert e.1 e.2) m).get? k =
      ((entries.reverse.find? fun e => e.1 = k).map (·.2)).or (m.get? k) := by
  induction entries generalizing m with
  | nil => simp
  | cons e rest ih =>
    rw [List.foldl_cons, ih, get?_insert, List.reverse_cons, List.find?_append]
    cases rest.reverse.find? fun e => e.1 = k with
    | some f => simp
    | none =>
      by_cases h : e.1 = k
      · simp [h]
      · simp [h, Ne.symm h]

/-- Of entries set one after another a map holds the last one of a key. -/
theorem get?_ofList [DecidableEq κ] (entries : List (κ × α)) (k : κ) :
    (ofList entries).get? k = (entries.reverse.find? fun e => e.1 = k).map (·.2) := by
  rw [ofList, get?_foldl_insert, get?_empty, Option.or_none]

end SortedMap

end CrateGate
