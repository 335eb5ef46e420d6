import CrateGate.Proofs.Graph.Cycle

/-!
# Neither the rounds nor the walk lose their way

At the start of every round the crates still to be placed are those of the list that no round has
placed, and each waits for exactly those of them that it needs. So a round places a crate, or every
crate waits for another one that is left too; then the walk that looks for a circle finds a crate to
go on to at each of its steps, and comes back to one before it has used up the crates.

The walk that the layering takes (`circle`) passes over what it does not find. Here it is told once
more (`trace`): every look-up is something that can fail, so is running out of steps, and the crates
that have come up are kept apart from the path.

* `circle_eq_of_trace`: a walk that does not fail is the one that the layering takes.
* `Walker.exists_run_eq_ok`: among crates that all wait no look-up fails, and the walk takes no more
  steps than there are crates left.
* `RoundStart`, `Standstill`: what holds at the start of a round, and where no crate is ready.
-/

namespace CrateGate

namespace Graph

variable {packages : List Package} {w rest : Waiting} {placed : List (List String)}
  {s : Walker} {names others walk : List String} {a first next : String} {m n steps : Nat}

/-! ## The walk with its look-ups -/

/-- What a walk can fail to find. -/
inductive Astray
  /-- There is no crate to begin with. -/
  | noStart
  /-- The crate that it has come to is not left to be placed. -/
  | notLeft (name : String)
  /-- The crate that it has come to waits for nothing. -/
  | waitsForNothing (name : String)
  /-- The crate that has come up again is not on the path. -/
  | offPath (name : String)
  /-- The steps that it may take are used up. -/
  | unended
deriving DecidableEq, Repr

/-- A walk under way. -/
structure Walker where
  /-- The crates that it has come through, in order. -/
  path : List String
  /-- The crates that have come up, in any order. -/
  seen : List String
  /-- The crate that it has come to. -/
  current : String
deriving DecidableEq, Repr

namespace Walker

/-- A walk that begins at a crate. -/
def start (first : String) : Walker :=
  ⟨[first], [first], first⟩

/-- The walk goes on to a crate that has not come up. -/
def goTo (s : Walker) (next : String) : Walker :=
  ⟨s.path ++ [next], next :: s.seen, next⟩

/-- One step goes on to the least crate that the current one waits for. If that has come up before,
the walk is over, and what it has found is its path from the first place of that crate on. -/
def step (w : Waiting) (s : Walker) : Except Astray (Walker ⊕ List String) :=
  match w.get? s.current with
  | none => .error (.notLeft s.current)
  | some names =>
    match least? names with
    | none => .error (.waitsForNothing s.current)
    | some next =>
      if s.seen.contains next then
        match (s.path ++ [next]).idxOf? next with
        | none => .error (.offPath next)
        | some i => .ok (.inr ((s.path ++ [next]).drop i))
      else .ok (.inl (s.goTo next))

/-- What a walk finds in a number of steps. -/
def run (w : Waiting) : Nat → Walker → Except Astray (List String)
  | 0, _ => .error .unended
  | steps + 1, s =>
    match s.step w with
    | .error astray => .error astray
    | .ok (.inl further) => run w steps further
    | .ok (.inr walk) => .ok walk

end Walker

/-- What the walk from the least crate left finds in a number of steps. -/
def trace (w : Waiting) (steps : Nat) : Except Astray (List String) :=
  match least? w.keys with
  | none => .error .noStart
  | some first => (Walker.start first).run w steps

namespace Walker

/-- The crates that have come up are those on the path. -/
def Remembers (s : Walker) : Prop :=
  ∀ a, a ∈ s.seen ↔ a ∈ s.path

/-- At its first crate a walk has seen just that one, and it is all of the path. -/
lemma remembers_start (first : String) : (start first).Remembers := by
  simp [Remembers, start]

/-- A step enters the next crate both among those seen and on the path, so the two still agree. -/
lemma Remembers.goTo (h : s.Remembers) (next : String) : (s.goTo next).Remembers := by
  intro a
  simp [Walker.goTo, h a, or_comm]

/-- A crate put at the end of a path is found on it: the path from there on is what was after its
first place, or the crate alone. -/
lemma exists_idxOf?_concat (path : List String) (next : String) :
    ∃ i, (path ++ [next]).idxOf? next = some i ∧
      (path ++ [next]).drop i = path.dropWhile (· ≠ next) ++ [next] := by
  induction path with
  | nil => exact ⟨0, by simp [List.idxOf?_cons], rfl⟩
  | cons a path ih =>
    by_cases ha : a = next
    · exact ⟨0, by simp [List.idxOf?_cons, ha], by simp [ha]⟩
    · obtain ⟨i, hi, hdrop⟩ := ih
      exact ⟨i + 1, by simp [List.idxOf?_cons, ha, hi], by simpa [ha] using hdrop⟩

/-- Where there is a crate to go on to, a step does not fail. -/
lemma step_eq (h : s.Remembers) (hnext : (w.get? s.current).bind least? = some next) :
    s.step w =
      if next ∈ s.path then .ok (.inr (s.path.dropWhile (· ≠ next) ++ [next]))
      else .ok (.inl (s.goTo next)) := by
  obtain ⟨names, hget, hleast⟩ := Option.bind_eq_some_iff.mp hnext
  obtain ⟨i, hi, hdrop⟩ := exists_idxOf?_concat s.path next
  unfold step
  simp only [hget, hleast, List.contains_iff_mem, h next, hi, hdrop]

/-- A step that does not fail goes on to a crate. -/
lemma exists_next_of_step {result : Walker ⊕ List String} (h : s.step w = .ok result) :
    ∃ next, (w.get? s.current).bind least? = some next := by
  unfold step at h
  cases hget : w.get? s.current with
  | none => simp [hget] at h
  | some names =>
    cases hleast : least? names with
    | none => simp [hget, hleast] at h
    | some next => exact ⟨next, hleast⟩

/-- A walk that is over stays as it is, however many steps more it may take. -/
lemma run_of_le (hle : m ≤ n) (h : s.run w m = .ok walk) : s.run w n = .ok walk := by
  induction m generalizing s n with
  | zero => cases h
  | succ m ih =>
    obtain ⟨n, rfl⟩ : ∃ k, n = k + 1 := ⟨n - 1, by omega⟩
    unfold run at h ⊢
    cases hstep : s.step w with
    | error astray => simp [hstep] at h
    | ok result =>
      cases result with
      | inl further =>
        simp only [hstep] at h ⊢
        exact ih (Nat.le_of_succ_le_succ hle) h
      | inr found => simpa [hstep] using h

/-- A walk that does not fail is the one that passes over what it does not find. -/
lemma walkFrom_eq_of_run (hseen : s.Remembers) (h : s.run w steps = .ok walk) :
    walkFrom w steps s.path s.current = walk := by
  induction steps generalizing s with
  | zero => cases h
  | succ steps ih =>
    unfold run at h
    cases hstep : s.step w with
    | error astray => simp [hstep] at h
    | ok result =>
      obtain ⟨next, hnext⟩ := exists_next_of_step hstep
      -- Both walks go on to the same crate, and ask for it among the same crates.
      rw [step_eq hseen hnext] at h
      unfold walkFrom
      simp only [hnext, List.contains_iff_mem]
      by_cases hmet : next ∈ s.path
      · simp only [if_pos hmet] at h ⊢
        exact Except.ok.inj h
      · simp only [if_neg hmet] at h ⊢
        exact ih (hseen.goTo next) h

/-- **Among crates that all wait no look-up fails**, and the walk comes back to a crate before its
path is longer than there are crates left. -/
lemma exists_run_eq_ok (hclosed : w.Closed) (hready : w.ready = []) (hseen : s.Remembers)
    (htrail : Trail w first s.path s.current) (hsteps : w.size < s.path.length + steps) :
    ∃ walk, s.run w steps = .ok walk := by
  induction steps generalizing s with
  | zero =>
    -- A trail has no room for another crate.
    have hlength := htrail.length_le
    omega
  | succ steps ih =>
    obtain ⟨next, hnext, hwaits, hleft⟩ :=
      exists_next hclosed hready (htrail.left _ htrail.current_mem)
    unfold run
    rw [step_eq hseen hnext]
    by_cases hmet : next ∈ s.path
    · simp only [if_pos hmet]
      exact ⟨_, rfl⟩
    · simp only [if_neg hmet]
      refine ih (hseen.goTo next) (htrail.concat hwaits hleft hmet) ?_
      simp only [goTo, List.length_append, List.length_singleton]
      omega

end Walker

/-! ## The walk from the least crate -/

/-- A name that none of the others is before stays the least through all of them. -/
lemma foldl_least_eq (h : ∀ b ∈ names, ¬b < a) :
    names.foldl (fun low b => if b < low then b else low) a = a := by
  induction names with
  | nil => rfl
  | cons b names ih =>
    rw [List.foldl_cons, if_neg (h b List.mem_cons_self)]
    exact ih fun c hc => h c (List.mem_cons_of_mem b hc)

/-- Of names in order the first is the least. -/
lemma least?_cons (h : (a :: names).Pairwise (· < ·)) : least? (a :: names) = some a := by
  have hfirst := (List.pairwise_cons.mp h).1
  exact congrArg some (foldl_least_eq fun b hb => String.lt_asymm (hfirst b hb))

/-- The walk begins with the first of the crates left. -/
lemma trace_eq_run (hkeys : w.keys = first :: others) (steps : Nat) :
    trace w steps = (Walker.start first).run w steps := by
  have hleast : least? w.keys = some first := by
    rw [hkeys]
    exact least?_cons (hkeys ▸ w.pairwise_keys)
  unfold trace
  rw [hleast]

/-- **A walk that does not fail is the one that the layering takes.** -/
lemma circle_eq_of_trace (h : trace w w.size = .ok walk) : circle w = walk := by
  cases hkeys : w.keys with
  | nil =>
    unfold trace at h
    rw [hkeys] at h
    cases h
  | cons first others =>
    rw [trace_eq_run hkeys] at h
    unfold circle
    rw [hkeys]
    exact Walker.walkFrom_eq_of_run (Walker.remembers_start first) h

/-- Where crates are left and none is ready, the walk finds the circle that the layering reports,
and needs no more steps for it than there are crates left. -/
lemma trace_eq_circle (hclosed : w.Closed) (hready : w.ready = []) (hkeys : w.keys ≠ [])
    (hsteps : w.size ≤ steps) : trace w steps = .ok (circle w) := by
  obtain ⟨first, others, heq⟩ := List.exists_cons_of_ne_nil hkeys
  have hfirst : first ∈ w.keys := by simp [heq]
  have htrail : Trail w first (Walker.start first).path (Walker.start first).current :=
    Trail.single hfirst
  have hroom : w.size < (Walker.start first).path.length + w.size := by simp [Walker.start]
  obtain ⟨walk, hwalk⟩ := Walker.exists_run_eq_ok hclosed hready (Walker.remembers_start first)
    htrail hroom
  rw [circle_eq_of_trace ((trace_eq_run heq w.size).trans hwalk), trace_eq_run heq]
  exact Walker.run_of_le hsteps hwalk

/-! ## The start of a round -/

/-- A crate is ready if and only if it is entered and waits for nothing any more. -/
lemma Waiting.mem_ready_iff_get? : a ∈ w.ready ↔ w.get? a = some [] := by
  rw [Waiting.mem_ready, SortedMap.mem_keys_iff]
  constructor
  · rintro ⟨⟨names, hget⟩, hnone⟩
    obtain rfl : names = [] :=
      List.eq_nil_iff_forall_not_mem.mpr fun b hb => hnone b ⟨names, hget, hb⟩
    exact hget
  · intro hget
    refine ⟨⟨[], hget⟩, fun b hwaits => ?_⟩
    exact absurd ((Waiting.waitsFor_iff_mem hget).mp hwaits) List.not_mem_nil

/-- If a crate is ready there are crates still to be placed: it is one of them. -/
lemma Waiting.keys_ne_nil_of_ready (h : w.ready ≠ []) : w.keys ≠ [] := by
  obtain ⟨a, ha⟩ := List.exists_mem_of_ne_nil _ h
  exact List.ne_nil_of_mem (Waiting.mem_ready.mp ha).1

/-- A map is empty if and only if it has no keys, since every entry has one. -/
lemma isEmpty_toList_iff : w.toList.isEmpty ↔ w.keys = [] := by
  simp [SortedMap.keys]

/-- A round that finds something ready makes a layer of it. -/
lemma layersFrom_succ (hready : w.ready ≠ []) (rounds : Nat) :
    layersFrom (rounds + 1) w = (layersFrom rounds w.advance).map (w.ready :: ·) := by
  have hkeys := Waiting.keys_ne_nil_of_ready hready
  rw [layersFrom, if_neg (mt isEmpty_toList_iff.mp hkeys), if_neg (by simpa using hready)]

/-- A round that finds nothing ready among the crates left ends the layering. -/
lemma layersFrom_of_ready_eq_nil (hready : w.ready = []) (hkeys : w.keys ≠ []) (rounds : Nat) :
    layersFrom rounds w = .error w := by
  have hleft := mt isEmpty_toList_iff.mp hkeys
  cases rounds with
  | zero => rw [layersFrom, if_neg hleft]
  | succ rounds => rw [layersFrom, if_neg hleft, if_pos (by simp [hready])]

namespace Rounds

/-- The round that takes place next. -/
lemma concat (h : Rounds w placed rest) (hready : rest.ready ≠ []) :
    Rounds w (placed ++ [rest.ready]) rest.advance := by
  induction h with
  | none w => exact .round hready (.none _)
  | round hfirst _ ih => exact .round hfirst (ih hready)

/-- There are no more rounds than crates that they place. -/
lemma length_add_size_le (h : Rounds w placed rest) : placed.length + rest.size ≤ w.size := by
  induction h with
  | none w => simp
  | @round w rest layers hready _ ih =>
    have hsize := w.size_advance
    have hpos := List.length_pos_iff.mpr hready
    rw [List.length_cons]
    omega

/-- The layering goes on with what the rounds leave. -/
lemma layersFrom_add (h : Rounds w placed rest) (rounds : Nat) :
    layersFrom (placed.length + rounds) w = (layersFrom rounds rest).map (placed ++ ·) := by
  induction h with
  | none w =>
    rw [List.length_nil, Nat.zero_add]
    cases layersFrom rounds w <;> rfl
  | round hready _ ih =>
    rw [List.length_cons, Nat.add_right_comm, layersFrom_succ hready, ih]
    cases layersFrom rounds _ <;> rfl

end Rounds

/-- What holds at the start of a round of the layering of a list, once some layers are placed. -/
structure RoundStart (packages : List Package) (placed : List (List String)) (w : Waiting) :
    Prop where
  /-- The layering goes on from here, with rounds enough for the crates left. -/
  continues : ∃ rounds, w.size ≤ rounds ∧
    layersFrom (Waiting.start packages).size (Waiting.start packages) =
      (layersFrom rounds w).map (placed ++ ·)
  /-- Left to be placed are the crates of the list that are not placed yet. -/
  left : ∀ a, a ∈ w.keys ↔ Listed packages a ∧ a ∉ placed.flatten
  /-- Each waits for those crates of the list that it needs and that are not placed yet. -/
  waits : ∀ a names, w.get? a = some names →
    ∀ b, b ∈ names ↔ Needs packages a b ∧ b ∉ placed.flatten
  /-- So it waits for crates only that are left themselves. -/
  closed : ∀ a names, w.get? a = some names → names ⊆ w.keys
  /-- Ready are the crates left that wait for nothing. -/
  ready : ∀ a, a ∈ w.ready ↔ w.get? a = some []
  /-- If a crate is ready, the round takes exactly those that are out of the crates left, and so
  leaves fewer for the next round. -/
  progress : w.ready ≠ [] →
    Rounds (Waiting.start packages) (placed ++ [w.ready]) w.advance ∧
      (∀ a, a ∈ w.advance.keys ↔ a ∈ w.keys ∧ a ∉ w.ready) ∧ w.advance.size < w.size

/-- What holds where crates of a list are left and none is ready. -/
structure Standstill (packages : List Package) (w : Waiting) : Prop where
  /-- Every crate left waits for something. -/
  waiting : ∀ a names, w.get? a = some names → names ≠ []
  /-- No look-up of the walk fails, and it is over after as many steps as there are crates left, or
  before. -/
  traced : ∀ steps, w.size ≤ steps → trace w steps = .ok (circle w)
  /-- The walk ends with the crate that it begins with, meets no other twice, and goes from crate to
  crate along the needs of the list. -/
  isCircle : IsCircle (Needs packages) (circle w)
  /-- The walk and the crates left are what is reported. -/
  reported : Graph.layers packages = .error (.discovery (.cycle (circle w) w.keys))

namespace Rounds

/-- The rounds gone by and what is left say everything that holds at the start of a round: it is
read off the rounds, one field after another. -/
lemma roundStart (h : Rounds (Waiting.start packages) placed w) :
    RoundStart packages placed w := by
  have hclosed := h.closed (Waiting.closed_start packages)
  have hwaits {a b : String} :
      w.WaitsFor a b ↔ Needs packages a b ∧ a ∉ placed.flatten ∧ b ∉ placed.flatten := by
    rw [h.waitsFor_iff, waitsFor_start]
  constructor
  case continues =>
    have hsize := h.length_add_size_le
    refine ⟨(Waiting.start packages).size - placed.length, by omega, ?_⟩
    rw [← h.layersFrom_add, Nat.add_sub_cancel' (by omega)]
  case left =>
    intro a
    rw [h.mem_keys_iff, mem_keys_start]
  case waits =>
    intro a names hget b
    have ha : a ∉ placed.flatten := (h.mem_keys_iff.mp (SortedMap.mem_keys_iff.mpr ⟨_, hget⟩)).2
    rw [← Waiting.waitsFor_iff_mem hget, hwaits]
    simp only [ha, not_false_eq_true, true_and]
  case closed =>
    intro a names hget b hb
    exact hclosed a b ⟨names, hget, hb⟩
  case ready =>
    intro a
    exact Waiting.mem_ready_iff_get?
  case progress =>
    intro hready
    have hsize := w.size_advance
    have hpos := List.length_pos_iff.mpr hready
    exact ⟨h.concat hready, fun a => Waiting.mem_keys_advance, by omega⟩

/-- If crates are left and none is ready, the walk for a cycle cannot fail, and ends with a
circle. -/
lemma standstill (h : Rounds (Waiting.start packages) placed w) (hready : w.ready = [])
    (hkeys : w.keys ≠ []) : Standstill packages w := by
  have hclosed := h.closed (Waiting.closed_start packages)
  constructor
  case waiting =>
    rintro a names hget rfl
    have hmem := Waiting.mem_ready_iff_get?.mpr hget
    exact absurd hmem (by simp [hready])
  case traced =>
    intro steps hsteps
    exact trace_eq_circle hclosed hready hkeys hsteps
  case isCircle => exact (h.cycleReport hready hkeys).circle
  case reported =>
    obtain ⟨rounds, -, hcontinues⟩ := h.roundStart.continues
    rw [layersFrom_of_ready_eq_nil hready hkeys] at hcontinues
    unfold Graph.layers layerNames
    simp only [hcontinues]
    rfl

end Rounds

/-- **At the start of every round the crates left wait for exactly those left that they need**, so
the round places one of them at least, or every crate left waits for another, and then the walk
through them fails nowhere and ends in a circle. -/
theorem round_invariant (h : Rounds (Waiting.start packages) placed w) :
    RoundStart packages placed w ∧ (w.ready = [] → w.keys ≠ [] → Standstill packages w) :=
  ⟨h.roundStart, h.standstill⟩

/-- Of the crates of the knot one is placed, and the walk through the others takes as many steps as
there are. -/
theorem round_invariant_knot :
    let w := (Waiting.start knot).advance
    Rounds (Waiting.start knot) [["base"]] w ∧ w.ready = [] ∧ w.keys = ["app", "left", "right"] ∧
      RoundStart knot [["base"]] w ∧ Standstill knot w ∧
      trace w 3 = .ok ["left", "right", "left"] ∧ trace w 2 = .error .unended := by
  have hplaced : (Waiting.start knot).ready = ["base"] := by decide
  have hrounds : Rounds (Waiting.start knot) [["base"]] (Waiting.start knot).advance := by
    rw [← hplaced]
    exact .round (by simp [hplaced]) (.none _)
  have hready : (Waiting.start knot).advance.ready = [] := by decide
  have hkeys : (Waiting.start knot).advance.keys = ["app", "left", "right"] := by decide
  obtain ⟨hstart, hstuck⟩ := round_invariant hrounds
  exact ⟨hrounds, hready, hkeys, hstart, hstuck hready (by simp [hkeys]), by decide, by decide⟩

end Graph

end CrateGate
