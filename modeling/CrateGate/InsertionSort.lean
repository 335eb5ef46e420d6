/-!
# Sorting by insertion

A list is sorted by taking the run at its start, turned round if it falls, and putting every further
item into its place, which is looked for by halving. Only one question is asked of two items:
whether the one comes before the other. Where the answers make a total order, the outcome is the
sorted list; where an item comes neither before nor after any other, as a value that is no number
does, it is the list to which exactly these steps lead.

* `insert_perm`: inserting an item adds that item and changes nothing else.
* `sort_perm`: sorting loses nothing and adds nothing.
-/

namespace CrateGate.InsertionSort

variable {α : Type}

/-- The items of a list as long as each of them stands well after the one before it, and the items
after those. -/
def climb (well : α → α → Bool) : α → List α → List α × List α
  | _, [] => ([], [])
  | a, b :: rest =>
    if well a b then
      let (run, rest) := climb well b rest
      (b :: run, rest)
    else ([], b :: rest)

/-- The run at the start of a list in rising order, and what comes after it. -/
def firstRun (before : α → α → Bool) : List α → List α × List α
  | a :: b :: rest =>
    if before b a then
      let (run, rest) := climb (fun x y => before y x) b rest
      ((a :: b :: run).reverse, rest)
    else
      let (run, rest) := climb (fun x y => !before y x) b rest
      (a :: b :: run, rest)
  | items => (items, [])

/-- How many items come before the place of a new one. -/
def place (before : α → α → Bool) (x : α) (items : List α) : Nat :=
  let half := items.length / 2
  match h : items.drop half with
  | [] => 0
  | middle :: above =>
    if before x middle then place before x (items.take half)
    else half + 1 + place before x above
termination_by items.length
decreasing_by
  all_goals
    have := congrArg List.length h
    simp only [List.length_drop, List.length_cons, List.length_take] at this ⊢
    omega

/-- A list with one more item put into its place. -/
def insert (before : α → α → Bool) (items : List α) (x : α) : List α :=
  let n := place before x items
  items.take n ++ x :: items.drop n

/-- A list with its items in order. -/
def sort (before : α → α → Bool) (items : List α) : List α :=
  let (run, rest) := firstRun before items
  rest.foldl (insert before) run

/-! ## Nothing is lost -/

/-- The climb is cut off the items at some place; what is before the cut and what is after it are
the items. -/
theorem climb_append (well : α → α → Bool) (a : α) (items : List α) :
    (climb well a items).1 ++ (climb well a items).2 = items := by
  induction items generalizing a with
  | nil => rfl
  | cons b rest ih =>
    simp only [climb]
    split
    · simpa using ih b
    · rfl

/-- Turning a first run that descends loses no item and brings in none. -/
theorem firstRun_perm (before : α → α → Bool) (items : List α) :
    ((firstRun before items).1 ++ (firstRun before items).2).Perm items := by
  unfold firstRun
  split
  · next a b rest =>
    split
    · have h := climb_append (fun x y => before y x) b rest
      refine ((List.reverse_perm _).append_right _).trans (List.Perm.of_eq ?_)
      simpa using h
    · have h := climb_append (fun x y => !before y x) b rest
      exact List.Perm.of_eq (by simpa using h)
  · simp

/-- What is inserted is added to the items, and nothing else happens to them but a change of
places. -/
theorem insert_perm (before : α → α → Bool) (items : List α) (x : α) :
    (insert before items x).Perm (x :: items) := by
  let n := place before x items
  have h : (items.take n ++ x :: items.drop n).Perm (x :: (items.take n ++ items.drop n)) :=
    List.perm_middle
  rwa [List.take_append_drop] at h

/-- Sorting loses nothing and adds nothing. -/
theorem sort_perm (before : α → α → Bool) (items : List α) :
    (sort before items).Perm items := by
  have fold (rest run : List α) :
      (rest.foldl (insert before) run).Perm (run ++ rest) := by
    induction rest generalizing run with
    | nil => simp
    | cons x rest ih =>
      refine (ih (insert before run x)).trans ?_
      exact ((insert_perm before run x).append_right rest).trans List.perm_middle.symm
  exact (fold _ _).trans (firstRun_perm before items)

end CrateGate.InsertionSort
