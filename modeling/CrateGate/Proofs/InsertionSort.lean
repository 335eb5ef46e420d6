import CrateGate.InsertionSort
import Mathlib.Tactic.Lemma

/-!
# Sorting sorts

Where the answers to the one question make an order (`Orders`), the outcome of a sort is in that
order (`sort_sorted`). The order is asked for among the items alone: labels of different kinds have
none, and those never meet.
-/

namespace CrateGate.InsertionSort

variable {α : Type} {before : α → α → Bool} {among : α → Prop} {a x : α} {items : List α}

/-- Among some items the answers make an order: of two items not both come before the other, and
what does not come before an item does not come before a later one. -/
structure Orders (before : α → α → Bool) (among : α → Prop) : Prop where
  asymm : ∀ x y, among x → among y → before x y = true → before y x = false
  trans : ∀ x y z, among x → among y → among z →
    before y x = false → before z y = false → before z x = false

/-- An item that comes before another one comes before what follows that. -/
lemma Orders.before_of_not_before {y z : α} (h : Orders before among) (hx : among x)
    (hy : among y) (hz : among z) (hxy : before x y = true) (hzy : before z y = false) :
    before x z = true := by
  rw [← Bool.not_eq_false]
  intro hxz
  have hnot := h.trans y z x hy hz hx hzy hxz
  rw [hxy] at hnot
  cases hnot

/-- No item comes before one that stands to its left. -/
def Sorted (before : α → α → Bool) (items : List α) : Prop :=
  items.Pairwise fun x y => before y x = false

/-! ## The run at the start -/

/-- What holds between neighbours of a run holds between all its items. -/
lemma climb_pairwise (well : α → α → Bool) {R : α → α → Prop}
    (hwell : ∀ x y, among x → among y → well x y = true → R x y)
    (htrans : ∀ x y z, among x → among y → among z → R x y → R y z → R x z)
    (ha : among a) (hitems : ∀ y ∈ items, among y) : (a :: (climb well a items).1).Pairwise R := by
  induction items generalizing a with
  | nil => simp [climb]
  | cons b rest ih =>
    obtain ⟨hb, hrest⟩ := List.forall_mem_cons.mp hitems
    rw [climb]
    split
    · next hab =>
      have hab' : R a b := hwell a b ha hb hab
      have hrun := ih hb hrest
      obtain ⟨hbelow, -⟩ := List.pairwise_cons.mp hrun
      refine List.pairwise_cons.mpr ⟨fun y hy => ?_, hrun⟩
      rcases List.mem_cons.mp hy with rfl | hy
      · exact hab'
      · have hmem : y ∈ rest := by
          rw [← climb_append well b rest]
          exact List.mem_append_left _ hy
        exact htrans a b y ha hb (hrest y hmem) hab' (hbelow y hy)
    · simp

/-- A climb goes on over the next item as long as that item is well placed after the last one. -/
lemma climb_cons_of_well (well : α → α → Bool) {b : α} {rest : List α} (h : well a b = true) :
    (climb well a (b :: rest)).1 = b :: (climb well b rest).1 := by
  rw [climb, if_pos h]

/-- The first run of any items is sorted: it goes up as it stands, or goes down and has been
turned. -/
lemma firstRun_sorted (h : Orders before among) (hitems : ∀ y ∈ items, among y) :
    Sorted before (firstRun before items).1 := by
  unfold firstRun
  split
  · next a b rest =>
    obtain ⟨ha, hrest⟩ := List.forall_mem_cons.mp hitems
    split
    · next hba =>
      -- a falling run is turned round
      have hrun := climb_pairwise (fun x y => before y x)
        (R := fun x y => before x y = false) (fun x y hx hy hyx => h.asymm y x hy hx hyx)
        (fun x y z hx hy hz hxy hyz => h.trans z y x hz hy hx hyz hxy) ha hrest
      rw [climb_cons_of_well (fun x y => before y x) hba] at hrun
      exact List.pairwise_reverse.mpr hrun
    · next hba =>
      have hrun := climb_pairwise (fun x y => !before y x)
        (R := fun x y => before y x = false) (fun x y _ _ hxy => by simpa using hxy)
        h.trans ha hrest
      rwa [climb_cons_of_well (fun x y => !before y x) (by simpa using hba)] at hrun
  · next hshort =>
    match items, hshort with
    | [], _ => exact List.Pairwise.nil
    | [a], _ => exact List.pairwise_singleton _ a
    | a :: b :: rest, hshort => exact absurd rfl (hshort a b rest)

/-! ## The place of an item -/

/-- An item that comes before one of a sorted list comes before all that follows. -/
lemma Orders.before_of_mem_above {middle y : α} {above : List α} (h : Orders before among)
    (hx : among x) (hitems : ∀ y ∈ middle :: above, among y)
    (hsorted : Sorted before (middle :: above)) (hmiddle : before x middle = true)
    (hy : y ∈ middle :: above) : before x y = true := by
  rcases List.mem_cons.mp hy with rfl | habove
  · exact hmiddle
  · exact h.before_of_not_before hx (hitems middle List.mem_cons_self) (hitems y hy) hmiddle
      ((List.pairwise_cons.mp hsorted).1 y habove)

/-- An item that does not come before one of a sorted list comes before nothing to the left of
that. -/
lemma Orders.not_before_of_mem_below {middle y : α} {below : List α} (h : Orders before among)
    (hx : among x) (hitems : ∀ y ∈ below ++ [middle], among y)
    (hsorted : Sorted before (below ++ [middle])) (hmiddle : before x middle = false)
    (hy : y ∈ below ++ [middle]) : before x y = false := by
  have hmem : middle ∈ below ++ [middle] := List.mem_append_right _ List.mem_cons_self
  rcases List.mem_append.mp hy with hbelow | hlast
  · have hle : before middle y = false :=
      (List.pairwise_append.mp hsorted).2.2 y hbelow middle List.mem_cons_self
    exact h.trans y middle x (hitems y hy) (hitems middle hmem) hx hle hmiddle
  · rwa [List.mem_singleton.mp hlast]

/-- A place for an item: it comes before nothing to the left, and before everything to the
right. -/
structure IsPlace (before : α → α → Bool) (x : α) (items : List α) (n : Nat) : Prop where
  le_length : n ≤ items.length
  left : ∀ y ∈ items.take n, before x y = false
  right : ∀ y ∈ items.drop n, before x y = true

/-- A place stays one where more items stand to the right that the item comes before. -/
lemma IsPlace.append {n : Nat} {more : List α} (h : IsPlace before x items n)
    (hmore : ∀ y ∈ more, before x y = true) : IsPlace before x (items ++ more) n where
  le_length := by
    rw [List.length_append]
    exact Nat.le_add_right_of_le h.le_length
  left := by
    rw [List.take_append_of_le_length h.le_length]
    exact h.left
  right := by
    rw [List.drop_append_of_le_length h.le_length]
    intro y hy
    rcases List.mem_append.mp hy with hy | hy
    · exact h.right y hy
    · exact hmore y hy

/-- A place moves on by the items to the left that the item does not come before. -/
lemma IsPlace.after {n : Nat} {below : List α} (h : IsPlace before x items n)
    (hbelow : ∀ y ∈ below, before x y = false) :
    IsPlace before x (below ++ items) (below.length + n) where
  le_length := by
    rw [List.length_append]
    exact Nat.add_le_add_left h.le_length _
  left := by
    rw [List.take_length_add_append]
    intro y hy
    rcases List.mem_append.mp hy with hy | hy
    · exact hbelow y hy
    · exact h.left y hy
  right := by
    rw [List.drop_length_add_append]
    exact h.right

/-- Halving finds a place for an item in a sorted list. -/
lemma isPlace_place (h : Orders before among) (hx : among x) (hitems : ∀ y ∈ items, among y)
    (hsorted : Sorted before items) : IsPlace before x items (place before x items) := by
  fun_induction place before x items with
  | case1 items half hdrop =>
    have hlength := congrArg List.length hdrop
    have hnil : items = [] := by
      rw [← List.length_eq_zero_iff]
      simp only [List.length_drop, List.length_nil] at hlength
      omega
    exact ⟨Nat.zero_le _, by simp, by simp [hnil]⟩
  | case2 items half middle above hdrop hmiddle ih =>
    have hbelow := ih (fun y hy => hitems y (List.mem_of_mem_take hy))
      (hsorted.sublist (List.take_sublist _ _))
    have hsuffix : Sorted before (middle :: above) :=
      hdrop ▸ hsorted.sublist (List.drop_sublist _ _)
    have hmem : ∀ y ∈ middle :: above, among y :=
      fun y hy => hitems y (List.mem_of_mem_drop (hdrop ▸ hy))
    have hplace := hbelow.append fun y hy => h.before_of_mem_above hx hmem hsuffix hmiddle hy
    rwa [← hdrop, List.take_append_drop] at hplace
  | case3 items half middle above hdrop hmiddle ih =>
    have hsplit : items = (items.take half ++ [middle]) ++ above := by
      rw [List.append_assoc, List.singleton_append, ← hdrop, List.take_append_drop]
    have hlength : (items.take half ++ [middle]).length = half + 1 := by
      have hhalf := congrArg List.length hdrop
      simp only [List.length_drop, List.length_cons] at hhalf
      simp only [List.length_append, List.length_take, List.length_singleton]
      omega
    have hmem : ∀ y ∈ (items.take half ++ [middle]) ++ above, among y := hsplit ▸ hitems
    have hsorted' : Sorted before ((items.take half ++ [middle]) ++ above) := hsplit ▸ hsorted
    obtain ⟨hbelow, habove, -⟩ := List.pairwise_append.mp hsorted'
    have hplace := (ih (fun y hy => hmem y (List.mem_append_right _ hy)) habove).after fun y hy =>
      h.not_before_of_mem_below hx (fun y hy => hmem y (List.mem_append_left _ hy)) hbelow
        (by simpa using hmiddle) hy
    rwa [hlength, ← hsplit] at hplace

/-- An item put where the search by halves ends keeps a list sorted, since the search ends between
what comes before the item and what does not. -/
lemma insert_sorted (h : Orders before among) (hx : among x) (hitems : ∀ y ∈ items, among y)
    (hsorted : Sorted before items) : Sorted before (insert before items x) := by
  have hplace := isPlace_place h hx hitems hsorted
  unfold insert
  generalize place before x items = n at hplace
  rw [← List.take_append_drop n items] at hsorted
  obtain ⟨hleft, hright, hcross⟩ := List.pairwise_append.mp hsorted
  have hbelow : ∀ y ∈ items.drop n, before y x = false := fun y hy =>
    h.asymm x y hx (hitems y (List.mem_of_mem_drop hy)) (hplace.right y hy)
  refine List.pairwise_append.mpr
    ⟨hleft, List.pairwise_cons.mpr ⟨hbelow, hright⟩, fun y hy z hz => ?_⟩
  rcases List.mem_cons.mp hz with rfl | hz
  · exact hplace.left y hy
  · exact hcross y hy z hz

/-- **Sorting sorts**: in the outcome no item comes before one that stands to its left. -/
theorem sort_sorted (h : Orders before among) (hitems : ∀ y ∈ items, among y) :
    Sorted before (sort before items) := by
  have fold (rest run : List α) (hrest : ∀ y ∈ rest, among y) (hrun : ∀ y ∈ run, among y)
      (hsorted : Sorted before run) : Sorted before (rest.foldl (insert before) run) := by
    induction rest generalizing run with
    | nil => exact hsorted
    | cons x rest ih =>
      obtain ⟨hx, hrest⟩ := List.forall_mem_cons.mp hrest
      refine ih _ hrest (fun y hy => ?_) (insert_sorted h hx hrun hsorted)
      rcases List.mem_cons.mp ((insert_perm before run x).mem_iff.mp hy) with rfl | hy
      · exact hx
      · exact hrun y hy
  have hsplit : ∀ y ∈ (firstRun before items).1 ++ (firstRun before items).2, among y :=
    fun y hy => hitems y ((firstRun_perm before items).mem_iff.mp hy)
  exact fold _ _ (fun y hy => hsplit y (List.mem_append_right _ hy))
    (fun y hy => hsplit y (List.mem_append_left _ hy)) (firstRun_sorted h hitems)

end CrateGate.InsertionSort
