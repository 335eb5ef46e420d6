import CrateGate.Proofs.Yaml.Trail
import CrateGate.Yaml.Making

/-!
# Slips in the values of a document

While a graph is computed, only single nodes slip (`NodeSlip`): a scalar whose text has no value of
its kind, and a mapping that is to be a scalar. Merging changes nodes on the way, but it makes no
node slip that did not before (`Turns.back`). So a slip of the whole is the slip of a node as it was
written (`nodeSlip_of_value`).
-/

namespace CrateGate.Yaml

open Making

variable {n n' n'' : Node} {m m' : Making} {target : NodeId} {kind : Kind} {text : Text}
  {word : String} {slip : Slip}

/-! ## Slips of nodes -/

/-- The slips of scalars of a kind. -/
def Kind.slips : Kind → List Slip
  | .flag => [.badKey]
  | .integer => [.badIndex, .badValue]
  | .real => [.badIndex, .badValue, .tooLarge]
  | .moment => [.badAttribute, .badValue, .badType]
  | _ => []

/-- A flag is looked up among the words for flags, and slips only if it is none of them. -/
lemma slip_of_readFlag (h : readFlag word = unexpected slip) : slip = .badKey := by
  unfold readFlag at h
  simp only at h
  split at h
  · cases h
  · split at h
    · cases h
    · cases h
      rfl

/-- An integer slips if it ends too early, or if what is left of it is no number. -/
lemma slip_of_readInteger (h : readInteger word = unexpected slip) :
    slip = .badIndex ∨ slip = .badValue := by
  have hnumber {valid : Bool}
      (h : (if valid = true then .ok .number else unexpected .badValue : Except Problem Plain) =
        unexpected slip) : slip = .badValue := by
    split at h
    · cases h
    · cases h
      rfl
  unfold readInteger at h
  simp only at h
  split at h
  · cases h
    exact .inl rfl
  · split at h
    · cases h
      exact .inl rfl
    · cases h
    · exact .inr (hnumber h)
    · exact .inr (hnumber h)
    · exact .inr (hnumber h)
    · split at h
      · exact .inr (hnumber h)
      · exact .inr (hnumber h)

/-- A number with a point slips as an integer does, and also if it has too many parts in the base
60. -/
lemma slip_of_readReal (h : readReal word = unexpected slip) :
    slip = .badIndex ∨ slip = .badValue ∨ slip = .tooLarge := by
  unfold readReal at h
  simp only at h
  split at h
  · cases h
    exact .inl rfl
  · split at h
    · cases h
    · split at h
      · cases h
        exact .inr (.inl rfl)
      · split at h
        · cases h
          exact .inr (.inr rfl)
        · cases h

/-- A moment slips if it has no form of one, or a day or a time in it that there is not. -/
lemma slip_of_readMoment (h : readMoment word = unexpected slip) :
    slip = .badAttribute ∨ slip = .badValue := by
  unfold readMoment at h
  simp only at h
  split at h
  · cases h
    exact .inl rfl
  · split at h
    · cases h
    · cases h
      exact .inr rfl

/-- Which slips a scalar may have is a matter of its kind. -/
lemma slip_of_scalarOf {isScalar : Bool} (h : scalarOf kind text isScalar = unexpected slip) :
    slip ∈ kind.slips := by
  unfold scalarOf at h
  cases kind with
  | flag => simp [Kind.slips, slip_of_readFlag h]
  | integer =>
    rcases slip_of_readInteger h with rfl | rfl <;> simp [Kind.slips]
  | real =>
    rcases slip_of_readReal h with rfl | rfl | rfl <;> simp [Kind.slips]
  | moment =>
    cases isScalar with
    | true =>
      rcases slip_of_readMoment h with rfl | rfl <;> simp [Kind.slips]
    | false =>
      cases h
      simp [Kind.slips]
  | bytes =>
    simp only [readBase64] at h
    split at h <;> cases h
  | _ => cases h

/-- Why a node slips: its text has no value of its kind, or it is a mapping of a kind of scalars. A
mapping stands for the scalar under its key `=`, and this for the one under its own, which may have
no end. -/
inductive NodeSlip (n : Node) : Slip → Prop
  | scalar {text : Text} {slip : Slip} (content : n.content = .scalar text)
      (slips : scalarOf n.kind text true = unexpected slip) : NodeSlip n slip
  | endless {pairs : List (NodeId × NodeId)} (content : n.content = .mapping pairs)
      (kind : isCollection n.kind = false) : NodeSlip n .tooDeep
  | standing {pairs : List (NodeId × NodeId)} {text : Text} {slip : Slip}
      (content : n.content = .mapping pairs)
      (slips : scalarOf n.kind text false = unexpected slip) : NodeSlip n slip

/-- The slips of a node are those of its kind, but for a mapping without an end. -/
lemma NodeSlip.mem (h : NodeSlip n slip) : slip = .tooDeep ∨ slip ∈ n.kind.slips := by
  cases h with
  | scalar content slips => exact .inr (slip_of_scalarOf slips)
  | endless content kind => exact .inl rfl
  | standing content slips => exact .inr (slip_of_scalarOf slips)

/-! ## Nodes that change -/

/-- What a node may turn into: a key `=` into a text, and a mapping into one of other pairs. -/
structure Turns (n n' : Node) : Prop where
  kind : n'.kind = n.kind ∨ n.kind = .default ∧ n'.kind = .text
  content : n'.content = n.content ∨
    ∃ pairs pairs', n.content = .mapping pairs ∧ n'.content = .mapping pairs'

/-- A node can stay as it is. -/
lemma Turns.refl (n : Node) : Turns n n :=
  ⟨.inl rfl, .inl rfl⟩

/-- A node that may become another one by two steps may do so at once. -/
lemma Turns.trans (h : Turns n n') (h' : Turns n' n'') : Turns n n'' := by
  constructor
  · rcases h'.kind with hkind' | ⟨hdefault, htext⟩
    · rw [hkind']
      exact h.kind
    · rcases h.kind with hkind | ⟨-, hkind⟩
      · exact .inr ⟨hkind ▸ hdefault, htext⟩
      · rw [hkind] at hdefault
        cases hdefault
  · rcases h'.content with hcontent' | ⟨pairs', pairs'', hpairs', hpairs''⟩
    · rw [hcontent']
      exact h.content
    · rcases h.content with hcontent | ⟨pairs, -, hpairs, -⟩
      · exact .inr ⟨pairs', pairs'', hcontent ▸ hpairs', hpairs''⟩
      · exact .inr ⟨pairs, pairs'', hpairs, hpairs''⟩

/-- A scalar that slips is none that a key `=` turned into. -/
lemma Turns.kind_of_slip {isScalar : Bool} (h : Turns n n')
    (hslips : scalarOf n'.kind text isScalar = unexpected slip) : n'.kind = n.kind := by
  rcases h.kind with hkind | ⟨-, hkind⟩
  · exact hkind
  · rw [hkind] at hslips
    cases hslips

/-- A node that is a mapping in the end was a mapping at the start: only the pairs may have
changed. -/
lemma Turns.mapping {pairs : List (NodeId × NodeId)} (h : Turns n n')
    (hcontent : n'.content = .mapping pairs) : ∃ pairs, n.content = .mapping pairs := by
  rcases h.content with hsame | ⟨pairs', -, hpairs', -⟩
  · exact ⟨pairs, hsame ▸ hcontent⟩
  · exact ⟨pairs', hpairs'⟩

/-- A node slips no more than what it comes from. -/
lemma Turns.back (h : Turns n n') (hslip : NodeSlip n' slip) : NodeSlip n slip := by
  cases hslip with
  | scalar content slips =>
    rw [h.kind_of_slip slips] at slips
    rcases h.content with hcontent | ⟨-, pairs', -, hpairs'⟩
    · exact .scalar (hcontent ▸ content) slips
    · rw [hpairs'] at content
      cases content
  | endless content kind =>
    obtain ⟨pairs, hpairs⟩ := h.mapping content
    refine .endless hpairs ?_
    rcases h.kind with hkind | ⟨hkind, -⟩
    · exact hkind ▸ kind
    · rw [hkind]
      rfl
  | standing content slips =>
    rw [h.kind_of_slip slips] at slips
    obtain ⟨pairs, hpairs⟩ := h.mapping content
    exact .standing hpairs slips

/-- The trail of a graph as far as it is computed. -/
def turning : Trail Making where
  After m m' := ∀ id, Turns (m.node id) (m'.node id)
  Slips m slip := ∃ id, NodeSlip (m.node id) slip
  refl m id := .refl (m.node id)
  trans h h' id := (h id).trans (h' id)
  back := by
    rintro m m' slip h ⟨id, hslip⟩
    exact ⟨id, (h id).back hslip⟩

namespace Making

/-- Setting a node changes that node at most. -/
lemma node_setNode (m : Making) (target : NodeId) (n : Node) (other : NodeId) :
    (m.setNode target n).node other = m.node other ∨
      other = target ∧ (m.setNode target n).node other = n := by
  simp only [node, setNode, Array.getD_eq_getD_getElem?, Array.getElem?_modify]
  by_cases hother : target = other
  · subst hother
    cases m.nodes[target]? with
    | none => exact .inl (by simp)
    | some n' => exact .inr ⟨rfl, by simp⟩
  · exact .inl (by simp [hother])

/-- If one node becomes what it may become, the graph is one that may come of it. -/
lemma after_setNode (h : Turns (m.node target) n) : turning.After m (m.setNode target n) := by
  intro other
  rcases node_setNode m target n other with hother | ⟨rfl, hother⟩
  · rw [hother]
    exact .refl _
  · rw [hother]
    exact h

/-- The test for mappings is what it means to be one. -/
lemma isMapping_iff :
    m.isMapping target = true ↔ ∃ pairs, (m.node target).content = .mapping pairs := by
  unfold isMapping
  split
  · next pairs hpairs => simp [hpairs]
  · next hno =>
    simp only [Bool.false_eq_true, false_iff, not_exists]
    exact hno

/-- A mapping may get other pairs, and nothing else about the graph changes. -/
lemma after_setPairs (h : m.isMapping target = true) (pairs : List (NodeId × NodeId)) :
    turning.After m (m.setPairs target pairs) := by
  obtain ⟨before, hbefore⟩ := isMapping_iff.mp h
  exact after_setNode ⟨.inl rfl, .inr ⟨before, pairs, hbefore, rfl⟩⟩

/-- A mapping stays one. -/
lemma isMapping_of_after (h : turning.After m m') (hmapping : m.isMapping target = true) :
    m'.isMapping target = true := by
  obtain ⟨pairs, hpairs⟩ := isMapping_iff.mp hmapping
  refine isMapping_iff.mpr ?_
  rcases (h target).content with hsame | ⟨-, pairs', -, hpairs'⟩
  · exact ⟨pairs, hsame ▸ hpairs⟩
  · exact ⟨pairs', hpairs'⟩

/-! ## Merging -/

section Merging

/-- Something that merges mappings keeps to the trail. -/
def Merges (enter : NodeId → Making → Except Problem Making) : Prop :=
  ∀ target m, m.isMapping target = true → turning.Keeps m id (enter target m)

variable {enter : NodeId → Making → Except Problem Making}

/-- Gathering the pairs to be merged into a mapping enters other nodes only, each of which may have
changed as nodes may. -/
lemma Merges.mergedPairs (h : Merges enter) (target : NodeId) (m : Making) :
    turning.Keeps m Prod.snd (mergedPairs enter target m) := by
  unfold Making.mergedPairs
  split
  · next pairs hpairs =>
    apply (h target m (isMapping_iff.mpr ⟨pairs, hpairs⟩)).bind
    intro m' _
    exact .ok (turning.refl m')
  · next items _ =>
    refine Trail.Keeps.foldlM Prod.snd ?_ items ([], m)
    rintro ⟨found, m⟩ item
    simp only
    split
    · exact .malformed
    · next hmapping =>
      apply (h item m (by simpa using hmapping)).bind
      intro m' _
      exact .ok (turning.refl m')
  · exact .malformed

/-- What follows the first items that pass a test does not. -/
lemma not_of_getElem?_takeWhile {α : Type} {p : α → Bool} {xs : List α} {x : α}
    (h : xs[(xs.takeWhile p).length]? = some x) : p x = false := by
  induction xs with
  | nil => cases h
  | cons y ys ih =>
    rw [List.takeWhile_cons] at h
    split at h
    · exact ih (by simpa using h)
    · next hy =>
      obtain rfl : y = x := by simpa using h
      simpa using hy

/-- Merging from a place on keeps all other nodes, and leaves a mapping where there was one. -/
lemma Merges.mergeFrom (h : Merges enter) (fuel place : Nat) (found : List (NodeId × NodeId))
    (hm : m.isMapping target = true) :
    turning.Keeps m Prod.snd (mergeFrom enter target fuel place found m) := by
  induction fuel generalizing place found m with
  | zero => exact .ok (turning.refl m)
  | succ fuel ih =>
    rw [Making.mergeFrom]
    simp only
    split
    · exact .ok (turning.refl m)
    · next key value hpair =>
      split
      · have herased := after_setPairs hm
        have hm' (pairs) := isMapping_of_after (herased pairs) hm
        apply ((h.mergedPairs value _).mono (herased _)).bind
        rintro ⟨more, after⟩ hmore
        exact ih _ _ (isMapping_of_after ((h.mergedPairs value _).after _ hmore) (hm' _))
      · next hmerge =>
        -- a special key that merges nothing is `=`, and only such a key becomes a text
        have hspecial : m.isSpecial key = true := by
          rw [← List.getElem?_drop] at hpair
          simpa using not_of_getElem?_takeWhile hpair
        have hdefault : (m.node key).kind = .default := by
          simpa [isSpecial, hmerge] using hspecial
        have htext : turning.After m (m.setNode key { m.node key with kind := .text }) :=
          after_setNode ⟨.inr ⟨hdefault, rfl⟩, .inl rfl⟩
        exact (ih _ _ (isMapping_of_after htext hm)).mono htext

/-- So merging keeps what nodes may become, at any depth, by the fuel that goes down with it. -/
lemma merges_merge (depth : Nat) : Merges (merge depth) := by
  induction depth with
  | zero =>
    intro target m _
    exact .malformed
  | succ depth ih =>
    intro target m hm
    rw [merge]
    apply (ih.mergeFrom _ 0 [] hm).bind
    rintro ⟨found, after⟩ hfound
    have hafter := isMapping_of_after ((ih.mergeFrom _ 0 [] hm).after _ hfound) hm
    simp only
    apply Trail.Keeps.ok
    split
    · exact turning.refl after
    · exact after_setPairs hafter _

end Merging

/-! ## Computing -/

/-- A text slips only if mappings stand for one another without an end. -/
lemma slip_of_textOf {fuel : Nat} (h : m.textOf fuel target = unexpected slip) :
    slip = .tooDeep := by
  induction fuel generalizing target with
  | zero =>
    cases h
    rfl
  | succ fuel ih =>
    rw [textOf] at h
    split at h
    · cases h
    · cases h
    · split at h
      · exact ih h
      · cases h

/-- Only a mapping has a text that may have no end. -/
lemma keeps_textOf (hkind : isCollection (m.node target).kind = false) :
    turning.Keeps m (fun _ => m) (m.textOf defaultLimit target) := by
  constructor
  · intro text _
    exact turning.refl m
  · intro slip hslip
    obtain rfl := slip_of_textOf hslip
    rw [defaultLimit, textOf] at hslip
    split at hslip
    · cases hslip
    · cases hslip
    · next pairs hpairs => exact ⟨target, .endless hpairs hkind⟩

/-- A scalar is read from its own text, and a mapping from that of another. -/
lemma keeps_scalarOf (htext : m.textOf defaultLimit target = .ok text) :
    turning.Keeps m (fun _ => m) (scalarOf (m.node target).kind text
      (match (m.node target).content with
        | .scalar _ => true
        | _ => false)) := by
  constructor
  · intro p _
    exact turning.refl m
  · intro slip hslip
    refine ⟨target, ?_⟩
    rw [defaultLimit, textOf] at htext
    cases hcontent : (m.node target).content with
    | scalar text' =>
      rw [hcontent] at htext hslip
      obtain rfl := Except.ok.inj htext
      exact .scalar hcontent hslip
    | sequence items =>
      rw [hcontent] at htext
      cases htext
    | mapping pairs =>
      rw [hcontent] at hslip
      exact .standing hcontent hslip

/-- Making the value of a node changes nodes only as they may change, and slips only by a node
without a value. -/
lemma keeps_make (target : NodeId) (m : Making) :
    turning.Keeps m Prod.snd (make target m) := by
  unfold make
  split
  · exact .ok (turning.refl m)
  · simp only
    split
    · exact .ok (turning.refl m)
    · next hkind =>
      split
      · exact .malformed
      · apply (keeps_textOf (Bool.eq_false_iff.mpr hkind)).bind
        intro text htext
        apply (keeps_scalarOf htext).bind
        intro p _
        exact .ok (turning.refl m)

/-- So does making the values of items, one after another. -/
lemma keeps_makeItems (items : List NodeId) (m : Making) :
    turning.Keeps m id (makeItems items m) := by
  refine Trail.Keeps.foldlM id ?_ items m
  intro m item
  apply (keeps_make item m).bind
  rintro ⟨made, after⟩ _
  exact .ok (turning.refl after)

/-- So does making the values of keys and values. -/
lemma keeps_makePairs (pairs : List (NodeId × NodeId)) (m : Making) :
    turning.Keeps m id (makePairs pairs m) := by
  refine Trail.Keeps.foldlM id ?_ pairs m
  rintro m ⟨key, value⟩
  apply (keeps_make key m).bind
  rintro ⟨made, after⟩ _
  cases made with
  | collection kind => exact .malformed
  | plain p =>
    apply (keeps_make value after).bind
    rintro ⟨made, last⟩ _
    exact .ok (turning.refl last)

/-- So does making the values of pairs that are written as items. -/
lemma keeps_makeSingles (items : List NodeId) (m : Making) :
    turning.Keeps m id (makeSingles items m) := by
  refine Trail.Keeps.foldlM id ?_ items m
  intro m item
  simp only
  split
  · next key value _ =>
    apply (keeps_make key m).bind
    rintro ⟨made, after⟩ _
    apply (keeps_make value after).bind
    rintro ⟨made, last⟩ _
    exact .ok (turning.refl last)
  · exact .malformed

/-- Entering a node makes what it holds, once, by the sort of its content. -/
lemma keeps_enter (target : NodeId) (m : Making) : turning.Keeps m id (enter target m) := by
  have hmapping {pairs : List (NodeId × NodeId)} (h : (m.node target).content = .mapping pairs) :
      turning.Keeps m id (do
        let m ← merge (m.pairCount + 1) target m
        makePairs (m.pairs target) m) := by
    apply (merges_merge _ target m (isMapping_iff.mpr ⟨pairs, h⟩)).bind
    intro after _
    exact keeps_makePairs _ after
  unfold enter
  simp only
  split
  · exact keeps_makeItems _ m
  · exact keeps_makeSingles _ m
  · exact keeps_makeSingles _ m
  · next h => exact hmapping h
  · next h => exact hmapping h
  · exact .malformed

/-- So the whole graph is made, node by node as they come up. -/
lemma keeps_enterAll (fuel : Nat) (m : Making) : turning.Keeps m id (enterAll fuel m) := by
  induction fuel generalizing m with
  | zero => exact .ok (turning.refl m)
  | succ fuel ih =>
    rw [enterAll]
    split
    · exact .ok (turning.refl m)
    · next target waiting _ =>
      have hafter : turning.After m { m with waiting } := turning.refl m
      apply Trail.Keeps.mono hafter
      apply (keeps_enter target { m with waiting }).bind
      intro after _
      exact ih after

end Making

/-- A node that is not there does not slip. -/
lemma mem_of_nodeSlip (h : NodeSlip (m.node target) slip) : m.node target ∈ m.nodes := by
  unfold Making.node at h ⊢
  rw [Array.getD_eq_getD_getElem?] at h ⊢
  cases hnode : m.nodes[target]? with
  | some n => exact Array.mem_of_getElem? hnode
  | none =>
    rw [hnode] at h
    cases h with
    | scalar content slips => cases slips
    | endless content kind => cases content
    | standing content slips => cases content

/-- A graph slips only if one of its nodes does. -/
lemma nodeSlip_of_value {g : Graph} {depth : Nat}
    (h : g.value depth = .error (.unexpected slip)) : ∃ n ∈ g.nodes, NodeSlip n slip := by
  unfold Graph.value at h
  split at h
  · cases h
  · next root _ =>
    have hends : turning.Ends ⟨g.nodes, .replicate g.nodes.size none, []⟩
        (Making.make root ⟨g.nodes, .replicate g.nodes.size none, []⟩ >>= fun made =>
          made.2.enterAll (g.nodes.size + 1) >>= fun m => .ok (m.view depth root)) := by
      apply Trail.Ends.bind (keeps_make root _)
      intro made _
      apply Trail.Ends.bind (keeps_enterAll _ made.2)
      intro m _
      exact .ok
    obtain ⟨target, hslip⟩ := hends slip h
    exact ⟨_, mem_of_nodeSlip hslip, hslip⟩

end CrateGate.Yaml
