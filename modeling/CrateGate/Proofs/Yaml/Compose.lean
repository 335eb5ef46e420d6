import CrateGate.Proofs.Yaml.Trail
import CrateGate.Yaml.Node

/-!
# Slips in the nodes of a document

While nodes are made of tokens, there are two reasons for a slip: that with which the tokens end,
and nodes that lie too deep in one another. For each node around another one there is a token that
opens it, so in the second case there are as many of those as nodes may lie in one another
(`slip_of_graph`).
-/

namespace CrateGate.Yaml

/-- Whether a token opens something that nodes lie in. -/
def Token.opens : Token → Bool
  | .flowSequenceStart | .flowMappingStart | .blockSequenceStart | .blockMappingStart
  | .blockEntry | .key => true
  | _ => false

/-- How many tokens open something. -/
def openers (ts : List Token) : Nat :=
  ts.countP Token.opens

namespace Composing

variable {c c' : Composing} {t : Token} {slip : Slip} {deep fuel : Nat}

/-- The second document is the first one with more of its nodes read. -/
structure Leads (c c' : Composing) : Prop where
  ending : c'.ending = c.ending
  tokens : c'.tokens <:+ c.tokens

/-- A composing leads to itself: no token is taken and no node is lost. -/
lemma Leads.refl (c : Composing) : c.Leads c :=
  ⟨rfl, List.suffix_refl _⟩

/-- What is taken and added on two ways one after the other is taken and added on the whole. -/
lemma Leads.trans {c c' c'' : Composing} (h : c.Leads c') (h' : c'.Leads c'') : c.Leads c'' :=
  ⟨h'.ending.trans h.ending, h'.tokens.trans h.tokens⟩

/-- Taking a token leads on: there is one less to come. -/
lemma leads_pop (c : Composing) : c.Leads c.pop :=
  ⟨rfl, List.drop_suffix 1 _⟩

/-- A node that is added changes nothing of the tokens. -/
lemma leads_add (c : Composing) (n : Node) : c.Leads (c.add n).2 :=
  ⟨rfl, List.suffix_refl _⟩

/-- A node that is filled in later changes nothing of the tokens either. -/
lemma leads_fill (c : Composing) (id : NodeId) (content : Content) : c.Leads (c.fill id content) :=
  ⟨rfl, List.suffix_refl _⟩

/-- The trail of a document as far as its nodes are read, where nodes may still lie so deep. -/
def nesting (deep : Nat) : Trail Composing where
  After := Leads
  Slips c slip := c.ending = .unexpected slip ∨ slip = .tooDeep ∧ deep ≤ openers c.tokens
  refl := Leads.refl
  trans := Leads.trans
  back := by
    rintro c c' slip hlead (hslip | ⟨rfl, hdeep⟩)
    · exact .inl (hlead.ending ▸ hslip)
    · exact .inr ⟨rfl, Nat.le_trans hdeep hlead.tokens.sublist.countP_le⟩

/-- A token that is seen is the first of those to come, and taking it leaves the others. -/
lemma tokens_of_peek (h : c.peek = .ok t) : c.tokens = t :: c.pop.tokens := by
  unfold peek at h
  unfold pop
  split at h
  · next hts =>
    obtain rfl := Except.ok.inj h
    simp [hts]
  · cases h

/-- Looking at the next token changes nothing; past the last token it is malformed. -/
lemma keeps_peek (c : Composing) : (nesting deep).Keeps c (fun _ => c) c.peek := by
  unfold peek
  split
  · exact .ok (.refl c)
  · constructor
    · intro t ht
      cases ht
    · intro slip hslip
      exact .inl (Except.error.inj hslip)

/-- Behind a token that opens something, nodes may lie less deep. -/
lemma keeps_nested {α : Type} {out : α → Composing} {step : Except Problem α}
    (hpeek : c.peek = .ok t) (hopens : t.opens = true)
    (h : (nesting (deep - 1)).Keeps c.pop out step) : (nesting deep).Keeps c out step := by
  have hpop := leads_pop c
  constructor
  · intro a ha
    exact hpop.trans (h.after a ha)
  · intro slip hslip
    rcases h.slips slip hslip with hending | ⟨rfl, hdeep⟩
    · exact .inl hending
    · refine .inr ⟨rfl, ?_⟩
      rw [tokens_of_peek hpeek, openers, List.countP_cons_of_pos hopens]
      change deep - 1 ≤ openers c.pop.tokens at hdeep
      unfold openers at hdeep
      omega

/-- What slips with fewer levels left to go down needs as many more brackets to have been opened. -/
lemma keeps_shallower {α : Type} {out : α → Composing} {step : Except Problem α}
    (h : (nesting deep).Keeps c out step) : (nesting (deep - 1)).Keeps c out step := by
  constructor
  · intro a ha
    exact h.after a ha
  · intro slip hslip
    rcases h.slips slip hslip with hending | ⟨rfl, hdeep⟩
    · exact .inl hending
    · exact .inr ⟨rfl, Nat.le_trans (Nat.sub_le deep 1) hdeep⟩

/-- An anchor is kept without a look at the tokens. -/
lemma peek_of_setAnchor {anchor : Option String} (h : c.setAnchor anchor = .ok c') :
    c'.tokens = c.tokens ∧ c'.ending = c.ending := by
  unfold setAnchor at h
  split at h
  · obtain rfl := Except.ok.inj h
    exact ⟨rfl, rfl⟩
  · split at h
    · cases h
    · obtain rfl := Except.ok.inj h
      exact ⟨rfl, rfl⟩

/-- Entering an anchor changes nothing of the tokens. -/
lemma keeps_setAnchor (c : Composing) (anchor : Option String) :
    (nesting deep).Keeps c id (c.setAnchor anchor) := by
  constructor
  · intro c' hc'
    obtain ⟨htokens, hending⟩ := peek_of_setAnchor hc'
    exact ⟨hending, htokens ▸ List.suffix_refl _⟩
  · intro slip hslip
    unfold setAnchor at hslip
    split at hslip
    · cases hslip
    · split at hslip
      · cases hslip
      · cases hslip

/-- Making a tag whole changes nothing, and a handle that was not declared is malformed. -/
lemma keeps_fullTag (c : Composing) (tag : Option (Option String × String)) :
    (nesting deep).Keeps c (fun _ => c) (c.fullTag tag) := by
  unfold fullTag
  split
  · exact .ok (.refl c)
  · exact .ok (.refl c)
  · split
    · exact .ok (.refl c)
    · exact .malformed

/-- Reading the anchor and the tag of a node takes their tokens, in either order. -/
lemma keeps_readProperties (c : Composing) :
    (nesting deep).Keeps c Prod.snd c.readProperties := by
  unfold readProperties
  have hpop := leads_pop c
  apply (keeps_peek c).bind
  intro t _
  split
  · apply ((keeps_peek c.pop).mono hpop).bind
    intro t' _
    split
    · exact .ok (leads_pop c.pop)
    · exact .ok (.refl c.pop)
  · apply ((keeps_peek c.pop).mono hpop).bind
    intro t' _
    split
    · exact .ok (leads_pop c.pop)
    · exact .ok (.refl c.pop)
  · exact .ok (.refl c)

/-- Asking what the next token is changes nothing. -/
lemma keeps_isAt (c : Composing) (ts : List Token) :
    (nesting deep).Keeps c (fun _ => c) (c.isAt ts) := by
  unfold isAt
  apply (keeps_peek c).bind
  intro t _
  exact .ok (.refl c)

/-! ## Nodes -/

/-- With so much fuel, everything that reads nodes keeps to the trail. A sequence that is not
indented begins with the token that opens it. -/
structure KeepsAt (fuel : Nat) : Prop where
  node : ∀ deep block flush c,
    (nesting deep).Keeps c Prod.snd (readNode fuel deep block flush c)
  nodeUnless : ∀ deep block flush ends c,
    (nesting deep).Keeps c Prod.snd (readNodeUnless fuel deep block flush ends c)
  blockItems : ∀ deep c, (nesting deep).Keeps c Prod.snd (readBlockItems fuel deep c)
  flushItems : ∀ deep c, (nesting (deep + 1)).Keeps c Prod.snd (readFlushItems fuel deep c)
  blockPairs : ∀ deep c, (nesting deep).Keeps c Prod.snd (readBlockPairs fuel deep c)
  flowItems : ∀ deep first c, (nesting deep).Keeps c Prod.snd (readFlowItems fuel deep first c)
  flowPairs : ∀ deep first c, (nesting deep).Keeps c Prod.snd (readFlowPairs fuel deep first c)

/-- Without fuel nothing is read, and no slip comes of that. -/
lemma keepsAt_zero : KeepsAt 0 := by
  constructor
  · intro deep block flush c
    rw [readNode]
    exact .malformed
  · intro deep block flush ends c
    rw [readNodeUnless]
    exact .malformed
  · intro deep c
    rw [readBlockItems]
    exact .malformed
  · intro deep c
    rw [readFlushItems]
    exact .malformed
  · intro deep c
    rw [readBlockPairs]
    exact .malformed
  · intro deep first c
    rw [readFlowItems]
    exact .malformed
  · intro deep first c
    rw [readFlowPairs]
    exact .malformed

/-- A node that may be missing is read or stands as an empty one, so it keeps what a node keeps. -/
lemma KeepsAt.readNodeUnless (h : KeepsAt fuel) (deep : Nat) (block flush : Bool)
    (ends : List Token) (c : Composing) :
    (nesting deep).Keeps c Prod.snd (readNodeUnless (fuel + 1) deep block flush ends c) := by
  rw [Composing.readNodeUnless]
  apply (keeps_isAt c ends).bind
  intro ended _
  split
  · exact .ok (leads_add c _)
  · exact h.node deep block flush c

/-- The items of a block, each after its hyphen, keep what nodes keep, one level further down. -/
lemma KeepsAt.readBlockItems (h : KeepsAt fuel) (deep : Nat) (c : Composing) :
    (nesting deep).Keeps c Prod.snd (readBlockItems (fuel + 1) deep c) := by
  rw [Composing.readBlockItems]
  apply (keeps_peek c).bind
  intro t _
  split
  · apply ((h.nodeUnless deep true false _ c.pop).mono (leads_pop c)).bind
    rintro ⟨item, after⟩ _
    apply (h.blockItems deep after).bind
    rintro ⟨items, last⟩ _
    exact .ok (.refl last)
  · exact .ok (leads_pop c)
  · exact .malformed

/-- Items that are not indented below their key keep it as well; they are read on the level of the
key. -/
lemma KeepsAt.readFlushItems (h : KeepsAt fuel) (deep : Nat) (c : Composing) :
    (nesting (deep + 1)).Keeps c Prod.snd (readFlushItems (fuel + 1) deep c) := by
  rw [Composing.readFlushItems]
  apply (keeps_peek c).bind
  intro t ht
  split
  · apply Trail.Keeps.bind
    · exact keeps_nested ht rfl (h.nodeUnless deep true false _ c.pop)
    · rintro ⟨item, after⟩ _
      apply (h.flushItems deep after).bind
      rintro ⟨items, last⟩ _
      exact .ok (.refl last)
  · exact .ok (.refl c)

/-- Where the value of a key is read, whether one is written or not. -/
lemma KeepsAt.value {α : Type} {out : α → Composing} (h : KeepsAt fuel) (block flush : Bool)
    (ends : List Token) (c : Composing) {next : NodeId × Composing → Except Problem α}
    (hnext : ∀ value after, (nesting deep).Keeps after out (next (value, after))) :
    (nesting deep).Keeps c out (do
      match ← c.peek with
      | .value =>
        let found ← Composing.readNodeUnless fuel deep block flush ends c.pop
        next found
      | _ =>
        let found ← .ok c.addEmpty
        next found) := by
  apply (keeps_peek c).bind
  intro t _
  split
  · apply ((h.nodeUnless deep block flush ends c.pop).mono (leads_pop c)).bind
    rintro ⟨value, after⟩ _
    exact hnext value after
  · have hempty : (nesting deep).Keeps c Prod.snd (.ok c.addEmpty) :=
      .ok (leads_add c _)
    apply hempty.bind
    rintro ⟨value, after⟩ _
    exact hnext value after

/-- The pairs of a block, each a key and a value, keep what nodes keep, in every form that a key can
have. -/
lemma KeepsAt.readBlockPairs (h : KeepsAt fuel) (deep : Nat) (c : Composing) :
    (nesting deep).Keeps c Prod.snd (readBlockPairs (fuel + 1) deep c) := by
  rw [Composing.readBlockPairs]
  apply (keeps_peek c).bind
  intro t _
  split
  · apply ((h.nodeUnless deep true true _ c.pop).mono (leads_pop c)).bind
    rintro ⟨key, after⟩ _
    simp only
    apply h.value
    intro value after
    apply (h.blockPairs deep after).bind
    rintro ⟨pairs, last⟩ _
    exact .ok (.refl last)
  · exact .ok (leads_pop c)
  · exact .malformed

/-- Before everything but the first there has to be a comma. -/
lemma keeps_separated {α : Type} {out : α → Composing} (first : Bool) (t : Token) (c : Composing)
    {next : Composing → Except Problem α}
    (hnext : ∀ after, (nesting deep).Keeps after out (next after)) :
    (nesting deep).Keeps c out
      (if first = true then do
        let after ← .ok c
        next after
      else if t = .flowEntry then do
        let after ← .ok c.pop
        next after
      else do
        let after ← .error .malformed
        next after) := by
  split
  · exact hnext c
  · split
    · exact (hnext c.pop).mono (leads_pop c)
    · exact .malformed

/-- Items in brackets keep what nodes keep, with commas between them and single pairs among them. -/
lemma KeepsAt.readFlowItems (h : KeepsAt fuel) (deep : Nat) (first : Bool) (c : Composing) :
    (nesting deep).Keeps c Prod.snd (readFlowItems (fuel + 1) deep first c) := by
  rw [Composing.readFlowItems]
  apply (keeps_peek c).bind
  intro t _
  split
  · exact .ok (leads_pop c)
  · simp only
    apply keeps_separated
    intro c
    apply (keeps_peek c).bind
    intro t ht
    split
    · exact .ok (leads_pop c)
    · -- the pair lies one deeper than the items; they may be read as if they did as well
      apply keeps_nested ht rfl
      apply ((h.nodeUnless (deep - 1) false false _ _).mono (leads_add _ _)).bind
      rintro ⟨key, after⟩ _
      apply h.value
      intro value after
      apply ((keeps_shallower (h.flowItems deep false _)).mono (leads_fill after _ _)).bind
      rintro ⟨items, last⟩ _
      exact .ok (.refl last)
    · apply (h.node deep false false c).bind
      rintro ⟨item, after⟩ _
      apply (h.flowItems deep false after).bind
      rintro ⟨items, last⟩ _
      exact .ok (.refl last)

/-- Pairs in braces keep what nodes keep, with commas between them and values that may be
missing. -/
lemma KeepsAt.readFlowPairs (h : KeepsAt fuel) (deep : Nat) (first : Bool) (c : Composing) :
    (nesting deep).Keeps c Prod.snd (readFlowPairs (fuel + 1) deep first c) := by
  rw [Composing.readFlowPairs]
  apply (keeps_peek c).bind
  intro t _
  split
  · exact .ok (leads_pop c)
  · simp only
    apply keeps_separated
    intro c
    apply (keeps_peek c).bind
    intro t ht
    split
    · exact .ok (leads_pop c)
    · apply ((h.nodeUnless deep false false _ c.pop).mono (leads_pop c)).bind
      rintro ⟨key, after⟩ _
      apply h.value
      intro value after
      apply (h.flowPairs deep false after).bind
      rintro ⟨pairs, last⟩ _
      exact .ok (.refl last)
    · apply (h.node deep false false c).bind
      rintro ⟨key, after⟩ _
      apply ((h.flowPairs deep false _).mono (leads_add after _)).bind
      rintro ⟨pairs, last⟩ _
      exact .ok (.refl last)

/-- Behind the token that opens a collection, what it holds lies less deep. -/
lemma keeps_collection {α : Type} {anchor : Option String} {n : Node}
    {read : Composing → Except Problem (α × Composing)} {content : α → Content}
    (ht : c.peek = .ok t) (hopens : t.opens = true)
    (hread : ∀ c, (nesting deep).Keeps c Prod.snd (read c)) :
    (nesting (deep + 1)).Keeps c Prod.snd (do
      let c ← c.setAnchor anchor
      let found ← read (c.pop.add n).2
      .ok ((c.pop.add n).1, found.2.fill (c.pop.add n).1 (content found.1))) := by
  apply (keeps_setAnchor c anchor).bind
  intro c' hc'
  have ht' : c'.peek = .ok t := by
    unfold peek at ht ⊢
    rw [(peek_of_setAnchor hc').1, (peek_of_setAnchor hc').2, ht]
  apply keeps_nested ht' hopens
  apply ((hread _).mono (leads_add c'.pop n)).bind
  rintro ⟨found, last⟩ _
  exact .ok (leads_fill last _ _)

/-- A node is an alias, a scalar or a collection. A collection goes one level down, and where no
level is left as many openings lie before it. -/
lemma KeepsAt.readNode (h : KeepsAt fuel) (deep : Nat) (block flush : Bool) (c : Composing) :
    (nesting deep).Keeps c Prod.snd (readNode (fuel + 1) deep block flush c) := by
  cases deep with
  | zero =>
    rw [Composing.readNode]
    exact .slip (.inr ⟨rfl, Nat.zero_le _⟩)
  | succ deep =>
    rw [Composing.readNode]
    apply (keeps_peek c).bind
    intro t _
    split
    · split
      · exact .ok (leads_pop c)
      · exact .malformed
    · apply (keeps_readProperties c).bind
      rintro ⟨properties, c⟩ _
      apply (keeps_fullTag c properties.tag).bind
      intro tag _
      apply (keeps_peek c).bind
      intro t ht
      split
      · apply (keeps_setAnchor c properties.anchor).bind
        intro c' _
        exact .ok ((leads_pop c').trans (leads_add c'.pop _))
      · exact keeps_collection ht rfl (h.flowItems deep true)
      · exact keeps_collection ht rfl (h.flowPairs deep true)
      · simp only [Bool.and_eq_true, decide_eq_true_eq]
        split
        · -- the first hyphen of such a sequence is left to its items
          apply (keeps_setAnchor c properties.anchor).bind
          intro c' _
          apply ((h.flushItems deep _).mono (leads_add c' _)).bind
          rintro ⟨items, last⟩ _
          exact .ok (leads_fill last _ _)
        · split
          · next hstart => exact keeps_collection ht (hstart.1 ▸ rfl) (h.blockItems deep)
          · split
            · next hstart => exact keeps_collection ht (hstart.1 ▸ rfl) (h.blockPairs deep)
            · split
              · apply (keeps_setAnchor c properties.anchor).bind
                intro c' _
                exact .ok (leads_add c' _)
              · exact .malformed

/-- So with any fuel reading nodes takes tokens only, and slips only by as many openings as there
are levels. -/
lemma keepsAt (fuel : Nat) : KeepsAt fuel := by
  induction fuel with
  | zero => exact keepsAt_zero
  | succ fuel ih =>
    exact {
      node := ih.readNode
      nodeUnless := ih.readNodeUnless
      blockItems := ih.readBlockItems
      flushItems := ih.readFlushItems
      blockPairs := ih.readBlockPairs
      flowItems := ih.readFlowItems
      flowPairs := ih.readFlowPairs }

/-! ## Documents -/

/-- Reading the directives of a document takes their tokens, and does not slip. -/
lemma keeps_readDirectives (fuel : Nat) (versioned : Bool) (c : Composing) :
    (nesting deep).Keeps c id (readDirectives fuel versioned c) := by
  induction fuel generalizing versioned c with
  | zero => exact .malformed
  | succ fuel ih =>
    rw [readDirectives]
    apply (keeps_peek c).bind
    intro t _
    split
    · split
      · exact .malformed
      · exact (ih true c.pop).mono (leads_pop c)
    · split
      · exact .malformed
      · refine Trail.Keeps.mono ?_ (ih versioned _)
        exact ⟨rfl, List.drop_suffix 1 _⟩
    · exact (ih versioned c.pop).mono (leads_pop c)
    · exact .ok ⟨rfl, List.suffix_refl _⟩

/-- After the document there must be an end or another document, which is malformed; neither
slips. -/
lemma ends_readStreamEnd (fuel : Nat) (c : Composing) :
    (nesting deep).Ends c (readStreamEnd fuel c) := by
  induction fuel generalizing c with
  | zero => exact .malformed
  | succ fuel ih =>
    rw [readStreamEnd]
    apply Trail.Ends.bind (keeps_peek c)
    intro t _
    split
    · exact (ih c.pop).mono (leads_pop c)
    · apply Trail.Ends.mono (t := { c with tokens := c.tokens.dropWhile isDirective })
      · exact ⟨rfl, List.dropWhile_suffix _⟩
      · apply Trail.Ends.bind (keeps_peek _)
        intro t _
        exact .malformed
    · exact .ok
    · exact .malformed

/-- What a document ends with, once its node is read. -/
lemma ends_finish (fuel : Nat) (id : NodeId) (c : Composing) :
    (nesting deep).Ends c (do
      readStreamEnd fuel c
      .ok (⟨c.nodes, some id⟩ : Graph)) := by
  intro slip hslip
  apply ends_readStreamEnd fuel c slip
  cases hend : readStreamEnd fuel c with
  | ok =>
    rw [hend] at hslip
    cases hslip
  | error problem =>
    rw [hend] at hslip
    cases hslip
    rfl

/-- A document with one root ends without a slip but that of its nesting. -/
lemma ends_root (fuel : Nat) (c : Composing) :
    (nesting depthLimit).Ends c (do
      let (id, c) ← readNode fuel depthLimit true false c
      readStreamEnd fuel c
      .ok (⟨c.nodes, some id⟩ : Graph)) := by
  apply Trail.Ends.bind ((keepsAt fuel).node depthLimit true false c)
  rintro ⟨id, c'⟩ _
  exact ends_finish fuel id c'

/-- An empty document ends like one with a node. -/
lemma ends_empty (fuel : Nat) (c : Composing) :
    (nesting deep).Ends c (do
      readStreamEnd fuel c.addEmpty.2
      .ok (⟨c.addEmpty.2.nodes, some c.addEmpty.1⟩ : Graph)) :=
  (ends_finish fuel c.addEmpty.1 c.addEmpty.2).mono (leads_add c _)

/-- A document that is declared begins with its directives. -/
lemma ends_declared (fuel : Nat) (c : Composing) :
    (nesting depthLimit).Ends c (do
      let c ← readDirectives fuel false { c with handles := [] }
      if (← c.peek) ≠ .documentStart then .error .malformed
      else
        match ← c.pop.peek with
        | .directive _ | .documentStart | .documentEnd | .streamEnd =>
          readStreamEnd fuel c.pop.addEmpty.2
          .ok (⟨c.pop.addEmpty.2.nodes, some c.pop.addEmpty.1⟩ : Graph)
        | _ =>
          let (id, c) ← readNode fuel depthLimit true false c.pop
          readStreamEnd fuel c
          .ok ⟨c.nodes, some id⟩) := by
  refine Trail.Ends.mono (⟨rfl, List.suffix_refl _⟩ : c.Leads { c with handles := [] }) ?_
  apply Trail.Ends.bind (keeps_readDirectives fuel false { c with handles := [] })
  intro c' _
  apply Trail.Ends.bind (keeps_peek c')
  intro t _
  split
  · exact .malformed
  · apply Trail.Ends.mono (leads_pop c')
    apply Trail.Ends.bind (keeps_peek c'.pop)
    intro t' _
    split
    · exact ends_empty fuel c'.pop
    · exact ends_empty fuel c'.pop
    · exact ends_empty fuel c'.pop
    · exact ends_empty fuel c'.pop
    · exact ends_root fuel c'.pop

/-- So does any document, be it empty, without a mark before it, or with directives. -/
lemma ends_readDocument (c : Composing) : (nesting depthLimit).Ends c (readDocument c) := by
  unfold readDocument
  apply Trail.Ends.bind (keeps_peek c)
  intro t _
  split
  · exact .ok
  · exact ends_declared _ c
  · exact ends_declared _ c
  · exact ends_root _ c

end Composing

/-- The nodes of a document slip with its text, or because they lie too deep. -/
lemma slip_of_graph {text : Stream} {slip : Slip}
    (h : Graph.ofStream text = .error (.unexpected slip)) :
    (tokensOf text).2 = .unexpected slip ∨
      slip = .tooDeep ∧ Composing.depthLimit ≤ openers (tokensOf text).1 :=
  Composing.ends_readDocument
    ⟨(tokensOf text).1, (tokensOf text).2, standardHandles, [], #[]⟩ slip h

end CrateGate.Yaml
