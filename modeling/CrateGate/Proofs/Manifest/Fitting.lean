import CrateGate.Proofs.Crate.Label
import CrateGate.Proofs.Manifest.Pins
import CrateGate.Proofs.Walk

/-!
# Entries of any name

The name of an entry may be a value of any type. Some values cannot be shown in a message, some are
no label, and some labels have no order among themselves: an entry may then end the reading of its
manifest in a slip (`EntrySlip`).

What has been gathered from entries stands for them up to labels that mean one thing (`Kept`). So
entries are gathered if and only if they fit together (`exists_collect_iff`), and a slip is that of
the first entry with one, if those before it fit (`collect_eq_slip_iff`). Sorting slips if they
are mixed (`collect_sortPins_eq_slip_iff`).
-/

namespace CrateGate.Manifest

open Discovery Version

variable {trim : String → String} {subject : Subject} {path : Path} {d : Option Datum}
  {v : Version} {crate : String} {e : Entry} {entries before rest : List Entry} {pin earlier : Pin}
  {pins pins' left right : List Pin} {slip : Slip} {w : Spelling}

/-! ## Declared versions -/

/-- A value declares a version: it is the text of one, apart from what is trimmed. -/
def Declares (trim : String → String) (d : Option Datum) (w : Spelling) : Prop :=
  ∃ s, d = some (.text s) ∧ w.Valid ∧ w.chars = (trim s).toList

/-- An entry is pinned at a version if and only if what it requires declares that version, after the
equals sign. -/
lemma pinnedAt_iff : PinnedAt e w ↔ Declares exactly e.version w := by
  unfold PinnedAt Declares
  simp only [requires_iff]

/-- A version is read if and only if it is declared in a valid spelling with numbers that can be
computed. -/
lemma readVersion_eq_ok_iff : readVersion trim subject path d = .ok v ↔
    ∃ w, Declares trim d w ∧ w.Short ∧ v = w.version := by
  constructor
  · intro h
    unfold readVersion at h
    split at h
    · next s =>
      split at h
      · next u hparse =>
        obtain rfl := Except.ok.inj h
        by_cases hspelled : ∃ w : Spelling, w.Valid ∧ w.chars = (trim s).toList
        · obtain ⟨w, hvalid, hchars⟩ := hspelled
          by_cases hshort : w.Short
          · rw [parse_eq_ok hvalid hshort hchars] at hparse
            exact ⟨w, ⟨s, rfl, hvalid, hchars⟩, hshort, (Except.ok.inj hparse).symm⟩
          · rw [parse_eq_oversized_iff.mpr ⟨w, hvalid, hchars, hshort⟩] at hparse
            cases hparse
        · rw [parse_eq_malformed_iff.mpr hspelled] at hparse
          cases hparse
      · cases h
      · cases h
    · cases h
  · rintro ⟨w, ⟨s, rfl, hvalid, hchars⟩, hshort, rfl⟩
    exact readVersion_of_valid trim subject path hvalid hshort hchars

/-- Reading a version slips on a number with more digits than are computed. -/
lemma readVersion_eq_slip_iff : readVersion trim subject path d = .error (.slip slip) ↔
    slip = .badValue ∧ ∃ w, Declares trim d w ∧ ¬w.Short := by
  constructor
  · intro h
    unfold readVersion at h
    split at h
    · next s =>
      split at h
      · cases h
      · next hparse =>
        obtain ⟨w, hvalid, hchars, hlong⟩ := parse_eq_oversized_iff.mp hparse
        cases h
        exact ⟨rfl, w, ⟨s, rfl, hvalid, hchars⟩, hlong⟩
      · cases h
    · cases h
  · rintro ⟨rfl, w, ⟨s, rfl, hvalid, hchars⟩, hlong⟩
    rw [readVersion, parse_eq_oversized_iff.mpr ⟨w, hvalid, hchars, hlong⟩]

/-! ## One entry -/

/-- An entry yields a pin: it can be shown, its name is the label of the pin, and it is pinned to
the version of the pin, which is computed. -/
structure Yields (e : Entry) (pin : Pin) : Prop where
  shown : e.subject.obstacle? = none
  label : Label.ofDatum? e.subject = some pin.label
  pinned : ∃ w, PinnedAt e w ∧ w.Short ∧ pin.version = w.version

/-- What is in the way of showing a name is a slip. -/
def obstacleSlip : Datum.Obstacle → Slip
  | .longInteger => .badValue
  | .deepNesting => .tooDeep

/-- Why an entry ends in a slip: its name cannot be shown, a number of its version has too many
digits, or its name is no label. -/
inductive EntrySlip (e : Entry) : Slip → Prop
  | hidden {obstacle : Datum.Obstacle} (hides : e.subject.obstacle? = some obstacle) :
      EntrySlip e (obstacleSlip obstacle)
  | longVersion {w : Spelling} (shown : e.subject.obstacle? = none) (pinned : PinnedAt e w)
      (long : ¬w.Short) : EntrySlip e .badValue
  | noLabel {w : Spelling} (shown : e.subject.obstacle? = none) (pinned : PinnedAt e w)
      (short : w.Short) (unlabelled : Label.ofDatum? e.subject = none) : EntrySlip e .badType

/-- An entry whose name cannot be shown slips, before anything else of it is looked at. -/
lemma readPin_of_hidden {obstacle : Datum.Obstacle} (crate : String) (path : Path)
    (hides : e.subject.obstacle? = some obstacle) :
    readPin crate path e = .error (.slip (obstacleSlip obstacle)) := by
  unfold readPin
  rw [hides]
  cases obstacle <;> rfl

/-- Where the name of an entry can be shown, its version is read, and then its label. -/
lemma readPin_of_shown (crate : String) (path : Path) (hshown : e.subject.obstacle? = none) :
    readPin crate path e =
      (readVersion exactly (.pin e.subject.plain crate) path e.version).bind fun version =>
        match Label.ofDatum? e.subject with
        | some label => .ok ⟨label, version⟩
        | none => .error (.slip .badType) := by
  unfold readPin
  rw [hshown]
  rfl

/-- An entry is read as the pin that it yields, and only then is it read. -/
lemma readPin_eq_ok_iff : readPin crate path e = .ok pin ↔ Yields e pin := by
  cases hobstacle : e.subject.obstacle? with
  | some obstacle =>
    rw [readPin_of_hidden crate path hobstacle]
    constructor
    · intro h
      cases h
    · intro h
      exact absurd (hobstacle.symm.trans h.shown) (Option.some_ne_none _)
  | none =>
    rw [readPin_of_shown crate path hobstacle, bind_eq_ok_iff]
    simp only [readVersion_eq_ok_iff, ← pinnedAt_iff]
    constructor
    · rintro ⟨version, ⟨w, hpinned, hshort, rfl⟩, h⟩
      split at h
      · next label hlabel =>
        obtain rfl := Except.ok.inj h
        exact ⟨hobstacle, hlabel, w, hpinned, hshort, rfl⟩
      · cases h
    · rintro ⟨-, hlabel, w, hpinned, hshort, hversion⟩
      refine ⟨pin.version, ⟨w, hpinned, hshort, hversion⟩, ?_⟩
      rw [hlabel]

/-- Reading an entry slips by just the reasons that an entry has for it. -/
lemma readPin_eq_slip_iff : readPin crate path e = .error (.slip slip) ↔ EntrySlip e slip := by
  cases hobstacle : e.subject.obstacle? with
  | some obstacle =>
    rw [readPin_of_hidden crate path hobstacle]
    constructor
    · intro h
      cases h
      exact .hidden hobstacle
    · intro h
      cases h with
      | hidden hides => rw [Option.some.inj (hobstacle.symm.trans hides)]
      | longVersion shown => exact absurd (hobstacle.symm.trans shown) (Option.some_ne_none _)
      | noLabel shown => exact absurd (hobstacle.symm.trans shown) (Option.some_ne_none _)
  | none =>
    rw [readPin_of_shown crate path hobstacle, bind_eq_error_iff]
    simp only [readVersion_eq_ok_iff, readVersion_eq_slip_iff, ← pinnedAt_iff]
    constructor
    · rintro (⟨rfl, w, hpinned, hlong⟩ | ⟨version, ⟨w, hpinned, hshort, -⟩, h⟩)
      · exact .longVersion hobstacle hpinned hlong
      · split at h
        · cases h
        · next hlabel =>
          cases h
          exact .noLabel hobstacle hpinned hshort hlabel
    · intro h
      cases h with
      | hidden hides => exact absurd (hides.symm.trans hobstacle) (Option.some_ne_none _)
      | longVersion _ hpinned hlong => exact .inl ⟨rfl, _, hpinned, hlong⟩
      | noLabel _ hpinned hshort hlabel =>
        refine .inr ⟨_, ⟨_, hpinned, hshort, rfl⟩, ?_⟩
        rw [hlabel]

/-! ## Adding a pin -/

/-- Adding a pin does not slip. -/
lemma addPin_ne_slip : addPin crate path pin pins ≠ .error (.slip slip) := by
  induction pins with
  | nil => exact nofun
  | cons earlier pins ih =>
    intro h
    rw [addPin] at h
    split at h
    · split at h <;> cases h
    · rcases bind_eq_error_iff.mp h with h | ⟨_, -, h⟩
      · exact ih h
      · cases h

/-- A pin comes last if none before it has its label; otherwise it takes the place of the first that
has, or is in conflict with that one. -/
lemma addPin_split (crate : String) (path : Path) (pin : Pin) (pins : List Pin) :
    ((∀ p ∈ pins, ¬p.label.same pin.label = true) ∧
        addPin crate path pin pins = .ok (pins ++ [pin])) ∨
      ∃ left earlier right, pins = left ++ earlier :: right ∧
        earlier.label.same pin.label = true ∧
        ((earlier.version = pin.version ∧
            addPin crate path pin pins = .ok (left ++ pin :: right)) ∨
          (earlier.version ≠ pin.version ∧
            ∃ fault, addPin crate path pin pins = .error fault)) := by
  cases hfind : pins.find? fun p => p.label.same pin.label with
  | none =>
    have habsent : ∀ p ∈ pins, ¬p.label.same pin.label = true := List.find?_eq_none.mp hfind
    exact .inl ⟨habsent, addPin_of_absent fun p hp => Bool.eq_false_iff.mpr (habsent p hp)⟩
  | some earlier =>
    obtain ⟨hsame, left, right, rfl, hleft⟩ := List.find?_eq_some_iff_append.mp hfind
    refine .inr ⟨left, earlier, right, rfl, hsame, ?_⟩
    rw [addPin_of_present (fun p hp => by simpa using hleft p hp) hsame]
    by_cases hversion : earlier.version = pin.version
    · rw [if_pos hversion]
      exact .inl ⟨hversion, rfl⟩
    · rw [if_neg hversion]
      exact .inr ⟨hversion, _, rfl⟩

/-! ## Entries that fit together -/

/-- Entries fit together if each yields a pin, and those that yield pins on one thing yield them at
one version. -/
structure Fits (entries : List Entry) : Prop where
  yields : ∀ e ∈ entries, ∃ pin, Yields e pin
  agree : ∀ e ∈ entries, ∀ e' ∈ entries, ∀ pin pin', Yields e pin → Yields e' pin' →
    pin.label.same pin'.label = true → pin.version = pin'.version

/-- An entry yields one pin. -/
lemma Yields.eq {pin' : Pin} (h : Yields e pin) (h' : Yields e pin') : pin = pin' := by
  obtain ⟨label, version⟩ := pin
  obtain ⟨label', version'⟩ := pin'
  obtain ⟨w, hpinned, -, hversion⟩ := h.pinned
  obtain ⟨w', hpinned', -, hversion'⟩ := h'.pinned
  obtain rfl : label = label' := Option.some.inj (h.label.symm.trans h'.label)
  rw [Pin.mk.injEq]
  exact ⟨rfl, hversion.trans ((congrArg _ (hpinned.eq hpinned')).trans hversion'.symm)⟩

/-- Entries that fit together do so without some of them. -/
lemma Fits.of_subset (h : Fits entries) (hsub : before ⊆ entries) : Fits before :=
  ⟨fun e he => h.yields e (hsub he), fun e he e' he' => h.agree e (hsub he) e' (hsub he')⟩

/-- A pin stands for another one: it has the same version, and the same label or one that means the
same. -/
def StandsFor (p pin : Pin) : Prop :=
  p.version = pin.version ∧ (p.label = pin.label ∨ p.label.same pin.label = true)

/-- What has been gathered from entries that fit: pins that they yield, and one that stands for each
of those. -/
structure Kept (entries : List Entry) (pins : List Pin) : Prop where
  fits : Fits entries
  yielded : ∀ p ∈ pins, ∃ e ∈ entries, Yields e p
  covered : ∀ e ∈ entries, ∀ pin, Yields e pin → ∃ p ∈ pins, StandsFor p pin

/-- Before the first entry there are no pins, and they are those kept of no entries. -/
lemma kept_nil : Kept [] [] :=
  ⟨⟨nofun, nofun⟩, nofun, nofun⟩

/-- One more entry fits if it is at the version of every pin on the same thing. -/
lemma Fits.concat (h : Fits before) (hyields : Yields e pin)
    (hagree : ∀ e' ∈ before, ∀ pin', Yields e' pin' → pin'.label.same pin.label = true →
      pin'.version = pin.version) : Fits (before ++ [e]) := by
  refine ⟨fun e₁ he₁ => ?_, fun e₁ he₁ e₂ he₂ pin₁ pin₂ hpin₁ hpin₂ hsame => ?_⟩
  · rcases List.mem_append.mp he₁ with he₁ | he₁
    · exact h.yields e₁ he₁
    · rw [List.mem_singleton.mp he₁]
      exact ⟨pin, hyields⟩
  · rcases List.mem_append.mp he₁ with he₁ | he₁ <;> rcases List.mem_append.mp he₂ with he₂ | he₂
    · exact h.agree e₁ he₁ e₂ he₂ pin₁ pin₂ hpin₁ hpin₂ hsame
    · rw [List.mem_singleton.mp he₂] at hpin₂
      obtain rfl := hpin₂.eq hyields
      exact hagree e₁ he₁ pin₁ hpin₁ hsame
    · rw [List.mem_singleton.mp he₁] at hpin₁
      obtain rfl := hpin₁.eq hyields
      exact (hagree e₂ he₂ pin₂ hpin₂ (Label.same_symm hsame)).symm
    · rw [List.mem_singleton.mp he₁] at hpin₁
      rw [List.mem_singleton.mp he₂] at hpin₂
      rw [hpin₁.eq hpin₂]

namespace Kept

/-- Gathering goes on with pins among which the new one is, if they are otherwise pins from before
and stand for all that was stood for. -/
lemma step (h : Kept before pins) (hyields : Yields e pin) (hfits : Fits (before ++ [e]))
    (hnew : pin ∈ pins') (hmem : ∀ p ∈ pins', p = pin ∨ p ∈ pins)
    (hstands : ∀ p ∈ pins, ∀ q, StandsFor p q → ∃ p' ∈ pins', StandsFor p' q) :
    Kept (before ++ [e]) pins' := by
  refine ⟨hfits, fun p hp => ?_, fun e' he' q hq => ?_⟩
  · rcases hmem p hp with rfl | hp
    · exact ⟨e, List.mem_append_right _ List.mem_cons_self, hyields⟩
    · obtain ⟨e', he', hyields'⟩ := h.yielded p hp
      exact ⟨e', List.mem_append_left _ he', hyields'⟩
  · rcases List.mem_append.mp he' with he' | he'
    · obtain ⟨p, hp, hstand⟩ := h.covered e' he' q hq
      exact hstands p hp q hstand
    · rw [List.mem_singleton.mp he'] at hq
      obtain rfl := hq.eq hyields
      exact ⟨q, hnew, rfl, .inl rfl⟩

/-- Gathering goes on with an entry on a thing that no pin is on. -/
lemma concat (h : Kept before pins) (hyields : Yields e pin)
    (habsent : ∀ p ∈ pins, ¬p.label.same pin.label = true) :
    Kept (before ++ [e]) (pins ++ [pin]) := by
  have hfits : Fits (before ++ [e]) := by
    refine h.fits.concat hyields fun e' he' q hq hsame => ?_
    -- the pin that stands for `q` would be on the thing of the new one
    obtain ⟨p, hp, -, hlabel | hlabel⟩ := h.covered e' he' q hq
    · exact absurd (hlabel ▸ hsame) (habsent p hp)
    · exact absurd (Label.same_trans hlabel hsame) (habsent p hp)
  refine h.step hyields hfits (by simp) (fun p hp => ?_) fun p hp q hstand => ?_
  · rw [List.mem_append, List.mem_singleton] at hp
    exact hp.symm
  · exact ⟨p, List.mem_append_left _ hp, hstand⟩

/-- Gathering goes on with an entry on a thing that a pin of its version is on: the new pin stands
for all that the one in its place stood for. -/
lemma replace (h : Kept before (left ++ earlier :: right)) (hyields : Yields e pin)
    (hsame : earlier.label.same pin.label = true) (hversion : earlier.version = pin.version) :
    Kept (before ++ [e]) (left ++ pin :: right) := by
  have hsame' : pin.label.same earlier.label = true := Label.same_symm hsame
  have hfits : Fits (before ++ [e]) := by
    refine h.fits.concat hyields fun e' he' q hq hqsame => ?_
    obtain ⟨e₀, he₀, hearlier⟩ :=
      h.yielded earlier (List.mem_append_right _ List.mem_cons_self)
    have hboth : q.label.same earlier.label = true := Label.same_trans hqsame hsame'
    exact (h.fits.agree e' he' e₀ he₀ q earlier hq hearlier hboth).trans hversion
  refine h.step hyields hfits (by simp) (fun p hp => ?_) fun p hp q hstand => ?_
  · simp only [List.mem_append, List.mem_cons] at hp ⊢
    tauto
  · by_cases hp' : p = earlier
    · subst hp'
      refine ⟨pin, by simp, hversion.symm.trans hstand.1, .inr ?_⟩
      rcases hstand.2 with hlabel | hlabel
      · rw [← hlabel]
        exact hsame'
      · exact Label.same_trans hsame' hlabel
    · refine ⟨p, ?_, hstand⟩
      simp only [List.mem_append, List.mem_cons, hp', false_or] at hp ⊢
      tauto

/-- **One entry more**: its pin is gathered, or the entries no longer fit together. -/
lemma addPin_cases (h : Kept before pins) (crate : String) (path : Path)
    (hyields : Yields e pin) :
    (∃ pins', addPin crate path pin pins = .ok pins' ∧ Kept (before ++ [e]) pins') ∨
      (¬Fits (before ++ [e]) ∧ ∃ fault, addPin crate path pin pins = .error fault) := by
  rcases addPin_split crate path pin pins with ⟨habsent, hadd⟩ |
    ⟨left, earlier, right, rfl, hsame, ⟨hversion, hadd⟩ | ⟨hversion, hadd⟩⟩
  · exact .inl ⟨_, hadd, h.concat hyields habsent⟩
  · exact .inl ⟨_, hadd, h.replace hyields hsame hversion⟩
  · obtain ⟨e₀, he₀, hearlier⟩ :=
      h.yielded earlier (List.mem_append_right _ List.mem_cons_self)
    refine .inr ⟨fun hfits => hversion ?_, hadd⟩
    exact hfits.agree e₀ (List.mem_append_left _ he₀) e
      (List.mem_append_right _ List.mem_cons_self) earlier pin hearlier hyields hsame

end Kept

/-! ## Gathering -/

/-- One step of gathering: an entry is read, and its pin is added. -/
def gather (crate : String) (path : Path) (pins : List Pin) (e : Entry) :
    Except Fault (List Pin) := do
  let pin ← readPin crate path e
  addPin crate path pin pins

/-- Gathering pins is a walk over the entries, so what is known of walks holds of it. -/
lemma collect_eq_foldlM :
    collect crate path pins entries = entries.foldlM (gather crate path) pins := by
  induction entries generalizing pins with
  | nil => rfl
  | cons e entries ih =>
    have hstep : collect crate path pins (e :: entries) = (readPin crate path e).bind fun pin =>
        (addPin crate path pin pins).bind fun pins => collect crate path pins entries := rfl
    have hgather : gather crate path pins e =
        (readPin crate path e).bind fun pin => addPin crate path pin pins := rfl
    rw [hstep, foldlM_cons_eq, hgather]
    cases readPin crate path e with
    | error fault => rfl
    | ok pin =>
      simp only [Except.bind]
      cases addPin crate path pin pins with
      | error fault => rfl
      | ok pins => exact ih

/-- A step of gathering goes well if and only if the entry yields a pin and that pin can be
added. -/
lemma gather_eq_ok_iff : gather crate path pins e = .ok pins' ↔
    ∃ pin, Yields e pin ∧ addPin crate path pin pins = .ok pins' := by
  show (readPin crate path e).bind (fun pin => addPin crate path pin pins) = .ok pins' ↔ _
  simp only [bind_eq_ok_iff, readPin_eq_ok_iff]

/-- A step of gathering slips by the entry alone: adding a pin does not slip. -/
lemma gather_eq_slip_iff : gather crate path pins e = .error (.slip slip) ↔ EntrySlip e slip := by
  show (readPin crate path e).bind (fun pin => addPin crate path pin pins) = _ ↔ _
  simp only [bind_eq_error_iff, readPin_eq_slip_iff, addPin_ne_slip, and_false, exists_false,
    or_false]

/-- What is gathered of entries from nothing are the pins that are kept of them. -/
lemma kept_of_collect (h : collect crate path [] entries = .ok pins) : Kept entries pins := by
  rw [collect_eq_foldlM] at h
  have hstep : ∀ before e pins pins', Kept before pins → gather crate path pins e = .ok pins' →
      Kept (before ++ [e]) pins' := by
    intro before e pins pins' hkept hgather
    obtain ⟨pin, hyields, hadd⟩ := gather_eq_ok_iff.mp hgather
    rcases hkept.addPin_cases crate path hyields with ⟨added, hadd', hkept'⟩ | ⟨-, fault, hadd'⟩
    · rw [Except.ok.inj (hadd.symm.trans hadd')]
      exact hkept'
    · cases hadd.symm.trans hadd'
  exact foldlM_keeps hstep kept_nil h

/-- **Entries are gathered if and only if they fit together.** -/
theorem exists_collect_iff :
    (∃ pins, collect crate path [] entries = .ok pins) ↔ Fits entries := by
  constructor
  · rintro ⟨pins, h⟩
    exact (kept_of_collect h).fits
  · intro hfits
    cases hcollect : collect crate path [] entries with
    | ok pins => exact ⟨pins, rfl⟩
    | error fault =>
      rw [collect_eq_foldlM] at hcollect
      obtain ⟨before, e, after, rfl, pins, hbefore, hgather⟩ := foldlM_eq_error_iff.mp hcollect
      rw [← collect_eq_foldlM] at hbefore
      have hfits' : Fits (before ++ [e]) := hfits.of_subset (by simp)
      obtain ⟨pin, hyields⟩ :=
        hfits'.yields e (List.mem_append_right _ List.mem_cons_self)
      rcases (kept_of_collect hbefore).addPin_cases crate path hyields with ⟨pins', hadd, -⟩ |
        ⟨hnot, -⟩
      · cases hgather.symm.trans (gather_eq_ok_iff.mpr ⟨pin, hyields, hadd⟩)
      · exact absurd hfits' hnot

/-- Gathering slips on the first entry with a slip, if those before it fit together. -/
lemma collect_eq_slip_iff : collect crate path [] entries = .error (.slip slip) ↔
    ∃ before e after, entries = before ++ e :: after ∧ Fits before ∧ EntrySlip e slip := by
  rw [collect_eq_foldlM, foldlM_eq_error_iff]
  simp only [gather_eq_slip_iff, exists_and_right, ← collect_eq_foldlM, exists_collect_iff]

/-! ## Sorting -/

/-- Entries are mixed if two of them yield pins on labels of different kinds. -/
def Mixed (entries : List Entry) : Prop :=
  ∃ e ∈ entries, ∃ e' ∈ entries, ∃ pin pin', Yields e pin ∧ Yields e' pin' ∧
    pin.label.kind ≠ pin'.label.kind

/-- Pins cannot be sorted if their labels are of different kinds. -/
lemma sortPins_eq_slip_iff : sortPins pins = .error (.slip slip) ↔
    slip = .badType ∧ ∃ p ∈ pins, ∃ q ∈ pins, p.label.kind ≠ q.label.kind := by
  cases pins with
  | nil =>
    constructor
    · intro h
      cases h
    · rintro ⟨-, p, hp, -⟩
      exact absurd hp List.not_mem_nil
  | cons first others =>
    have hcomparable : (others.all fun p => (first.label.compare? p.label).isSome) = true ↔
        ∀ p ∈ others, first.label.kind = p.label.kind := by
      simp only [List.all_eq_true, Label.compare?_isSome_iff]
    unfold sortPins
    simp only
    split
    · next hall =>
      have hkind : ∀ p ∈ first :: others, p.label.kind = first.label.kind :=
        List.forall_mem_cons.mpr ⟨rfl, fun p hp => (hcomparable.mp hall p hp).symm⟩
      constructor
      · intro h
        cases h
      · rintro ⟨-, p, hp, q, hq, hne⟩
        exact absurd ((hkind p hp).trans (hkind q hq).symm) hne
    · next hall =>
      rw [hcomparable] at hall
      push Not at hall
      obtain ⟨p, hp, hne⟩ := hall
      constructor
      · intro h
        cases h
        exact ⟨rfl, first, List.mem_cons_self, p, List.mem_cons_of_mem _ hp, hne⟩
      · rintro ⟨rfl, -⟩
        rfl

/-- A pin is of the kind of the pins that it stands for. -/
lemma StandsFor.kind_eq {p : Pin} (h : StandsFor p pin) : p.label.kind = pin.label.kind := by
  rcases h.2 with hlabel | hlabel
  · rw [hlabel]
  · exact Label.kind_eq_of_same hlabel

/-- What has been gathered is of several kinds if the entries are. -/
lemma Kept.mixed_iff (h : Kept entries pins) :
    (∃ p ∈ pins, ∃ q ∈ pins, p.label.kind ≠ q.label.kind) ↔ Mixed entries := by
  constructor
  · rintro ⟨p, hp, q, hq, hne⟩
    obtain ⟨e, he, hyields⟩ := h.yielded p hp
    obtain ⟨e', he', hyields'⟩ := h.yielded q hq
    exact ⟨e, he, e', he', p, q, hyields, hyields', hne⟩
  · rintro ⟨e, he, e', he', pin, pin', hyields, hyields', hne⟩
    obtain ⟨p, hp, hstands⟩ := h.covered e he pin hyields
    obtain ⟨q, hq, hstands'⟩ := h.covered e' he' pin' hyields'
    rw [← hstands.kind_eq, ← hstands'.kind_eq] at hne
    exact ⟨p, hp, q, hq, hne⟩

/-- Why the pins of entries cannot be read: the first entry with a slip comes after entries that fit
together, or all fit and cannot be sorted. -/
inductive PinsSlip (entries : List Entry) : Slip → Prop
  | entry {before : List Entry} {e : Entry} {after : List Entry} {slip : Slip}
      (split : entries = before ++ e :: after) (fits : Fits before) (slips : EntrySlip e slip) :
      PinsSlip entries slip
  | unsorted (fits : Fits entries) (mixed : Mixed entries) : PinsSlip entries .badType

/-- **When reading pins slips.** -/
theorem collect_sortPins_eq_slip_iff :
    (collect crate path [] entries).bind sortPins = .error (.slip slip) ↔
      PinsSlip entries slip := by
  rw [bind_eq_error_iff, collect_eq_slip_iff]
  constructor
  · rintro (⟨before, e, after, hsplit, hfits, hslip⟩ | ⟨pins, hcollect, hsort⟩)
    · exact .entry hsplit hfits hslip
    · obtain ⟨rfl, hmixed⟩ := sortPins_eq_slip_iff.mp hsort
      have hkept : Kept entries pins := kept_of_collect hcollect
      exact .unsorted hkept.fits (hkept.mixed_iff.mp hmixed)
  · intro h
    cases h with
    | entry hsplit hfits hslip => exact .inl ⟨_, _, _, hsplit, hfits, hslip⟩
    | unsorted hfits hmixed =>
      obtain ⟨pins, hcollect⟩ := exists_collect_iff.mpr hfits
      have hkept : Kept entries pins := kept_of_collect hcollect
      exact .inr ⟨pins, hcollect, sortPins_eq_slip_iff.mpr ⟨rfl, hkept.mixed_iff.mpr hmixed⟩⟩

/-- A name and a number have no order. -/
example : PinsSlip [⟨.text "a", some (.text "1.0.0")⟩, ⟨.atom (.integer 1), some (.text "1.0.0")⟩]
    .badType := by
  have hcollect : (collect "b" ⟨[]⟩ [] [⟨.text "a", some (.text "1.0.0")⟩,
      ⟨.atom (.integer 1), some (.text "1.0.0")⟩]).bind sortPins = .error (.slip .badType) := by
    decide +kernel
  exact collect_sortPins_eq_slip_iff.mp hcollect

end CrateGate.Manifest
