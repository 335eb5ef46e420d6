import CrateGate.Proofs.Files.Tree
import CrateGate.Proofs.Path
import CrateGate.Proofs.Walk

/-!
# Looking at a disk

Where a relative path leads on a disk is the end of its parts as a way down the tree in which the
reader stands, unless the path is too long to be looked up (`look_cases`). A file that is found so
is read as its text, with every line ending in `\n` (`read_of_look`).
-/

namespace CrateGate

namespace Path

variable {location p : Path} {name : String} {more : List String}

/-- A path of one name does not start at the root, unless the name is the slash itself. -/
lemma isAbsolute_singleton (h : '/' ∉ name.toList) : (⟨[name]⟩ : Path).isAbsolute = false :=
  isRoot_eq_false h

/-- Names without a slash behind a relative path make a relative path. -/
lemma isAbsolute_append (hrelative : location.isAbsolute = false)
    (hmore : ∀ part ∈ more, '/' ∉ part.toList) :
    (⟨location.parts ++ more⟩ : Path).isAbsolute = false := by
  unfold isAbsolute at hrelative ⊢
  cases hparts : location.parts with
  | cons part parts =>
    rw [hparts] at hrelative
    exact hrelative
  | nil =>
    cases more with
    | nil => rfl
    | cons part more => exact isRoot_eq_false (hmore part List.mem_cons_self)

/-- Names without a slash behind a path leave it absolute or relative as it is. -/
lemma isAbsolute_below (hmore : ∀ part ∈ more, '/' ∉ part.toList) :
    (⟨location.parts ++ more⟩ : Path).isAbsolute = location.isAbsolute := by
  cases habsolute : location.isAbsolute with
  | false => exact isAbsolute_append habsolute hmore
  | true =>
    unfold isAbsolute at habsolute ⊢
    cases hparts : location.parts with
    | nil =>
      rw [hparts] at habsolute
      cases habsolute
    | cons part parts => rwa [hparts] at habsolute

/-- A path has no more bytes than the path one part further down, unless it is the path of no
parts. -/
lemma utf8ByteSize_render_le (hne : p.parts ≠ []) (name : String) :
    p.render.utf8ByteSize ≤ (p.child name).render.utf8ByteSize := by
  have hjoin (parts : List String) : ("/".intercalate parts).utf8ByteSize ≤
      ("/".intercalate (parts ++ [name])).utf8ByteSize := by
    by_cases hparts : parts = []
    · rw [hparts, String.intercalate_nil]
      exact Nat.zero_le _
    · rw [String.intercalate_append_of_ne_nil hparts (List.cons_ne_nil _ _),
        String.utf8ByteSize_append, String.utf8ByteSize_append]
      omega
  obtain ⟨first, rest, hparts⟩ := List.exists_cons_of_ne_nil hne
  rw [render, render, child, hparts, List.cons_append]
  dsimp only
  split
  · rw [String.utf8ByteSize_append, String.utf8ByteSize_append]
    exact Nat.add_le_add_left (hjoin rest) _
  · exact hjoin (first :: rest)

end Path

namespace Files.Disk

open Entry

variable {d : Disk} {tree e : Entry} {m : Memory} {p location : Path} {way parts : List String}
  {name s text : String} {children : List (String × Entry)}

/-- A path is too long to be looked up: it is as a whole, or one of its parts is. -/
def TooLong (p : Path) : Prop :=
  pathLimit ≤ p.render.utf8ByteSize ∨ ∃ part ∈ p.parts, nameLimit < part.utf8ByteSize

/-- A path that is too long stays so with a name more: a long name is still in it, and the whole has
only grown. -/
lemma TooLong.child (h : TooLong p) (hne : p.parts ≠ []) (name : String) :
    TooLong (p.child name) := by
  rcases h with h | ⟨part, hpart, h⟩
  · exact .inl (Nat.le_trans h (Path.utf8ByteSize_render_le hne name))
  · exact .inr ⟨part, List.mem_append_left _ hpart, h⟩

/-- A step by a name that the directory has leads on to what is there, except for the name that
leads upwards. -/
lemma step_of_lookup_eq_some {part : String} {child : Entry}
    (hway : d.root.at? way = some (.folder children)) (hpart : part ≠ "..")
    (hlookup : children.lookup part = some child) : d.step way part = .ok (way ++ [part]) := by
  rw [step, hway]
  simp only [hpart, if_false, hlookup, Option.isSome_some, if_true]

/-- A step by a name that the directory does not have fails, and a name that no directory can have
fails as such. -/
lemma step_of_lookup_eq_none {part : String} (hway : d.root.at? way = some (.folder children))
    (hpart : part ≠ "..") (hlookup : children.lookup part = none) :
    d.step way part =
      .error (if nameLimit < part.utf8ByteSize then .nameTooLong else .missing) := by
  rw [step, hway]
  simp only [hpart, if_false, hlookup, Option.isSome_none, Bool.false_eq_true]
  split <;> rfl

/-- Steps without `..` lead down, and go wrong where nothing stands. -/
lemma foldlM_step_cases (hway : d.root.at? way = some e) (hup : ".." ∉ parts) :
    (parts.foldlM d.step way = .ok (way ++ parts) ∧ (e.at? parts).isSome) ∨
      e.at? parts = none ∧ ∃ slip, parts.foldlM d.step way = .error slip ∧
        (slip = .nameTooLong → ∃ part ∈ parts, nameLimit < part.utf8ByteSize) := by
  induction parts generalizing way e with
  | nil => exact .inl ⟨by rw [List.append_nil]; rfl, rfl⟩
  | cons part parts ih =>
    have hpart : part ≠ ".." := (List.ne_of_not_mem_cons hup).symm
    have hfold : (part :: parts).foldlM d.step way =
        (d.step way part).bind fun next => parts.foldlM d.step next := rfl
    rw [hfold]
    cases e with
    | file bytes =>
      refine .inr ⟨rfl, .notDirectory, ?_, fun h => nomatch h⟩
      rw [step, hway, Except.bind]
    | folder children =>
      have hat (more : List String) : (folder children).at? (part :: more) =
          (children.lookup part).bind (at? more) := rfl
      cases hlookup : children.lookup part with
      | none =>
        rw [step_of_lookup_eq_none hway hpart hlookup, Except.bind]
        refine .inr ⟨by rw [hat, hlookup]; rfl, _, rfl, fun hlong => ?_⟩
        split at hlong
        · next hsize => exact ⟨part, List.mem_cons_self, hsize⟩
        · cases hlong
      | some child =>
        have hnext : d.root.at? (way ++ [part]) = some child := by
          rw [at?_concat hway, hlookup]
        rw [step_of_lookup_eq_some hway hpart hlookup, Except.bind, hat, hlookup]
        rcases ih hnext (List.not_mem_of_not_mem_cons hup) with ⟨hok, hsome⟩ |
          ⟨hnone, slip, herror, hlong⟩
        · refine .inl ⟨?_, hsome⟩
          rw [hok, List.append_assoc, List.singleton_append]
        · refine .inr ⟨hnone, slip, herror, fun h => ?_⟩
          obtain ⟨q, hq, hsize⟩ := hlong h
          exact ⟨q, List.mem_cons_of_mem _ hq, hsize⟩

/-- A path below another one is followed from where that one leads. -/
lemma resolve_below {base : List String} (hbase : d.resolve location = .ok base)
    (habsolute : (⟨location.parts ++ way⟩ : Path).isAbsolute = location.isAbsolute)
    (hcheck : checkPath ⟨location.parts ++ way⟩ = .ok ()) :
    d.resolve ⟨location.parts ++ way⟩ = way.foldlM d.step base := by
  obtain ⟨⟨⟩, hlocation, hfold⟩ := bind_eq_ok_iff.mp hbase
  have hresolve : d.resolve ⟨location.parts ++ way⟩ =
      if location.isAbsolute then ((location.parts ++ way).drop 1).foldlM d.step []
      else (location.parts ++ way).foldlM d.step d.standing := by
    simp only [resolve, hcheck, habsolute]
    rfl
  rw [hresolve]
  split at hfold
  · next habsolute =>
    have hne : 1 ≤ location.parts.length := by
      unfold Path.isAbsolute at habsolute
      cases hparts : location.parts with
      | nil =>
        rw [hparts] at habsolute
        cases habsolute
      | cons part parts => simp
    rw [if_pos habsolute, List.drop_append_of_le_length hne, List.foldlM_append, hfold]
    rfl
  · next hrelative =>
    rw [if_neg hrelative, List.foldlM_append, hfold]
    rfl

/-- A path passes its check, or the character zero is in one of its parts, or it is too long as a
whole. -/
lemma checkPath_cases (p : Path) :
    checkPath p = .ok () ∨
      checkPath p = .error .badValue ∧ (∃ part ∈ p.parts, '\x00' ∈ part.toList) ∨
      checkPath p = .error .nameTooLong ∧ TooLong p := by
  unfold checkPath
  split
  · next hzero =>
    obtain ⟨part, hpart, hcontains⟩ := List.any_eq_true.mp hzero
    exact .inr (.inl ⟨rfl, part, hpart, List.contains_iff_mem.mp hcontains⟩)
  · split
    · next hlong => exact .inr (.inr ⟨rfl, .inl hlong⟩)
    · exact .inl rfl

/-- A path that does not pass its check is not followed. -/
lemma resolve_of_checkPath_error {slip : Slip} (h : checkPath p = .error slip) :
    d.resolve p = .error slip := by
  rw [resolve, h]
  rfl

/-- No part of a path that is followed has the character zero in it. -/
lemma zero_notMem_of_resolve {base : List String} (h : d.resolve p = .ok base) :
    ∀ part ∈ p.parts, '\x00' ∉ part.toList := by
  intro part hpart hzero
  have hany : (p.parts.any fun part => part.toList.contains '\x00') = true :=
    List.any_eq_true.mpr ⟨part, hpart, List.contains_iff_mem.mpr hzero⟩
  have herror : checkPath p = .error .badValue := by rw [checkPath, if_pos hany]
  cases h.symm.trans (resolve_of_checkPath_error herror)

/-- An entry is found by following the path to the way down to it. -/
lemma exists_resolve_of_look (h : d.look p = .ok (some e)) :
    ∃ base, d.resolve p = .ok base ∧ d.root.at? base = some e := by
  rw [look] at h
  split at h
  · next base hbase => exact ⟨base, hbase, Except.ok.inj h⟩
  · cases h
  · cases h

/-- Nothing is found where a path cannot be followed for another reason than its length. -/
lemma look_of_resolve_error {slip : Slip} (h : d.resolve p = .error slip)
    (hslip : slip ≠ .nameTooLong) : d.look p = .ok none := by
  rw [look, h]
  split
  · next heq => cases heq
  · next heq => exact absurd (Except.error.inj heq) hslip
  · rfl

/-- **Where a path below an entry leads**: to what stands there in the entry, unless it is too
long. -/
lemma look_below_cases (hlook : d.look location = .ok (some e)) (h : e.Sound)
    (habsolute : p.isAbsolute = location.isAbsolute) (hup : ".." ∉ way)
    (hp : p = ⟨location.parts ++ way⟩) :
    d.look p = .ok (e.at? way) ∨ d.look p = .error .nameTooLong ∧ TooLong p := by
  obtain ⟨base, hbase, hat⟩ := exists_resolve_of_look hlook
  rcases checkPath_cases p with hcheck | ⟨herror, part, hpart, hzero⟩ | ⟨herror, hlong⟩
  · have hresolve : d.resolve p = way.foldlM d.step base := by
      subst hp
      exact resolve_below hbase habsolute hcheck
    rcases foldlM_step_cases hat hup with ⟨hok, -⟩ | ⟨hnone, slip, herror, hname⟩
    · left
      rw [look, hresolve, hok]
      exact congrArg Except.ok (at?_append_of_eq_some hat way)
    · by_cases hslip : slip = .nameTooLong
      · subst hslip
        obtain ⟨part, hpart, hsize⟩ := hname rfl
        have hmem : part ∈ p.parts := hp ▸ List.mem_append_right _ hpart
        exact .inr ⟨by rw [look, hresolve, herror], .inr ⟨part, hmem, hsize⟩⟩
      · left
        rw [look_of_resolve_error (hresolve.trans herror) hslip, hnone]
  · -- the character zero is in a name below, and nothing has such a name
    have hway : part ∈ way := by
      subst hp
      exact (List.mem_append.mp hpart).resolve_left fun hmem =>
        zero_notMem_of_resolve hbase part hmem hzero
    have hnone : e.at? way = none := by
      rw [← Option.not_isSome_iff_eq_none]
      intro hsome
      exact (h.properName hsome part hway).zero hzero
    left
    rw [look_of_resolve_error (resolve_of_checkPath_error herror) Slip.noConfusion, hnone]
  · right
    exact ⟨by rw [look, resolve_of_checkPath_error herror], hlong⟩

/-- **Where a relative path without `..` leads**, unless it is too long: to what stands there in the
tree in which the reader stands. -/
lemma look_cases (hstanding : d.root.at? d.standing = some tree) (h : tree.Holds m)
    (hrelative : p.isAbsolute = false) (hup : ".." ∉ p.parts) :
    d.look p = .ok (tree.at? p.parts) ∨ d.look p = .error .nameTooLong ∧ TooLong p := by
  have hhere : d.resolve .here = .ok d.standing := rfl
  have hlook : d.look .here = .ok (some tree) := by
    rw [look, hhere]
    exact congrArg Except.ok hstanding
  exact look_below_cases hlook h.sound hrelative hup rfl

/-- Where no entry has a name, that cannot be said if the name is too long. -/
lemma look_eq_nameTooLong (hname : ProperName name) (hlow : nameLimit < name.utf8ByteSize)
    (hhigh : name.utf8ByteSize < pathLimit)
    (hstanding : d.root.at? d.standing = some (.folder children))
    (hnone : children.lookup name = none) : d.look ⟨[name]⟩ = .error .nameTooLong := by
  have hrender : (⟨[name]⟩ : Path).render = name := by
    simp only [Path.render, Path.isRoot_eq_false hname.slash]
    rfl
  have hcheck : checkPath ⟨[name]⟩ = .ok () := by
    rw [checkPath, hrender, if_neg, if_neg (Nat.not_le.mpr hhigh)]
    simpa using hname.zero
  have hstep : d.step d.standing name = .error .nameTooLong := by
    rw [step_of_lookup_eq_none hstanding hname.ne_up hnone, if_pos hlow]
  have hresolve : d.resolve ⟨[name]⟩ = .error .nameTooLong := by
    rw [resolve, hcheck, Path.isAbsolute_singleton hname.slash]
    change (d.step d.standing name).bind .ok = _
    rw [hstep, Except.bind]
  rw [look, hresolve]

/-! ## Reading -/

/-- The bytes of a text decode to that text; so a tree laid out on disk reads as it does in
memory. -/
lemma fromUTF8?_toUTF8 (text : String) : String.fromUTF8? text.toUTF8 = some text :=
  dif_pos text.isValidUTF8

/-- A file that is found by a path is read by it. -/
lemma read_of_look (hlook : d.look p = .ok (some (.file text.toUTF8))) :
    d.read p = .ok (String.ofList (Text.universalNewlines text.toList)) := by
  obtain ⟨way, hresolve, hat⟩ := exists_resolve_of_look hlook
  have hbytes : d.readBytes p = .ok text.toUTF8 := by
    simp only [readBytes, hresolve, bind, Except.bind, hat]
  simp only [read, hbytes, bind, Except.bind, fromUTF8?_toUTF8]

end Files.Disk

end CrateGate
