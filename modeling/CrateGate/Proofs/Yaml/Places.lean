import CrateGate.Proofs.Yaml.Trail
import CrateGate.Yaml.Tokens

/-!
# Places that come later

Wherever a text is read on from a place, what is left after that is an end of what was left before.
-/

namespace CrateGate.Yaml

open Cursor

variable {c c' c'' : Cursor} {test : Char → Bool}

namespace Cursor

/-- A place comes after another one: what is left there is an end of what is left here. -/
def Leads (c c' : Cursor) : Prop :=
  c'.rest <:+ c.rest

/-- Every cursor leads to itself, by reading nothing. -/
lemma Leads.refl (c : Cursor) : c.Leads c :=
  List.suffix_refl _

/-- To read on from where one has read to is to read on from the start. -/
lemma Leads.trans (h : c.Leads c') (h' : c'.Leads c'') : c.Leads c'' :=
  List.IsSuffix.trans h' h

/-- One character on, the first character of the rest is gone; a line break of two characters goes
character by character. -/
lemma rest_next (c : Cursor) : c.next.rest = c.rest.tail := by
  unfold next
  split
  · next hrest => simp [hrest]
  · next x rest hrest =>
    simp only [hrest, List.tail_cons]
    split
    · rfl
    · split <;> rfl

/-- So many characters on, as many characters of the rest are gone. -/
lemma rest_skip (n : Nat) (c : Cursor) : (c.skip n).rest = c.rest.drop n := by
  induction n generalizing c with
  | zero => rfl
  | succ n ih => rw [skip, ih, rest_next, List.drop_tail]

/-- Reading one character leads on. -/
lemma leads_next (c : Cursor) : c.Leads c.next := by
  rw [Leads, rest_next]
  exact List.tail_suffix _

/-- Reading a number of characters leads on. -/
lemma leads_skip (n : Nat) (c : Cursor) : c.Leads (c.skip n) := by
  rw [Leads, rest_skip]
  exact List.drop_suffix _ _

/-- Reading the characters that pass a test leads on, to the first that does not. -/
lemma leads_span (test : Char → Bool) (c : Cursor) : c.Leads (c.span test).2 :=
  leads_skip _ c

/-- Skipping the characters that pass a test leads on in the same way. -/
lemma leads_skipWhile (test : Char → Bool) (c : Cursor) : c.Leads (c.skipWhile test) :=
  leads_span test c

/-- Skipping blanks leads on, to the first character that is none. -/
lemma leads_skipBlanks (c : Cursor) : c.Leads c.skipBlanks :=
  leads_skipWhile _ c

/-- Skipping what is left of a line leads on, to its end. -/
lemma leads_skipLine (c : Cursor) : c.Leads c.skipLine :=
  leads_skipWhile _ c

/-- Reading a line break leads on, also where there is none and nothing is read. -/
lemma leads_lineBreak (c : Cursor) : c.Leads c.lineBreak.2 := by
  unfold lineBreak
  simp only
  split
  · exact leads_skip 2 c
  · split
    · exact leads_next c
    · split
      · exact leads_next c
      · exact .refl c

/-- What is left at a place that is not the end starts with the next character. -/
lemma rest_eq_cons (h : c.rest.isEmpty = false) : c.rest = c.peek :: c.next.rest := by
  rw [rest_next, peek]
  cases hrest : c.rest with
  | nil =>
    rw [hrest] at h
    cases h
  | cons x rest => rfl

end Cursor

/-! ## Block scalars -/

/-- Reading the empty lines before a block scalar leads on, while their blanks are counted. -/
lemma leads_leadingBreaks (fuel widest : Nat) (c : Cursor) :
    c.Leads (leadingBreaks fuel widest c).2.2 := by
  induction fuel generalizing widest c with
  | zero => exact .refl c
  | succ fuel ih =>
    rw [leadingBreaks]
    split
    · exact (leads_next c).trans (ih _ c.next)
    · split
      · exact (leads_lineBreak c).trans (ih _ _)
      · exact .refl c

/-- Skipping the indentation of a line leads on, by as many blanks as the block has at most. -/
lemma leads_skipIndent (indent : Nat) (c : Cursor) : c.Leads (skipIndent indent c) :=
  leads_skip _ c

/-- Reading the empty lines inside of a block scalar leads on. -/
lemma leads_blockBreaks (indent fuel : Nat) (c : Cursor) :
    c.Leads (blockBreaks indent fuel c).2 := by
  induction fuel generalizing c with
  | zero => exact .refl c
  | succ fuel ih =>
    have hindent := leads_skipIndent indent c
    rw [blockBreaks]
    simp only
    split
    · exact (hindent.trans (leads_lineBreak _)).trans (ih _)
    · exact hindent

/-- Reading the lines of a block scalar leads on, up to the line that is indented less. -/
lemma leads_readBlockLines (folded : Bool) (indent fuel : Nat) (breaks : List Char)
    (c : Cursor) : c.Leads (readBlockLines folded indent fuel breaks c).2.2.2 := by
  induction fuel generalizing breaks c with
  | zero => exact .refl c
  | succ fuel ih =>
    rw [readBlockLines]
    split
    · exact .refl c
    · have hline := leads_span (fun x => !isLineEnd x) c
      have hbreak := hline.trans (leads_lineBreak _)
      have hempty := hbreak.trans (leads_blockBreaks indent
        ((c.span fun x => !isLineEnd x).2.lineBreak.2.rest.length + 1) _)
      simp only
      split
      · exact hempty.trans (ih _ _)
      · exact hempty

end CrateGate.Yaml
