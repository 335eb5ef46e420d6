import CrateGate.Proofs.Yaml.Places

/-!
# Slips in the text of a document

While the tokens of a text are read, there are two reasons for a slip: a number in a directive that
has too many digits, and an escape with a code that is no character (`TextSlip`). Everything else
that goes wrong is that the text is no document. So if the tokens end in a slip, it is that of the
stream or there is such a reason in its characters (`textSlip_of_tokensOf`).
-/

namespace CrateGate.Yaml

open Cursor

variable {c : Cursor} {r : Reading} {slip : Slip}

/-- Why the characters of a text slip. -/
inductive TextSlip (cs : List Char) : Slip → Prop
  | longNumber {digits : List Char} (place : digits <:+: cs)
      (digit : ∀ c ∈ digits, c.isDigit = true) (long : Text.digitLimit < digits.length) :
    TextSlip cs .badValue
  | escape {mark : Char} {digits : List Char} {slip : Slip}
      (place : '\\' :: mark :: digits <:+: cs) (length : codeLength? mark = some digits.length)
      (code : letterOfCode digits = unexpected slip) : TextSlip cs slip

/-- What slips in a part of a text slips in the text. -/
lemma TextSlip.mono {cs cs' : List Char} (h : TextSlip cs' slip) (hcs : cs' <:+: cs) :
    TextSlip cs slip := by
  cases h with
  | longNumber place digit long => exact .longNumber (place.trans hcs) digit long
  | escape place length code => exact .escape (place.trans hcs) length code

/-- The trail of the places in a text. -/
def places : Trail Cursor where
  After := Leads
  Slips c slip := TextSlip c.rest slip
  refl := Leads.refl
  trans := Leads.trans
  back := by
    intro c c' slip hlead hslip
    exact hslip.mono hlead.isInfix

/-! ## Names, tags and directives -/

/-- Reading a name leads on and does not slip; a missing name is malformed. -/
lemma keeps_readName (c : Cursor) : places.Keeps c Prod.snd (readName c) := by
  unfold readName
  simp only
  split
  · exact .fail
  · exact .ok (leads_span _ c)

/-- Reading the bytes of an escape in a tag leads on, two digits at a time. -/
lemma keeps_readBytes (fuel : Nat) (c : Cursor) : places.Keeps c Prod.snd (readBytes fuel c) := by
  induction fuel generalizing c with
  | zero => exact .ok (.refl c)
  | succ fuel ih =>
    rw [readBytes]
    split
    · exact .ok (.refl c)
    · split
      · apply ((ih (c.skip 3)).mono (leads_skip 3 c)).bind
        rintro ⟨bytes, after⟩ _
        exact .ok (.refl after)
      · exact .fail
      · exact .fail

/-- Reading the end of a tag leads on, through its characters and its escapes. -/
lemma keeps_readSuffixFrom (fuel : Nat) (c : Cursor) :
    places.Keeps c Prod.snd (readSuffixFrom fuel c) := by
  induction fuel generalizing c with
  | zero => exact .ok (.refl c)
  | succ fuel ih =>
    rw [readSuffixFrom]
    simp only
    split
    · exact .ok (leads_span _ c)
    · apply ((keeps_readBytes _ _).mono (leads_span isSuffixChar c)).bind
      rintro ⟨bytes, after⟩ _
      simp only
      split
      · exact .fail
      · apply (ih after).bind
        rintro ⟨more, last⟩ _
        exact .ok (.refl last)

/-- So does reading the whole of it, which must not be empty. -/
lemma keeps_readSuffix (c : Cursor) : places.Keeps c Prod.snd (readSuffix c) := by
  unfold readSuffix
  apply (keeps_readSuffixFrom _ c).bind
  rintro ⟨suffix, after⟩ _
  simp only
  split
  · exact .fail
  · exact .ok (.refl after)

/-- Reading the handle of a tag leads on, from one exclamation mark to the next if there is one. -/
lemma keeps_readHandle (c : Cursor) : places.Keeps c Prod.snd (readHandle c) := by
  unfold readHandle
  have hname := (leads_next c).trans (leads_span isNameChar c.next)
  split
  · exact .fail
  · split
    · exact .ok (leads_next c)
    · simp only
      split
      · exact .ok (hname.trans (leads_next _))
      · exact .fail

/-- A tag has to end at a gap. -/
lemma keeps_tagEnd (token : Token) (c : Cursor) :
    places.Keeps c Prod.snd (if isSpaceEnd c.peek then .ok (token, c) else c.fail) := by
  split
  · exact .ok (.refl c)
  · exact .fail

/-- Reading a tag with a handle leads on, whether the handle has a name or not. -/
lemma keeps_readShortTag (c : Cursor) : places.Keeps c Prod.snd (readShortTag c) := by
  unfold readShortTag
  apply Trail.Keeps.look
  split
  · apply (keeps_readHandle c).bind
    rintro ⟨handle, after⟩ _
    apply (keeps_readSuffix after).bind
    rintro ⟨suffix, last⟩ _
    exact .ok (.refl last)
  · apply ((keeps_readSuffix c.next).mono (leads_next c)).bind
    rintro ⟨suffix, after⟩ _
    exact .ok (.refl after)

/-- Reading a tag leads on, in each of its three forms. -/
lemma keeps_readTag (c : Cursor) : places.Keeps c Prod.snd (readTag c) := by
  unfold readTag
  simp only
  split
  · apply ((keeps_readSuffix (c.skip 2)).mono (leads_skip 2 c)).bind
    rintro ⟨suffix, after⟩ _
    simp only
    split
    · exact (keeps_tagEnd _ after.next).mono (leads_next after)
    · exact Trail.Keeps.fail
  · split
    · exact (keeps_tagEnd _ c.next).mono (leads_next c)
    · apply (keeps_readShortTag c).bind
      rintro ⟨token, after⟩ _
      exact keeps_tagEnd token after

/-- A number slips only if it has too many digits. -/
lemma keeps_readNumber (c : Cursor) : places.Keeps c Prod.snd (readNumber c) := by
  unfold readNumber
  simp only
  apply Trail.Keeps.look
  split
  · exact .fail
  · split
    · next hlong =>
      apply Trail.Keeps.slip
      refine .longNumber (List.takeWhile_prefix _).isInfix ?_ hlong
      intro d hd
      exact List.all_eq_true.mp List.all_takeWhile d hd
    · exact .ok (leads_span _ c)

/-- Reading to the end of a directive's line leads on, over blanks and a comment. -/
lemma keeps_readLineRest (c : Cursor) : places.Keeps c id (readLineRest c) := by
  unfold readLineRest
  have hblanks := leads_skipBlanks c
  have hcomment := hblanks.trans (leads_skipLine _)
  simp only
  split
  · split
    · exact .ok (hcomment.trans (leads_lineBreak _))
    · exact .fail
  · split
    · exact .ok (hblanks.trans (leads_lineBreak _))
    · exact .fail

/-- Reading a version leads on, and slips only by a number with too many digits. -/
lemma keeps_readVersion (c : Cursor) : places.Keeps c Prod.snd (readVersion c) := by
  unfold readVersion
  apply ((keeps_readNumber c.skipBlanks).mono (leads_skipBlanks c)).bind
  rintro ⟨major, after⟩ _
  simp only
  split
  · exact .fail
  · apply ((keeps_readNumber after.next).mono (leads_next after)).bind
    rintro ⟨minor, last⟩ _
    simp only
    split
    · exact .ok (.refl last)
    · exact .fail

/-- Reading the declaration of a handle leads on, over the handle and what it stands for. -/
lemma keeps_readHandleDeclaration (c : Cursor) :
    places.Keeps c Prod.snd (readHandleDeclaration c) := by
  unfold readHandleDeclaration
  apply ((keeps_readHandle c.skipBlanks).mono (leads_skipBlanks c)).bind
  rintro ⟨handle, after⟩ _
  simp only
  split
  · exact .fail
  · apply ((keeps_readSuffix after.skipBlanks).mono (leads_skipBlanks after)).bind
    rintro ⟨start, last⟩ _
    simp only
    split
    · exact .ok (.refl last)
    · exact .fail

/-- What is found without reading on. -/
lemma keeps_ok {α : Type} (a : α) (c : Cursor) : places.Keeps c Prod.snd (.ok (a, c)) :=
  .ok (.refl c)

/-- What was read of a directive stands once the rest of its line is read. -/
lemma keeps_directiveEnd (directive : Directive) (c : Cursor) :
    places.Keeps c Prod.snd (do
      let c ← readLineRest c
      .ok (directive, c)) := by
  apply (keeps_readLineRest c).bind
  intro last _
  exact .ok (.refl last)

/-- Reading a directive leads on; of all directives only a version can slip. -/
lemma keeps_readDirective (c : Cursor) : places.Keeps c Prod.snd (readDirective c) := by
  unfold readDirective
  have hname := leads_span isNameChar c
  simp only
  split
  · exact .fail
  · split
    · apply ((keeps_readVersion _).mono hname).bind
      rintro ⟨directive, after⟩ _
      exact keeps_directiveEnd directive after
    · split
      · apply ((keeps_readHandleDeclaration _).mono hname).bind
        rintro ⟨directive, after⟩ _
        exact keeps_directiveEnd directive after
      · apply (Trail.Keeps.mono (hname.trans (leads_skipLine _)) (keeps_ok _ _)).bind
        rintro ⟨directive, after⟩ _
        exact keeps_directiveEnd directive after

/-! ## Scalars -/

/-- Reading the line breaks inside of a plain scalar leads on, with the blanks at the starts of the
lines. -/
lemma keeps_plainBreaks (fuel : Nat) (c : Cursor) :
    places.Keeps c Prod.snd (plainBreaks fuel c) := by
  induction fuel generalizing c with
  | zero => exact .ok (.refl c)
  | succ fuel ih =>
    rw [plainBreaks]
    split
    · exact (ih c.next).mono (leads_next c)
    · split
      · simp only
        apply Trail.Keeps.look
        split
        · exact .ok (leads_lineBreak c)
        · apply ((ih _).mono (leads_lineBreak c)).bind
          rintro ⟨more, after⟩ _
          exact .ok (.refl after)
      · exact .ok (.refl c)

/-- Reading the gap between two words of a plain scalar leads on, be it of blanks or of line
breaks. -/
lemma keeps_plainGap (c : Cursor) : places.Keeps c Gap.after (plainGap c) := by
  have hblanks := leads_span (· = ' ') c
  have hbreak := hblanks.trans (leads_lineBreak (c.span (· = ' ')).2)
  unfold plainGap
  simp only
  split
  · apply Trail.Keeps.look
    split
    · exact .ok hbreak
    · apply ((keeps_plainBreaks _ _).mono hbreak).bind
      rintro ⟨breaks, after⟩ _
      cases breaks with
      | none => exact .ok (.refl after)
      | some breaks => exact .ok (.refl after)
  · exact .ok hblanks

/-- Reading the words of a plain scalar leads on, word by word and gap by gap. -/
lemma keeps_readPlain (inFlow : Bool) (indent : Int) (fuel : Nat) (run : PlainRun)
    (gap : List Char) :
    places.Keeps run.after PlainRun.after (readPlain inFlow indent fuel run gap) := by
  induction fuel generalizing run gap with
  | zero => exact .ok (.refl _)
  | succ fuel ih =>
    rw [readPlain]
    split
    · exact .ok (.refl _)
    · simp only
      apply Trail.Keeps.look
      split
      · exact .ok (.refl _)
      · have hstop := leads_skip (plainLength inFlow run.after.rest) run.after
        apply ((keeps_plainGap _).mono hstop).bind
        intro g _
        split
        · exact .ok (.refl _)
        · exact ih ⟨_, g.broken, g.after⟩ g.text

/-- Reading line breaks between quotes leads on, and a document that starts or ends there is
malformed. -/
lemma keeps_quotedBreaks (fuel : Nat) (c : Cursor) :
    places.Keeps c Prod.snd (quotedBreaks fuel c) := by
  induction fuel generalizing c with
  | zero => exact .ok (.refl c)
  | succ fuel ih =>
    have hblanks := leads_skipWhile (fun x => x = ' ' || x = '\t') c
    rw [quotedBreaks]
    apply Trail.Keeps.look
    split
    · exact .malformed
    · simp only
      split
      · apply ((ih _).mono (hblanks.trans (leads_lineBreak _))).bind
        rintro ⟨more, after⟩ _
        exact .ok (.refl after)
      · exact .ok hblanks

/-- The code of an escape is that of a letter, or it is too large for one. -/
lemma letterOfCode_cases (digits : List Char) :
    (∃ x, letterOfCode digits = .ok x) ∨
      ∃ slip ∈ [Slip.tooLarge, .badValue], letterOfCode digits = unexpected slip := by
  unfold letterOfCode
  simp only
  split
  · exact .inr ⟨_, by simp, rfl⟩
  · split
    · exact .inl ⟨_, rfl⟩
    · exact .inr ⟨_, by simp, rfl⟩

/-- The slips that the characters of a text can give reason for. -/
lemma TextSlip.mem {cs : List Char} (h : TextSlip cs slip) : slip ∈ [Slip.tooLarge, .badValue] := by
  cases h with
  | longNumber place digit long => simp
  | escape place length code =>
    rename_i mark digits
    rcases letterOfCode_cases digits with ⟨x, hx⟩ | ⟨slip', hmem, hslip'⟩
    · rw [hx] at code
      cases code
    · rw [hslip'] at code
      cases code
      exact hmem

/-- The characters of an escape stand where it is read. -/
lemma escape_standsAt {n : Nat} (h : c.rest = '\\' :: c.next.rest)
    (hlength : codeLength? c.next.peek = some n) :
    '\\' :: c.next.peek :: c.next.next.rest.take n <+: c.rest := by
  have hmore : c.next.rest.isEmpty = false := by
    rw [Bool.eq_false_iff]
    intro hempty
    rw [peek, List.isEmpty_iff.mp hempty] at hlength
    cases hlength
  refine ⟨c.next.next.rest.drop n, ?_⟩
  rw [h, rest_eq_cons hmore]
  simp

/-- An escape slips only by its code. -/
lemma keeps_readEscape (h : c.rest = '\\' :: c.next.rest) :
    places.Keeps c Prod.snd (readEscape c.next) := by
  have hnext := leads_next c
  unfold readEscape
  split
  · exact .ok (hnext.trans (leads_next _))
  · split
    · next n hlength =>
      simp only
      split
      · next hdigits =>
        simp only [Bool.and_eq_true, decide_eq_true_eq] at hdigits
        rcases letterOfCode_cases (c.next.next.rest.take n) with ⟨x, hx⟩ | ⟨slip, -, hslip⟩
        · rw [hx]
          exact .ok (hnext.trans (leads_skip (n + 1) c.next))
        · rw [hslip]
          apply Trail.Keeps.slip
          exact .escape (escape_standsAt h hlength).isInfix
            (hlength.trans (congrArg some hdigits.1.symm)) hslip
      · exact .fail
    · split
      · apply ((keeps_quotedBreaks _ _).mono (hnext.trans (leads_lineBreak _))).bind
        rintro ⟨breaks, after⟩ _
        exact .ok (.refl after)
      · exact .fail

/-- Reading a gap between quotes leads on, be it of blanks or of line breaks. -/
lemma keeps_quotedGap (c : Cursor) : places.Keeps c Prod.snd (quotedGap c) := by
  have hblanks := leads_span (fun x => x = ' ' || x = '\t') c
  unfold quotedGap
  simp only
  split
  · exact .fail
  · split
    · apply ((keeps_quotedBreaks _ _).mono (hblanks.trans (leads_lineBreak _))).bind
      rintro ⟨breaks, after⟩ _
      exact .ok (.refl after)
    · exact .ok hblanks

/-- Reading what stands between quotes leads on, and slips only by a code that is too large in an
escape. -/
lemma keeps_readQuoted (quote : Char) (fuel : Nat) (c : Cursor) :
    places.Keeps c Prod.snd (readQuoted quote fuel c) := by
  induction fuel generalizing c with
  | zero => exact .malformed
  | succ fuel ih =>
    -- whatever was read up to a place, the rest of the scalar is read from there
    have hmore {after : Cursor} (hafter : c.Leads after) (letters : List Letter → List Letter) :
        places.Keeps c Prod.snd (readQuoted quote fuel after >>= fun found =>
          .ok (letters found.1, found.2)) := by
      apply ((ih after).mono hafter).bind
      rintro ⟨more, last⟩ _
      exact .ok (.refl last)
    have hpart {β : Type} {part : Except Problem (β × Cursor)} (letters : β → List Letter)
        (hkeeps : places.Keeps c Prod.snd part) :
        places.Keeps c Prod.snd (part >>= fun found =>
          readQuoted quote fuel found.2 >>= fun rest =>
            .ok (letters found.1 ++ rest.1, rest.2)) := by
      apply hkeeps.bind
      rintro ⟨read, after⟩ _
      apply (ih after).bind
      rintro ⟨more, last⟩ _
      exact .ok (.refl last)
    rw [readQuoted]
    simp only
    split
    · exact .fail
    · next hrest =>
      split
      · split
        · exact hmore (leads_skip 2 c) _
        · exact .ok (leads_next c)
      · split
        · next hescape =>
          simp only [Bool.and_eq_true, decide_eq_true_eq] at hescape
          apply hpart id
          apply keeps_readEscape
          rw [← hescape.2]
          exact rest_eq_cons (Bool.eq_false_iff.mpr hrest)
        · split
          · exact hpart (List.map .char) (keeps_quotedGap c)
          · exact hmore (leads_next c) _

/-- Reading the digit for the indentation of a block scalar leads on; a zero is malformed. -/
lemma keeps_readIncrement (c : Cursor) : places.Keeps c Prod.snd (readIncrement c) := by
  unfold readIncrement
  split
  · exact .ok (.refl c)
  · split
    · exact .malformed
    · exact .ok (leads_next c)

/-- The header of a block scalar ends where a blank or a line break follows. -/
lemma keeps_headerEnd (chomping : Chomping) (increment : Option Nat) (c : Cursor) :
    places.Keeps c (fun header => header.2.2)
      (if isSpaceEnd c.peek then .ok (chomping, increment, c) else .error .malformed) := by
  split
  · exact .ok (.refl c)
  · exact .malformed

/-- Reading the header of a block scalar leads on, with its two marks in either order. -/
lemma keeps_readHeader (c : Cursor) :
    places.Keeps c (fun header => header.2.2) (readHeader c) := by
  unfold readHeader
  simp only
  split
  · apply ((keeps_readIncrement c.next).mono (leads_next c)).bind
    rintro ⟨increment, after⟩ _
    exact keeps_headerEnd _ _ after
  · apply (keeps_readIncrement c).bind
    rintro ⟨increment, after⟩ _
    simp only
    split
    · exact (keeps_headerEnd _ _ after.next).mono (leads_next after)
    · exact keeps_headerEnd _ _ after

/-- Reading a block scalar leads on: the header, the empty lines before it, and its lines. -/
lemma keeps_readBlock (folded : Bool) (parent : Int) (c : Cursor) :
    places.Keeps c Prod.snd (readBlock folded parent c) := by
  unfold readBlock
  apply (keeps_readHeader c).bind
  rintro ⟨chomping, increment, after⟩ _
  have hcomment : after.Leads
      (if after.skipBlanks.peek = '#' then after.skipBlanks.skipLine else after.skipBlanks) := by
    split
    · exact (leads_skipBlanks after).trans (leads_skipLine _)
    · exact leads_skipBlanks after
  simp only
  generalize (if after.skipBlanks.peek = '#' then after.skipBlanks.skipLine
    else after.skipBlanks) = place at hcomment ⊢
  have hstart := hcomment.trans (leads_lineBreak place)
  split
  · exact .malformed
  · apply Trail.Keeps.ok
    cases increment with
    | none =>
      simp only
      refine Leads.trans ?_ (leads_readBlockLines _ _ _ _ _)
      exact hstart.trans (leads_leadingBreaks _ 0 _)
    | some n =>
      simp only
      -- with the fuel as a number nothing is unfolded to compare the places
      generalize place.lineBreak.2.rest.length + 1 = fuel
      refine Leads.trans ?_ (leads_readBlockLines _ _ _ _ _)
      exact hstart.trans (leads_blockBreaks _ _ _)

/-! ## Tokens -/

namespace Reading

/-- Leaving blocks that end reads nothing of the text. -/
lemma cursor_unwind (r : Reading) (column : Int) : (r.unwind column).cursor = r.cursor := by
  unfold unwind
  split <;> rfl

/-- Entering a block reads nothing of the text either. -/
lemma cursor_openBlock (r : Reading) (t : Token) (column number : Nat) :
    (r.openBlock t column number).cursor = r.cursor := by
  unfold openBlock
  split <;> rfl

/-- Giving up keys that can no longer be keys reads nothing, and is malformed if one was needed. -/
lemma keeps_expire (h : r.cursor = c) : places.Keeps c cursor r.expire := by
  unfold expire
  split
  · exact .malformed
  · exact .ok (h ▸ .refl _)

/-- Giving up the key of a level reads nothing, and is malformed if that one was needed. -/
lemma keeps_forget (h : r.cursor = c) : places.Keeps c cursor r.forget := by
  unfold forget
  split
  · exact .malformed
  · exact .ok (h ▸ .refl _)

/-- Remembering that a key may start here reads nothing. -/
lemma keeps_remember (r : Reading) : places.Keeps r.cursor cursor r.remember := by
  unfold remember
  split
  · exact .ok (.refl _)
  · apply (keeps_forget rfl).bind
    intro next _
    exact .ok (.refl _)

/-- Skipping what stands between two tokens leads on, over blanks, comments and line breaks. -/
lemma leads_skipGap (fuel : Nat) (r : Reading) : r.cursor.Leads (skipGap fuel r).cursor := by
  induction fuel generalizing r with
  | zero => exact .refl _
  | succ fuel ih =>
    have hcomment : r.cursor.Leads (if r.cursor.skipBlanks.peek = '#' then
        r.cursor.skipBlanks.skipLine else r.cursor.skipBlanks) := by
      split
      · exact (leads_skipBlanks _).trans (leads_skipLine _)
      · exact leads_skipBlanks _
    rw [skipGap]
    simp only
    generalize (if r.cursor.skipBlanks.peek = '#' then r.cursor.skipBlanks.skipLine
      else r.cursor.skipBlanks) = place at hcomment ⊢
    split
    · exact (hcomment.trans (leads_lineBreak _)).trans (ih _)
    · exact hcomment

/-- Reading the end of a text reads nothing of it; what is open is closed. -/
lemma keeps_readEnd (r : Reading) : places.Keeps r.cursor cursor r.readEnd := by
  unfold readEnd
  apply (keeps_forget (cursor_unwind r (-1))).bind
  intro next _
  exact .ok (.refl _)

/-- Reading a line with a directive leads on as the directive does. -/
lemma keeps_readDirectiveLine (r : Reading) : places.Keeps r.cursor cursor r.readDirectiveLine := by
  unfold readDirectiveLine
  apply (keeps_forget (cursor_unwind r (-1))).bind
  intro next _
  apply ((keeps_readDirective next.cursor.next).mono (leads_next _)).bind
  rintro ⟨directive, after⟩ _
  exact .ok (.refl after)

/-- Reading a mark between documents leads on by its three characters. -/
lemma keeps_readSeparator (r : Reading) (t : Token) :
    places.Keeps r.cursor cursor (r.readSeparator t) := by
  unfold readSeparator
  apply (keeps_forget (cursor_unwind r (-1))).bind
  intro next _
  exact .ok (leads_skip 3 next.cursor)

/-- Reading a bracket that opens leads on by one character. -/
lemma keeps_openBracket (r : Reading) (t : Token) :
    places.Keeps r.cursor cursor (r.openBracket t) := by
  unfold openBracket
  apply (keeps_remember r).bind
  intro next _
  exact .ok (leads_skip 1 next.cursor)

/-- Reading a bracket that closes leads on by one character. -/
lemma keeps_closeBracket (r : Reading) (t : Token) :
    places.Keeps r.cursor cursor (r.closeBracket t) := by
  unfold closeBracket
  apply (keeps_forget rfl).bind
  intro next _
  exact .ok (leads_skip 1 next.cursor)

/-- Reading a comma leads on by one character. -/
lemma keeps_readComma (r : Reading) : places.Keeps r.cursor cursor r.readComma := by
  unfold readComma
  apply (keeps_forget rfl).bind
  intro next _
  exact .ok (leads_skip 1 next.cursor)

/-- Reading the hyphen of an item leads on by one character, and may enter a block. -/
lemma keeps_readHyphen (r : Reading) : places.Keeps r.cursor cursor r.readHyphen := by
  unfold readHyphen
  split
  · exact .malformed
  · apply (keeps_forget (cursor_openBlock r _ _ _)).bind
    intro next _
    exact .ok (leads_skip 1 next.cursor)

/-- Reading the question mark before a key leads on by one character, and may enter a block. -/
lemma keeps_readQuestion (r : Reading) : places.Keeps r.cursor cursor r.readQuestion := by
  unfold readQuestion
  split
  · exact .malformed
  · apply (keeps_forget (cursor_openBlock r _ _ _)).bind
    intro next _
    exact .ok (leads_skip 1 next.cursor)

/-- Reading the colon before a value leads on by one character, after the key before it was
settled. -/
lemma keeps_readColon (r : Reading) : places.Keeps r.cursor cursor r.readColon := by
  unfold readColon
  split
  · apply Trail.Keeps.ok
    show r.cursor.Leads ((openBlock _ _ _ _).cursor.skip 1)
    rw [cursor_openBlock]
    exact leads_skip 1 r.cursor
  · apply Trail.Keeps.ite .malformed
    apply Trail.Keeps.bind (keeps_forget ?_)
    · intro next _
      exact .ok (leads_skip 1 next.cursor)
    · exact cursor_openBlock r _ _ _

/-- Reading an anchor, an alias or a tag leads on as its name or its parts do. -/
lemma keeps_readProperty (r : Reading) : places.Keeps r.cursor cursor r.readProperty := by
  unfold readProperty
  apply (keeps_remember r).bind
  intro next _
  have hname := (keeps_readName next.cursor.next).mono (leads_next next.cursor)
  simp only
  split
  · apply hname.bind
    rintro ⟨name, after⟩ _
    exact .ok (.refl after)
  · split
    · apply hname.bind
      rintro ⟨name, after⟩ _
      exact .ok (.refl after)
    · apply (keeps_readTag next.cursor).bind
      rintro ⟨tag, after⟩ _
      exact .ok (.refl after)

/-- Reading the token of a block scalar leads on as the scalar does. -/
lemma keeps_readBlockScalar (r : Reading) : places.Keeps r.cursor cursor r.readBlockScalar := by
  unfold readBlockScalar
  apply (keeps_forget rfl).bind
  intro next _
  apply ((keeps_readBlock _ _ next.cursor.next).mono (leads_next _)).bind
  rintro ⟨text, after⟩ _
  exact .ok (.refl after)

/-- Reading the token of a scalar in quotes leads on as the scalar does, and slips only with it. -/
lemma keeps_readQuotedScalar (r : Reading) : places.Keeps r.cursor cursor r.readQuotedScalar := by
  unfold readQuotedScalar
  apply (keeps_remember r).bind
  intro next _
  apply ((keeps_readQuoted _ _ next.cursor.next).mono (leads_next _)).bind
  rintro ⟨text, after⟩ _
  exact .ok (.refl after)

/-- Reading the token of a plain scalar leads on as the scalar does. -/
lemma keeps_readPlainScalar (r : Reading) : places.Keeps r.cursor cursor r.readPlainScalar := by
  unfold readPlainScalar
  apply (keeps_remember r).bind
  intro next _
  apply (keeps_readPlain _ _ _ ⟨[], false, next.cursor⟩ []).bind
  intro run _
  exact .ok (.refl run.after)

/-- A token keeps to the trail, whichever it is. -/
lemma keeps_readToken (r : Reading) : places.Keeps r.cursor cursor r.readToken := by
  unfold readToken
  simp only
  apply Trail.Keeps.ite (keeps_readEnd r)
  apply Trail.Keeps.ite (keeps_readDirectiveLine r)
  apply Trail.Keeps.ite (keeps_readSeparator r _)
  apply Trail.Keeps.ite (keeps_readSeparator r _)
  apply Trail.Keeps.ite (keeps_openBracket r _)
  apply Trail.Keeps.ite (keeps_openBracket r _)
  apply Trail.Keeps.ite (keeps_closeBracket r _)
  apply Trail.Keeps.ite (keeps_closeBracket r _)
  apply Trail.Keeps.ite (keeps_readComma r)
  apply Trail.Keeps.ite (keeps_readHyphen r)
  apply Trail.Keeps.ite (keeps_readQuestion r)
  apply Trail.Keeps.ite (keeps_readColon r)
  apply Trail.Keeps.ite (keeps_readProperty r)
  apply Trail.Keeps.ite (keeps_readBlockScalar r)
  apply Trail.Keeps.ite (keeps_readQuotedScalar r)
  apply Trail.Keeps.ite (keeps_readPlainScalar r)
  exact .malformed

/-- One more token is read after the gap before it: each of its sorts leads on and slips only by
what stands in the text. -/
lemma keeps_advance (r : Reading) : places.Keeps r.cursor cursor r.advance := by
  unfold advance
  apply (keeps_expire rfl).bind
  intro fresh _
  apply Trail.Keeps.look
  apply ((keeps_expire rfl).mono (leads_skipGap _ fresh)).bind
  intro next _
  apply Trail.Keeps.look
  have htoken := keeps_readToken (next.unwind next.cursor.column)
  rw [cursor_unwind] at htoken
  apply htoken.bind
  intro last _
  exact Trail.Keeps.look (.ok (.refl _))

/-- The problem at the end of the tokens slips only as the stream does, or for a reason in what is
left of the text. -/
lemma textSlip_of_readAll (fault : Option Problem) (fuel : Nat) (r : Reading)
    (h : (readAll fault fuel r).2 = .unexpected slip) :
    fault = some (.unexpected slip) ∨ TextSlip r.cursor.rest slip := by
  induction fuel generalizing r with
  | zero =>
    change Problem.malformed = _ at h
    cases h
  | succ fuel ih =>
    have hadvance := keeps_advance r
    rw [readAll] at h
    split at h
    · cases h
    · split at h
      · next next hok =>
        rcases ih next h with hfault | hslip
        · exact .inl hfault
        · exact .inr (places.back (hadvance.after next hok) hslip)
      · -- what the text is cut off by comes up
        left
        cases fault with
        | none => cases h
        | some problem => exact congrArg some h
      · next problem _ herror =>
        right
        obtain rfl : problem = .unexpected slip := h
        exact hadvance.slips slip herror

end Reading

/-- **If the tokens of a text end in a slip, it is that of the stream, or there is a reason for it
in the characters.** -/
theorem textSlip_of_tokensOf {text : Stream} (h : (tokensOf text).2 = .unexpected slip) :
    text.fault = some (.unexpected slip) ∨ TextSlip text.chars slip := by
  rcases Reading.textSlip_of_readAll _ _ _ h with hfault | hslip
  · exact .inl hfault
  · right
    apply hslip.mono
    simp only
    split
    · exact (leads_next (Cursor.start text.chars text.fault.isSome)).isInfix
    · exact List.infix_refl _

end CrateGate.Yaml
