import Mathlib.Algebra.Group.Nat.Defs
import Minifier.Proofs.Failing
import Minifier.Proofs.Yaml.Cursor
import Minifier.Yaml.Token.Stream

/-!
# What can be wrong with the tokens of a YAML text

Reading tokens fails because a text is malformed, apart from two numbers that cannot be held: a code
point beyond the last one, which stands in the text behind a backslash and `U`, and a number of more
than 4300 digits, which stands there as it is (`TokenFault`). Each reader keeps to the text and to
these faults (`KeepsTo`), and so does the whole of them (`tokenFault_of_ofText`).
-/

set_option autoImplicit false

namespace Minifier

namespace Yaml

open Cursor

variable {text : List Char} {s : Cursor} {fuel : Nat} {α β : Type}

/-- What can be wrong with the tokens of a text. -/
inductive TokenFault (text : List Char) : Fault → Prop where
  | malformed : TokenFault text .malformed
  | codePoint (digits : List Char) (code : Nat) (stands : '\\' :: 'U' :: digits <:+: text)
      (width : digits.length = 8) (written : hexNumber? digits = some code)
      (large : 0x10FFFF < code) : TokenFault text (.codePoint code)
  | version (digits : List Char) (stands : digits <:+: text)
      (decimal : ∀ c ∈ digits, '0' ≤ c ∧ c ≤ '9') (long : directiveDigits < digits.length) :
      TokenFault text (.numeralTooLong digits.length)

/-- A reader that ends within the text, or in one of these faults. -/
def KeepsTo (text : List Char) (answer : Except Fault (α × Cursor)) : Prop :=
  Meets (fun found => Within text found.2) (TokenFault text) answer

theorem keepsTo_ok {a : α} (h : Within text s) : KeepsTo text (.ok (a, s)) :=
  h

theorem keepsTo_malformed : KeepsTo text (.error .malformed : Except Fault (α × Cursor)) :=
  .malformed

theorem KeepsTo.bind {answer : Except Fault (α × Cursor)}
    {next : α × Cursor → Except Fault (β × Cursor)} (h : KeepsTo text answer)
    (hnext : ∀ a s, Within text s → KeepsTo text (next (a, s))) :
    KeepsTo text (answer >>= next) :=
  Meets.bind h fun found hfound => hnext found.1 found.2 hfound

/-! ## Quoted scalars -/

theorem lt_of_hexDigit? {c : Char} {value : Nat} (h : hexDigit? c = some value) : value < 16 := by
  have hzero : ('0' : Char).val.toNat = 48 ∧ ('9' : Char).val.toNat = 57 := by decide
  have hsmall : ('a' : Char).val.toNat = 97 ∧ ('f' : Char).val.toNat = 102 := by decide
  have hlarge : ('A' : Char).val.toNat = 65 ∧ ('F' : Char).val.toNat = 70 := by decide
  simp only [hexDigit?, Char.le_def, Bool.and_eq_true, decide_eq_true_eq, UInt32.le_iff_toNat_le,
    Char.toNat] at h
  grind

/-- A number is less than its digits allow. -/
theorem lt_of_hexNumber? {digits : List Char} {code : Nat} (h : hexNumber? digits = some code) :
    code < 16 ^ digits.length := by
  -- for any start: a digit behind a number below a bound gives one below sixteen times that bound
  have hfold : ∀ {digits : List Char} {start : Nat},
      digits.foldlM (fun n c => (hexDigit? c).map fun d => n * 16 + d) start = some code →
        code < (start + 1) * 16 ^ digits.length := by
    intro digits
    induction digits with
    | nil =>
      intro start hstart
      cases hstart
      simp
    | cons c digits ih =>
      intro start hstart
      rw [List.foldlM_cons] at hstart
      cases hvalue : hexDigit? c with
      | none =>
        rw [hvalue] at hstart
        cases hstart
      | some value =>
        rw [hvalue] at hstart
        have hlt := ih hstart
        have hle : start * 16 + value + 1 ≤ (start + 1) * 16 := by
          have hlt := lt_of_hexDigit? hvalue
          omega
        calc code < (start * 16 + value + 1) * 16 ^ digits.length := hlt
          _ ≤ (start + 1) * 16 * 16 ^ digits.length := Nat.mul_le_mul_right _ hle
          _ = (start + 1) * 16 ^ (c :: digits).length := by
            rw [List.length_cons, Nat.pow_succ', Nat.mul_assoc]
  simpa using hfold h

theorem keepsTo_quotedBreaks (h : Within text s) : KeepsTo text (quotedBreaks fuel s) := by
  induction fuel generalizing s with
  | zero => exact keepsTo_ok h
  | succ fuel ih =>
    rw [quotedBreaks]
    dsimp only
    split
    · exact keepsTo_malformed
    · split
      · exact (ih (h.skipWhile _).lineBreak).bind fun others s hs => keepsTo_ok hs
      · exact keepsTo_ok (h.skipWhile _)

theorem escapeWidth?_cases {c : Char} {width : Nat} (h : escapeWidth? c = some width) :
    width ≤ 4 ∨ width = 8 ∧ c = 'U' := by
  rw [escapeWidth?.eq_def] at h
  split at h
  · cases h
    exact .inl (by decide)
  · cases h
    exact .inl (by decide)
  · cases h
    exact .inr ⟨rfl, rfl⟩
  · cases h

/-- Only eight digits write a code point beyond the last one. -/
theorem keepsTo_escaped (h : '\\' :: s.rest <:+ text) : KeepsTo text (escaped s) := by
  have hwithin : Within text s := (List.suffix_cons _ _).trans h
  rw [escaped]
  dsimp only
  split
  · exact keepsTo_ok hwithin.step
  · split
    · next width hwidth =>
      split
      · next code hcode =>
        split
        · exact keepsTo_malformed
        · next hlength =>
          split
          · next hlarge =>
            have hlt := lt_of_hexNumber? hcode
            have hle : (s.step.rest.take width).length ≤ width := List.length_take_le _ _
            -- four digits name no code point that is too large, so here are eight
            rcases escapeWidth?_cases hwidth with hfour | ⟨rfl, hpeek⟩
            · have hpow : 16 ^ (s.step.rest.take width).length ≤ 16 ^ 4 :=
                Nat.pow_le_pow_right (by decide) (by omega)
              omega
            · refine .codePoint _ code ?_ (by omega) hcode hlarge
              have hrest := rest_eq_peek_cons hpeek (by decide)
              refine List.IsInfix.trans (List.IsPrefix.isInfix ?_) h.isInfix
              rw [hrest, List.prefix_cons_inj, List.prefix_cons_inj]
              exact List.take_prefix _ _
          · exact keepsTo_ok (hwithin.step.forward width)
      · exact keepsTo_malformed
    · split
      · exact keepsTo_quotedBreaks hwithin.lineBreak
      · exact keepsTo_malformed

theorem keepsTo_quotedWords {double : Bool} (h : Within text s) :
    KeepsTo text (quotedWords double fuel s) := by
  induction fuel generalizing s with
  | zero => exact keepsTo_ok h
  | succ fuel ih =>
    have hword := h.takeWhile fun c => !isQuotedSpecial c
    rw [quotedWords]
    dsimp only
    split
    · exact (ih (hword.forward 2)).bind fun others s hs => keepsTo_ok hs
    · split
      · exact (ih hword.step).bind fun others s hs => keepsTo_ok hs
      · split
        · next hback =>
          rw [Bool.and_eq_true, beq_iff_eq] at hback
          have hrest := rest_eq_peek_cons hback.2 (by decide)
          refine (keepsTo_escaped (hrest ▸ hword)).bind fun replacement s hs => ?_
          exact (ih hs).bind fun others s hs => keepsTo_ok hs
        · exact keepsTo_ok hword

theorem keepsTo_quotedSpaces (h : Within text s) : KeepsTo text (quotedSpaces s) := by
  rw [quotedSpaces]
  dsimp only
  split
  · exact keepsTo_malformed
  · split
    · exact (keepsTo_quotedBreaks (h.takeWhile _).lineBreak).bind fun breaks s hs => keepsTo_ok hs
    · exact keepsTo_ok (h.takeWhile _)

theorem keepsTo_quotedRest {double : Bool} (h : Within text s) :
    KeepsTo text (quotedRest double fuel s) := by
  induction fuel generalizing s with
  | zero => exact keepsTo_malformed
  | succ fuel ih =>
    refine (keepsTo_quotedWords h).bind fun words s hs => Meets.ite (fun _ => ?_) fun _ => ?_
    · exact keepsTo_ok hs.step
    · refine (keepsTo_quotedSpaces hs).bind fun spaces s hs => ?_
      exact (ih hs).bind fun others s hs => keepsTo_ok hs

theorem keepsTo_quotedScalar (h : Within text s) : KeepsTo text (quotedScalar s) :=
  keepsTo_quotedRest h.step

/-! ## Block scalars -/

/-- The parts of a header, before they are checked. -/
def headerParts (s : Cursor) : Chomping × Option Nat × Cursor :=
  match chompingSign? s with
  | some chomping =>
    match indentationDigit? s.step with
    | some n => (chomping, some n, s.forward 2)
    | none => (chomping, none, s.step)
  | none =>
    match indentationDigit? s with
    | some n =>
      match chompingSign? s.step with
      | some chomping => (chomping, some n, s.forward 2)
      | none => (.clip, some n, s.step)
    | none => (.clip, none, s)

theorem within_headerParts (h : Within text s) : Within text (headerParts s).2.2 := by
  rw [headerParts]
  split
  · split
    · exact h.forward 2
    · exact h.step
  · split
    · split
      · exact h.forward 2
      · exact h.step
    · exact h

theorem meets_blockHeader (h : Within text s) :
    Meets (fun found => Within text found.2.2) (TokenFault text) (blockHeader s) := by
  have heq : blockHeader s = do
      if (headerParts s).2.1 = some 0 then throw .malformed
      if !isSpaceOrEnd (headerParts s).2.2.peek then throw .malformed
      return headerParts s := rfl
  rw [heq]
  refine Meets.ite (fun _ => .malformed) fun _ => ?_
  exact Meets.ite (fun _ => .malformed) fun _ => within_headerParts h

theorem meets_restOfLine (h : Within text s) :
    Meets (Within text) (TokenFault text) (restOfLine s) := by
  have hend : ∀ {s : Cursor}, Within text s → Meets (Within text) (TokenFault text)
      (if isBreakOrEnd s.peek then .ok s.lineBreak.2 else .error .malformed) :=
    fun hs => Meets.ite (fun _ => hs.lineBreak) fun _ => .malformed
  exact hend ((h.skipWhile _).skipLine.ite (h.skipWhile _))

/-- The lines of a block scalar, and what its chomping leaves of the line breaks behind them. -/
theorem keepsTo_chomped (chomping : Chomping) {folded : Bool} {column : Nat} {breaks : List Char}
    (h : Within text s) : KeepsTo text (
      let (lines, lineBreak, last, s) := blockLines folded column (s.rest.length + 1) [] breaks s
      match chomping with
      | .clip => pure (lines ++ lineBreak, s)
      | .keep => pure (lines ++ lineBreak ++ last, s)
      | .strip => pure (lines, s)) := by
  have hlast := within_blockLines folded column (s.rest.length + 1) [] breaks h
  rcases hfound : blockLines folded column (s.rest.length + 1) [] breaks s with
    ⟨lines, lineBreak, last, s'⟩
  rw [hfound] at hlast
  cases chomping with
  | clip => exact hlast
  | keep => exact hlast
  | strip => exact hlast

theorem keepsTo_blockScalar {outer : Int} (h : Within text s) :
    KeepsTo text (blockScalar outer s) := by
  refine Meets.bind (meets_blockHeader h.step) ?_
  rintro ⟨chomping, indentation, behind⟩ hbehind
  refine Meets.bind (meets_restOfLine (s := behind) hbehind) fun first hfirst => ?_
  cases indentation with
  | none =>
    have hbreaks := within_blockIndentation (first.rest.length + 1) 0 hfirst
    rcases hfound : blockIndentation (first.rest.length + 1) 0 first with ⟨breaks, widest, s'⟩
    rw [hfound] at hbreaks
    exact keepsTo_chomped chomping hbreaks
  | some n =>
    generalize hcolumn : (max (outer + 1) 1).toNat + n - 1 = column
    have hbreaks := within_blockBreaks column (first.rest.length + 1) hfirst
    rcases hfound : blockBreaks column (first.rest.length + 1) first with ⟨breaks, s'⟩
    rw [hfound] at hbreaks
    simp only [hcolumn, hfound]
    exact keepsTo_chomped chomping hbreaks

/-! ## Properties and directives -/

theorem keepsTo_anchorName (h : Within text s) : KeepsTo text (anchorName s) :=
  Meets.ite (fun _ => .malformed) fun _ => h.takeWhile _

theorem keepsTo_uriBytes (h : Within text s) : KeepsTo text (uriBytes fuel s) := by
  induction fuel generalizing s with
  | zero => exact keepsTo_ok h
  | succ fuel ih =>
    rw [uriBytes]
    dsimp only
    split
    · split
      · exact (ih (h.step.forward 2)).bind fun others s hs => keepsTo_ok hs
      · exact keepsTo_malformed
    · exact keepsTo_ok h

theorem keepsTo_uriText (h : Within text s) : KeepsTo text (uriText fuel s) := by
  induction fuel generalizing s with
  | zero => exact keepsTo_ok h
  | succ fuel ih =>
    refine Meets.ite (fun _ => ?_) fun _ => keepsTo_ok (h.takeWhile _)
    refine (keepsTo_uriBytes (h.takeWhile _)).bind fun bytes s hs => ?_
    dsimp only
    split
    · exact (ih hs).bind fun others s hs => keepsTo_ok hs
    · exact keepsTo_malformed

theorem keepsTo_uri (h : Within text s) : KeepsTo text (uri s) := by
  refine Meets.ite (fun _ => .malformed) fun _ => ?_
  exact (keepsTo_uriText h).bind fun chars s hs => keepsTo_ok hs

theorem keepsTo_tagHandle (h : Within text s) : KeepsTo text (tagHandle s) := by
  refine Meets.ite (fun _ => .malformed) fun _ => Meets.ite (fun _ => keepsTo_ok h.step) fun _ => ?_
  exact Meets.ite (fun _ => keepsTo_ok (h.step.takeWhile _).step) fun _ => .malformed

/-- A tag that has been read; a blank has to follow. -/
theorem keepsTo_tagEnd (tag : TagText) (h : Within text s) : KeepsTo text (do
    if !isSpaceOrEnd s.peek then throw .malformed
    return (tag, s)) :=
  Meets.ite (fun _ => .malformed) fun _ => keepsTo_ok h

/-- A tag behind its handle. -/
theorem keepsTo_tagBehind (handle : String) (h : Within text s) : KeepsTo text (do
    let (suffix, s) ← uri s
    if !isSpaceOrEnd s.peek then throw .malformed
    return ((⟨some handle, suffix⟩ : TagText), s)) :=
  (keepsTo_uri h).bind fun _ _ hs => keepsTo_tagEnd _ hs

theorem keepsTo_tagText (h : Within text s) : KeepsTo text (tagText s) := by
  refine Meets.ite (fun _ => ?_) fun _ => Meets.ite (fun _ => ?_) fun _ => ?_
  · refine (keepsTo_uri (h.forward 2)).bind fun suffix s hs => ?_
    exact Meets.ite (fun _ => .malformed) fun _ => keepsTo_tagEnd _ hs.step
  · exact keepsTo_tagEnd _ h.step
  · refine Meets.ite (fun _ => ?_) fun _ => ?_
    · exact (keepsTo_tagHandle h).bind fun handle s hs => keepsTo_tagBehind handle hs
    · exact keepsTo_tagBehind "!" h.step

/-- Only a number of too many digits is refused. -/
theorem keepsTo_directiveNumber (h : Within text s) : KeepsTo text (directiveNumber s) := by
  refine Meets.ite (fun _ => .malformed) fun _ => Meets.ite (fun hlong => ?_) fun _ => ?_
  · refine .version _ (h.found_isInfix (takeWhile_fst_isPrefix s _)) (fun c hc => ?_) hlong
    have hdigit := List.all_eq_true.1 List.all_takeWhile c hc
    simpa using hdigit
  · exact keepsTo_ok (h.takeWhile _)

theorem keepsTo_versionDirective (h : Within text s) : KeepsTo text (versionDirective s) := by
  refine (keepsTo_directiveNumber (h.skipWhile _)).bind fun major s hs => ?_
  refine Meets.ite (fun _ => .malformed) fun _ => ?_
  refine (keepsTo_directiveNumber hs.step).bind fun minor s hs => ?_
  exact Meets.ite (fun _ => .malformed) fun _ => keepsTo_ok hs

theorem keepsTo_handleDirective (h : Within text s) : KeepsTo text (handleDirective s) := by
  refine (keepsTo_tagHandle (h.skipWhile _)).bind fun handle s hs => ?_
  refine Meets.ite (fun _ => .malformed) fun _ => ?_
  refine (keepsTo_uri (hs.skipWhile _)).bind fun replacement s hs => ?_
  exact Meets.ite (fun _ => .malformed) fun _ => keepsTo_ok hs

theorem keepsTo_directiveLine (h : Within text s) : KeepsTo text (directiveLine s) := by
  have hend : ∀ (directive : Directive) {s : Cursor}, Within text s → KeepsTo text (do
      return (directive, ← restOfLine s)) :=
    fun directive s hs => Meets.bind (meets_restOfLine hs) fun s hs => keepsTo_ok hs
  refine Meets.ite (fun _ => .malformed) fun _ => ?_
  have hname : Within text (s.step.forward (s.step.rest.takeWhile isNameChar).length) :=
    h.step.takeWhile isNameChar
  generalize s.step.forward (s.step.rest.takeWhile isNameChar).length = behind at hname ⊢
  split
  · exact (keepsTo_versionDirective hname).bind fun directive s hs => hend directive hs
  · exact (keepsTo_handleDirective hname).bind fun directive s hs => hend directive hs
  · exact hend _ hname.skipLine

/-! ## Tokens -/

namespace Lexer

variable {l : Lexer}

/-- A step that leaves the cursor within the text, or ends in one of these faults. -/
def Proceeds (text : List Char) (answer : Except Fault Lexer) : Prop :=
  Meets (fun l => Within text l.cursor) (TokenFault text) answer

theorem Proceeds.bind {answer : Except Fault Lexer} {next : Lexer → Except Fault Lexer}
    (h : Proceeds text answer) (hnext : ∀ l, Within text l.cursor → Proceeds text (next l)) :
    Proceeds text (answer >>= next) :=
  Meets.bind h hnext

theorem cursor_unindent (column : Int) (l : Lexer) : (l.unindent column).cursor = l.cursor := by
  rw [unindent]
  split
  · rfl
  · rfl

theorem cursor_indentAt (column count : Nat) (token : Token) (l : Lexer) :
    (l.indentAt column count token).cursor = l.cursor := by
  rw [indentAt]
  split
  · rfl
  · rfl

theorem within_skipToToken (fuel : Nat) (h : Within text l.cursor) :
    Within text (skipToToken fuel l).cursor := by
  induction fuel generalizing l with
  | zero => exact h
  | succ fuel ih =>
    have hspaces := (h.skipWhile (· == ' ')).skipLine.ite
      (p := (l.cursor.skipWhile (· == ' ')).peek == '#') (h.skipWhile (· == ' '))
    rw [skipToToken]
    generalize (if (l.cursor.skipWhile (· == ' ')).peek == '#' then
      (l.cursor.skipWhile (· == ' ')).skipLine else l.cursor.skipWhile (· == ' ')) = s at hspaces ⊢
    split
    · exact ih hspaces.lineBreak
    · exact hspaces

theorem proceeds_dropStale (h : Within text l.cursor) : Proceeds text l.dropStale :=
  Meets.ite (fun _ => .malformed) fun _ => h

theorem proceeds_dropKey (h : Within text l.cursor) : Proceeds text l.dropKey := by
  rw [dropKey]
  split
  · exact Meets.ite (fun _ => .malformed) fun _ => h
  · exact h

theorem proceeds_saveKey (h : Within text l.cursor) : Proceeds text l.saveKey := by
  refine Meets.ite (fun _ => h) fun _ => ?_
  exact (proceeds_dropKey h).bind fun l hl => hl

theorem proceeds_documentMark {token : Token} (h : Within text l.cursor) :
    Proceeds text (l.documentMark token) := by
  refine (proceeds_dropKey ?_).bind fun l hl => hl.forward 3
  rwa [cursor_unindent]

theorem proceeds_openFlow {token : Token} (h : Within text l.cursor) :
    Proceeds text (l.openFlow token) :=
  (proceeds_saveKey h).bind fun _ hl => hl.forward 1

theorem proceeds_closeFlow {token : Token} (h : Within text l.cursor) :
    Proceeds text (l.closeFlow token) :=
  (proceeds_dropKey h).bind fun _ hl => hl.forward 1

theorem proceeds_flowEntry (h : Within text l.cursor) : Proceeds text l.flowEntry :=
  (proceeds_dropKey (l := l.allowKey true) h).bind fun _ hl => hl.forward 1

/-- Whether or not a collection is opened before an indicator, the cursor stays. -/
theorem within_opened {column count : Nat} {token : Token} (h : Within text l.cursor) :
    Within text (if l.inFlow then l else l.indentAt column count token).cursor := by
  split
  · exact h
  · rwa [cursor_indentAt]

theorem proceeds_blockEntry (h : Within text l.cursor) : Proceeds text l.blockEntry := by
  refine Meets.ite (fun _ => .malformed) fun _ => ?_
  refine Proceeds.bind (proceeds_dropKey ?_) fun l hl => hl.forward 1
  exact within_opened h

theorem proceeds_explicitKey (h : Within text l.cursor) : Proceeds text l.explicitKey := by
  refine Meets.ite (fun _ => .malformed) fun _ => ?_
  refine Proceeds.bind (proceeds_dropKey ?_) fun l hl => hl.forward 1
  exact within_opened h

theorem proceeds_mappingValue (h : Within text l.cursor) : Proceeds text l.mappingValue := by
  rw [mappingValue]
  split
  · next place _ =>
    generalize l.keys.filter _ = keys
    show Within text (Cursor.forward 1 _)
    exact (within_opened (l := Lexer.insert place.token .key { l with keys }) h).forward 1
  · refine Meets.ite (fun _ => .malformed) fun _ => ?_
    refine Proceeds.bind (proceeds_dropKey ?_) fun l hl => hl.forward 1
    exact within_opened h

theorem proceeds_keyToken {read : Cursor → Except Fault (α × Cursor)} {token : α → Token}
    (hread : ∀ {s : Cursor}, Within text s → KeepsTo text (read s)) (h : Within text l.cursor) :
    Proceeds text (l.keyToken read token) := by
  refine (proceeds_saveKey h).bind fun l hl => ?_
  exact Meets.bind (hread hl) fun found hfound => hfound

theorem proceeds_block (h : Within text l.cursor) : Proceeds text l.block := by
  refine (proceeds_dropKey (l := l.allowKey true) h).bind fun l hl => ?_
  exact Meets.bind (keepsTo_blockScalar hl) fun found hfound => hfound

theorem proceeds_plain (h : Within text l.cursor) : Proceeds text l.plain :=
  (proceeds_saveKey h).bind fun _ hl => within_plainScalar hl

theorem proceeds_streamEnd (h : Within text l.cursor) : Proceeds text l.streamEnd := by
  refine (proceeds_dropKey ?_).bind fun l hl => hl
  rwa [cursor_unindent]

theorem proceeds_directive (h : Within text l.cursor) : Proceeds text l.directive := by
  refine (proceeds_dropKey (l := l.unindent (-1)) ?_).bind fun l hl => ?_
  · rwa [cursor_unindent]
  · exact Meets.bind (keepsTo_directiveLine hl) fun found hfound => hfound

theorem proceeds_readToken (h : Within text l.cursor) : Proceeds text l.readToken := by
  refine Meets.ite (fun _ => proceeds_streamEnd h) fun _ => ?_
  refine Meets.ite (fun _ => proceeds_directive h) fun _ => ?_
  refine Meets.ite (fun _ => proceeds_documentMark h) fun _ => ?_
  refine Meets.ite (fun _ => proceeds_documentMark h) fun _ => ?_
  refine Meets.ite (fun _ => proceeds_openFlow h) fun _ => ?_
  refine Meets.ite (fun _ => proceeds_openFlow h) fun _ => ?_
  refine Meets.ite (fun _ => proceeds_closeFlow h) fun _ => ?_
  refine Meets.ite (fun _ => proceeds_closeFlow h) fun _ => ?_
  refine Meets.ite (fun _ => proceeds_flowEntry h) fun _ => ?_
  refine Meets.ite (fun _ => proceeds_blockEntry h) fun _ => ?_
  refine Meets.ite (fun _ => proceeds_explicitKey h) fun _ => ?_
  refine Meets.ite (fun _ => proceeds_mappingValue h) fun _ => ?_
  refine Meets.ite (fun _ => proceeds_keyToken (fun hs => keepsTo_anchorName hs.step) h) fun _ => ?_
  refine Meets.ite (fun _ => proceeds_keyToken (fun hs => keepsTo_anchorName hs.step) h) fun _ => ?_
  refine Meets.ite (fun _ => proceeds_keyToken keepsTo_tagText h) fun _ => ?_
  refine Meets.ite (fun _ => proceeds_block h) fun _ => ?_
  refine Meets.ite (fun _ => proceeds_keyToken keepsTo_quotedScalar h) fun _ => ?_
  exact Meets.ite (fun _ => proceeds_plain h) fun _ => .malformed

theorem proceeds_next (h : Within text l.cursor) : Proceeds text l.next := by
  have hskipped := within_skipToToken (l.cursor.rest.length + 1) h
  rw [next]
  refine (proceeds_dropStale hskipped).bind fun l hl => proceeds_readToken ?_
  rwa [cursor_unindent]

theorem run_succ (fuel : Nat) (l : Lexer) :
    run (fuel + 1) l =
      if l.tokens.head? == some .streamEnd then ⟨l.tokens.reverse, none⟩
      else
        match l.next with
        | .ok l => run fuel l
        | .error fault => ⟨l.settled, some fault⟩ := by
  -- a step is kept closed: opened, it is taken apart as far as the cursor is not known
  delta run run._f
  generalize Lexer.next = next
  rfl

theorem tokenFault_of_run {fault : Fault} (h : Within text l.cursor)
    (hfault : (run fuel l).fault = some fault) : TokenFault text fault := by
  induction fuel generalizing l with
  | zero => cases hfault
  | succ fuel ih =>
    rw [run_succ] at hfault
    split at hfault
    · cases hfault
    · have hnext := proceeds_next h
      cases hstep : l.next with
      | ok l =>
        rw [hstep] at hnext hfault
        exact ih hnext hfault
      | error fault =>
        rw [hstep] at hnext hfault
        cases hfault
        exact hnext

end Lexer

/-- What ends the tokens of a text before their end. -/
theorem tokenFault_of_ofText {fault : Fault} (h : (TokenList.ofText text).fault = some fault) :
    TokenFault text fault := by
  have hstart := (within_start text).step.ite (p := (start text).peek == '\uFEFF')
    (within_start text)
  exact Lexer.tokenFault_of_run (l := { cursor := _ }) hstart h

end Yaml

end Minifier
