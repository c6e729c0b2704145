import Mathlib.Data.List.Infix
import Minifier.Yaml.Token.Scalar

/-!
# Cursors keep to their text

What is left at a cursor is the end of the text that it was started on (`Cursor.Within`). Every way
to move a cursor keeps this, so that whatever a reader finds at a cursor stands in the text.
-/

set_option autoImplicit false

namespace Minifier

namespace Yaml

variable {text : List Char}

namespace Cursor

variable {s : Cursor}

/-- What is left at a cursor is the end of a text. -/
def Within (text : List Char) (s : Cursor) : Prop :=
  s.rest <:+ text

theorem within_start (text : List Char) : Within text (start text) :=
  List.suffix_rfl

theorem rest_step (s : Cursor) : s.step.rest = s.rest.tail := by
  rw [step]
  cases hrest : s.rest with
  | nil => exact hrest
  | cons c rest => grind

theorem rest_forward (count : Nat) (s : Cursor) : (s.forward count).rest = s.rest.drop count := by
  induction count generalizing s with
  | zero => rfl
  | succ count ih => rw [forward, ih, rest_step, List.drop_tail]

/-- What is taken stands at the cursor. -/
theorem takeWhile_fst_isPrefix (s : Cursor) (p : Char → Bool) : (s.takeWhile p).1 <+: s.rest :=
  List.takeWhile_prefix p

theorem Within.ite {s' : Cursor} {p : Prop} [Decidable p] (h : Within text s)
    (h' : Within text s') : Within text (if p then s else s') := by
  split
  · exact h
  · exact h'

theorem Within.forward (h : Within text s) (count : Nat) : Within text (s.forward count) := by
  rw [Within, rest_forward]
  exact (List.drop_suffix count s.rest).trans h

theorem Within.step (h : Within text s) : Within text s.step :=
  h.forward 1

theorem Within.takeWhile (h : Within text s) (p : Char → Bool) : Within text (s.takeWhile p).2 :=
  h.forward _

theorem Within.skipWhile (h : Within text s) (p : Char → Bool) : Within text (s.skipWhile p) :=
  h.takeWhile p

theorem Within.skipLine (h : Within text s) : Within text s.skipLine :=
  h.skipWhile _

theorem Within.lineBreak (h : Within text s) : Within text s.lineBreak.2 := by
  rw [Cursor.lineBreak]
  split
  · exact h.forward 2
  · split
    · exact h.step
    · split
      · exact h.step
      · exact h
  · exact h

/-- What starts at a cursor stands in the text. -/
theorem Within.found_isInfix (h : Within text s) {found : List Char} (hfound : found <+: s.rest) :
    found <:+: text :=
  hfound.isInfix.trans h.isInfix

/-- The character at a cursor that is not at the end. -/
theorem rest_eq_peek_cons {c : Char} (hpeek : s.peek = c) (hc : c ≠ endMark) :
    s.rest = c :: s.step.rest := by
  rw [rest_step]
  rw [peek] at hpeek
  cases hrest : s.rest with
  | nil =>
    rw [hrest] at hpeek
    exact absurd hpeek.symm hc
  | cons first rest =>
    rw [hrest] at hpeek
    rw [← hpeek]
    rfl

end Cursor

open Cursor

variable {s : Cursor}

/-! ## Blocks -/

theorem within_blockIndentation (fuel widest : Nat) (h : Within text s) :
    Within text (blockIndentation fuel widest s).2.2 := by
  induction fuel generalizing widest s with
  | zero => exact h
  | succ fuel ih =>
    rw [blockIndentation]
    split
    · exact ih _ h.step
    · split
      · exact ih _ h.lineBreak
      · exact h

theorem within_indentTo {column : Nat} (h : Within text s) : Within text (indentTo column s) :=
  h.forward _

theorem within_blockBreaks (indentation fuel : Nat) (h : Within text s) :
    Within text (blockBreaks indentation fuel s).2 := by
  induction fuel generalizing s with
  | zero => exact h
  | succ fuel ih =>
    rw [blockBreaks]
    dsimp only
    split
    · exact ih (within_indentTo h).lineBreak
    · exact within_indentTo h

theorem within_blockLines (folded : Bool) (indentation fuel : Nat) (lineBreak breaks : List Char)
    (h : Within text s) :
    Within text (blockLines folded indentation fuel lineBreak breaks s).2.2.2 := by
  induction fuel generalizing lineBreak breaks s with
  | zero => exact h
  | succ fuel ih =>
    rw [blockLines]
    split
    · exact h
    · exact ih _ _ (within_blockBreaks _ _ (h.takeWhile _).lineBreak)

/-! ## Plain scalars -/

theorem within_plainBreaks (fuel : Nat) (h : Within text s) :
    Within text (plainBreaks fuel s).2 := by
  induction fuel generalizing s with
  | zero => exact h
  | succ fuel ih =>
    rw [plainBreaks]
    split
    · exact ih h.step
    · split
      · dsimp only
        split
        · exact h.lineBreak
        · exact ih h.lineBreak
      · exact h

theorem within_plainSpaces (h : Within text s) : Within text (plainSpaces s).2.2 := by
  rw [plainSpaces]
  dsimp only
  have hblanks := h.takeWhile (· == ' ')
  split
  · split
    · exact hblanks.lineBreak
    · have hbreaks := within_plainBreaks ((s.takeWhile (· == ' ')).2.lineBreak.2.rest.length + 1)
        hblanks.lineBreak
      cases hfound : plainBreaks ((s.takeWhile (· == ' ')).2.lineBreak.2.rest.length + 1)
          (s.takeWhile (· == ' ')).2.lineBreak.2 with
      | mk breaks s' =>
        rw [hfound] at hbreaks
        cases breaks with
        | none => exact hbreaks
        | some breaks => exact hbreaks
  · exact hblanks

theorem within_plainWords {flow : Bool} {indentation : Int} {fuel : Nat} {spaces : List Char}
    {ended : Bool} (h : Within text s) :
    Within text (plainWords flow indentation fuel spaces ended s).2.2 := by
  induction fuel generalizing spaces ended s with
  | zero => exact h
  | succ fuel ih =>
    rw [plainWords]
    dsimp only
    generalize (if s.peek == '#' then [] else plainWord flow s.rest) = word
    have hspaces := within_plainSpaces (h.forward word.length)
    split
    · exact h
    · split
      · exact hspaces
      · exact ih hspaces

theorem within_plainScalar {flow : Bool} {outer : Int} (h : Within text s) :
    Within text (plainScalar flow outer s).2.2 :=
  within_plainWords h

end Yaml

end Minifier
