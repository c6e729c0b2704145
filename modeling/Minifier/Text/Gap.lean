import Minifier.Text.Blank

/-!
# Gaps

A gap is a maximal run of blanks in a text, seen together with what stands before and after it.
Most of minification is one operation, `Text.respace`: every gap is replaced by what a rule makes
of it, and every other glyph is copied. The rules here delete the gaps at the ends of a text
(`Text.strip`), write the others as one space (`Text.collapse`), or delete those that touch a
given mark (`Text.compact`).
-/

set_option autoImplicit false

namespace Minifier

/-- A maximal run of blanks, with the text before it, nearest glyph first, and the text after
it. -/
structure Gap where
  before : Text
  run : Text
  after : Text

/-- Whether a gap opens or ends the text. -/
def Gap.atEdge (gap : Gap) : Bool :=
  gap.before.isEmpty || gap.after.isEmpty

/-- Whether the glyph on one of the sides satisfies `marks`. -/
def Gap.touches (gap : Gap) (marks : Glyph → Bool) : Bool :=
  gap.before.head?.any marks || gap.after.head?.any marks

namespace Text

/-- Replaces every gap of the text `rest`, where `before` is what stands before it and `run` holds
the blanks that are read and not yet replaced, both nearest first. -/
def respaceFrom (rule : Gap → Text) : Text → Text → Text → Text
  | before, run, [] => if run.isEmpty then [] else rule ⟨before, run.reverse, []⟩
  | before, run, g :: rest =>
    if g.isBlank then respaceFrom rule before (g :: run) rest
    else
      (if run.isEmpty then [] else rule ⟨before, run.reverse, g :: rest⟩) ++
        g :: respaceFrom rule (g :: (run ++ before)) [] rest

/-- Replaces every gap of a text by what `rule` makes of it, and copies all else. -/
def respace (rule : Gap → Text) (text : Text) : Text :=
  respaceFrom rule [] [] text

/-- Deletes the gaps at the ends of a text. -/
def strip (text : Text) : Text :=
  respace (fun gap => if gap.atEdge then [] else gap.run) text

/-- Writes every gap as one space, and those at the ends of the text as nothing. -/
def collapse (text : Text) : Text :=
  respace (fun gap => if gap.atEdge then [] else [.char ' ']) text

/-- Writes every gap as one space. -/
def squeeze (text : Text) : Text :=
  respace (fun _ => [.char ' ']) text

/-- What is left of a gap that touches no mark: all of it, or the last mark that is itself a
blank. -/
def remainder (marks : Glyph → Bool) (run : Text) : Text :=
  match run.reverse.find? marks with
  | some mark => [mark]
  | none => run

/-- Deletes every gap next to a glyph that satisfies `marks`. -/
def compact (marks : Glyph → Bool) (text : Text) : Text :=
  respace (fun gap => if gap.touches marks then [] else remainder marks gap.run) text

/-- Membership in a list of marks. -/
def oneOf (marks : String) (g : Glyph) : Bool :=
  (ofString marks).contains g

/-- Compaction around the characters of a string, which has to name at least one. -/
def compactAround? (marks : String) (text : Text) : Option Text :=
  if marks.isEmpty then none else some (compact (oneOf marks) text)

end Text

end Minifier
