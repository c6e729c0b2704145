import Minifier.Text.Glyph

/-!
# Comments

Comments are found by their markers alone: a marker inside a quoted string opens a comment like any
other. A block comment runs from `/*` to the first `*/` after it, or to the end of the text. A
slash comment runs from `//` to the next line feed, which stays. A dash comment takes a whole line
that starts, after spaces and tabs, with `--`. Main definitions: `stripBlocks`,
`stripSlashComments`, `stripDashComments`.
-/

set_option autoImplicit false

namespace Minifier

namespace Comment

/-- Where a reader stands that deletes comments. -/
inductive Mode where
  | code
  | line
  | block
  deriving DecidableEq, Repr

/-- Deletes block comments, from inside one or from outside. -/
def stripBlocksFrom : Bool → Text → Text
  | _, [] => []
  | false, .char '/' :: .char '*' :: rest => stripBlocksFrom true rest
  | false, g :: rest => g :: stripBlocksFrom false rest
  | true, .char '*' :: .char '/' :: rest => stripBlocksFrom false rest
  | true, _ :: rest => stripBlocksFrom true rest

/-- Deletes the block comments of a text. -/
def stripBlocks (text : Text) : Text :=
  stripBlocksFrom false text

/-- Deletes slash and block comments, from a given mode on. -/
def stripSlashFrom : Mode → Text → Text
  | _, [] => []
  | .code, .char '/' :: .char '/' :: rest => stripSlashFrom .line rest
  | .code, .char '/' :: .char '*' :: rest => stripSlashFrom .block rest
  | .code, g :: rest => g :: stripSlashFrom .code rest
  | .line, g :: rest =>
    if g = .char '\n' then g :: stripSlashFrom .code rest else stripSlashFrom .line rest
  | .block, .char '*' :: .char '/' :: rest => stripSlashFrom .code rest
  | .block, _ :: rest => stripSlashFrom .block rest

/-- Deletes the slash and block comments of a text; the leftmost marker wins. -/
def stripSlashComments (text : Text) : Text :=
  stripSlashFrom .code text

/-- Whether a text starts, after spaces and tabs, with two dashes. -/
def opensDashLine (text : Text) : Bool :=
  match text.dropWhile fun g => g = .char ' ' || g = .char '\t' with
  | .char '-' :: .char '-' :: _ => true
  | _ => false

/-- Deletes dash and block comments, from a given mode on; `fresh` says that a line starts here. -/
def stripDashFrom : Mode → Bool → Text → Text
  | _, _, [] => []
  | .code, fresh, g :: rest =>
    if fresh && opensDashLine (g :: rest) then stripDashFrom .line false rest
    else
      match g, rest with
      | .char '/', .char '*' :: rest => stripDashFrom .block false rest
      | g, rest => g :: stripDashFrom .code (g = .char '\n') rest
  | .line, _, g :: rest =>
    if g = .char '\n' then g :: stripDashFrom .code true rest
    else stripDashFrom .line false rest
  | .block, _, .char '*' :: .char '/' :: rest => stripDashFrom .code false rest
  | .block, _, _ :: rest => stripDashFrom .block false rest

/-- Deletes the dash and block comments of a text. -/
def stripDashComments (text : Text) : Text :=
  stripDashFrom .code true text

end Comment

end Minifier
