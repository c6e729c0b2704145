import Minifier.Comment
import Minifier.Text.Gap

/-!
# PHP

Code with slash and block comments, as of PHP. Comments go, gaps become one space, and gaps next to
punctuation vanish.
-/

set_option autoImplicit false

namespace Minifier.Php

/-- The punctuation that needs no blanks around it. -/
def punctuation : String :=
  "()\x7b\x7d[],;:=><"

/-- Minifies PHP. -/
def minify (text : Text) : Text :=
  (((Comment.stripSlashComments text).collapse).compact (Text.oneOf punctuation)).strip

end Minifier.Php
