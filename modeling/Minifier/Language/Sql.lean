import Minifier.Comment
import Minifier.Text.Gap

/-!
# SQL

Queries with dash and block comments. Comments go and gaps become one space; the blanks around
operators stay.
-/

set_option autoImplicit false

namespace Minifier.Sql

/-- Minifies SQL. -/
def minify (text : Text) : Text :=
  (Comment.stripDashComments text).collapse

end Minifier.Sql
