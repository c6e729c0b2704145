import Minifier.Kind
import Minifier.Language.Css
import Minifier.Language.JavaScript
import Minifier.Language.Php
import Minifier.Language.Sql
import Minifier.Language.Vue

/-!
# Minification

`minify` applies the rules of a kind of file; `minifyRepeatedly` applies them several times over
and keeps every result.
-/

set_option autoImplicit false

namespace Minifier

/-- Minifies a text by the rules of its kind. -/
def minify : Kind → Text → Text
  | .php => Php.minify
  | .sql => Sql.minify
  | .javaScript => JavaScript.minify
  | .css => Css.minify
  | .vue => Vue.minify

/-- Minifies by the name of a kind, which has to be one. -/
def minifyNamed (kind : String) (text : Text) : Except UnknownKind Text :=
  (Kind.resolve kind).map fun kind => minify kind text

/-- The results of the first, second, … of a number of passes over a text. -/
def minifyRepeatedly (kind : Kind) : Nat → Text → List Text
  | 0, _ => []
  | passes + 1, text =>
    let once := minify kind text
    once :: minifyRepeatedly kind passes once

end Minifier
