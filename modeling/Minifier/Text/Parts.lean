/-!
# Parts of a text

A text divided at the occurrences of one character.
-/

set_option autoImplicit false

namespace Minifier

/-- The parts of a text between the occurrences of a separator; there is one more of them than
there are separators. -/
def partsBetween (separator : Char) : List Char → List (List Char)
  | [] => [[]]
  | c :: rest =>
    match partsBetween separator rest with
    | [] => [[c]]
    | first :: others => if c = separator then [] :: first :: others else (c :: first) :: others

end Minifier
