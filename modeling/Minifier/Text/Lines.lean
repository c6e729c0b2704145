/-!
# Ends of lines

A line may end in a carriage return, a line feed, or both; inside the program only line feeds count.
-/

set_option autoImplicit false

namespace Minifier

/-- A text with a line feed for every end of a line. -/
def unifyLines : List Char → List Char
  | '\r' :: '\n' :: rest => '\n' :: unifyLines rest
  | '\r' :: rest => '\n' :: unifyLines rest
  | c :: rest => c :: unifyLines rest
  | [] => []

end Minifier
