/-
  WebBaseline.Text.Lines

  The lines of a text. A line ends with a line feed, alone or after a carriage
  return; a text that ends with one has no further line.
-/

namespace WebBaseline.Text

/-- The lines of a text, without their ends. -/
def lines : List Char → List (List Char)
  | [] => []
  | '\r' :: '\n' :: cs => [] :: lines cs
  | '\n' :: cs => [] :: lines cs
  | c :: cs =>
    match lines cs with
    | [] => [[c]]
    | l :: ls => (c :: l) :: ls

end WebBaseline.Text
