/-!
# Lines

A text as the lines that are read out of it. A line ends with a line feed; a carriage return
right before the line feed belongs to the end. What follows the last end is a line of its own
unless it is empty.
-/

namespace Proactor.Text

/-- The characters of a line without the carriage return at its end; the last come first. -/
def dropReturn : List Char → List Char
  | '\r' :: cs => cs
  | cs => cs

/-- The lines of characters behind `line`, the front of the first, whose last come first. -/
def linesFrom (line : List Char) : List Char → List (List Char)
  | [] => if line.isEmpty then [] else [line.reverse]
  | '\n' :: cs => (dropReturn line).reverse :: linesFrom [] cs
  | c :: cs => linesFrom (c :: line) cs

/-- The lines of a text. -/
def lines (s : String) : List String := (linesFrom [] s.toList).map String.ofList

end Proactor.Text
