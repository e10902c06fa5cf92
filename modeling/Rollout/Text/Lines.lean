/-!
# Lines

How a text is cut into lines.  A line ends at a line feed or at the end of the text, and the
carriage return of a CR LF pair belongs to the line end.  A carriage return anywhere else is an
ordinary character, and an empty text has no line at all.
-/

namespace Rollout.Text

/-- A finished line, given by its characters in reverse, without the carriage return of its end. -/
def closeLine : List Char → List Char
  | '\r' :: earlier => earlier.reverse
  | reversed => reversed.reverse

/-- The lines of the remaining characters when `reversed` holds, in reverse, what the current line
has so far. -/
def linesFrom (reversed : List Char) : List Char → List (List Char)
  | [] => if reversed.isEmpty then [] else [reversed.reverse]
  | c :: rest =>
      if c = '\n' then closeLine reversed :: linesFrom [] rest else linesFrom (c :: reversed) rest

/-- The lines of a text, each as its list of characters. -/
def lines (text : String) : List (List Char) :=
  linesFrom [] text.toList

end Rollout.Text
