import ToolRegistry.Text.Decimal

/-!
# Templates

The texts of replies are templates with `{}` in the places where a value
goes. The server fills them in, and the client reads the numbers back out of
the very same templates, so neither side holds a second copy of a wording.

A template is cut at its places into pieces: `n` places make `n + 1` pieces.
`render` lays the pieces and the values out in turn. `scan` walks along the
pieces and takes the longest number it finds between two of them, where a
minus sign counts only as the first character. A number must fit in 64 bits
with a sign, the pieces must match exactly, and what follows the last piece
is ignored.
-/

namespace ToolRegistry.Wire.Template

/-- The pieces of a template between its places. -/
def pieces : Text → List Text
  | [] => [[]]
  | '{' :: '}' :: rest => [] :: pieces rest
  | c :: rest =>
      match pieces rest with
      | piece :: more => (c :: piece) :: more
      | [] => [[c]]

/-! ## Filling in -/

/-- Each piece with the value in front of it; a missing value leaves nothing. -/
def interleave : List Text → List Text → Text
  | [], _ => []
  | piece :: more, [] => piece ++ interleave more []
  | piece :: more, value :: values => value ++ piece ++ interleave more values

/-- The template with the values in its places, in order. -/
def render (template : Text) (values : List Text) : Text :=
  match pieces template with
  | first :: more => first ++ interleave more values
  | [] => []

/-! ## Reading back -/

/-- The longest run of digits that a text begins with, with a minus sign in front if there is
one, and the rest of the text. -/
def takeNumber : Text → Text × Text
  | '-' :: rest => ('-' :: rest.takeWhile Char.isDigit, rest.dropWhile Char.isDigit)
  | t => (t.takeWhile Char.isDigit, t.dropWhile Char.isDigit)

/-- Reads a number and then a piece, for each of the pieces. -/
def scanPieces : List Text → Text → Option (List Int)
  | [], _ => some []
  | piece :: more, t => do
      let (number, rest) := takeNumber t
      let value ← Decimal.signed? 64 number
      let rest ← Text.after? piece rest
      let values ← scanPieces more rest
      return value :: values

/-- The numbers in the places of a template, for a text that begins with it. -/
def scan (template t : Text) : Option (List Int) :=
  match pieces template with
  | first :: more => (Text.after? first t).bind (scanPieces more)
  | [] => none

end ToolRegistry.Wire.Template
