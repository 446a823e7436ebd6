import ToolRegistry.Text.Decimal
import ToolRegistry.Text.Digits

/-!
# JSON

Results for other programs are written as JSON, one element or member on a
line and two spaces deeper for every level. An array or object without
contents is written without a line end. In a string the quote, the backslash
and the control characters below U+0020 are escaped, the last ones by a
letter where there is one, and every other character stands for itself.
-/

namespace ToolRegistry

/-- A result for other programs. -/
inductive Json where
  | number (i : Int)
  | string (t : Text)
  | array (items : List Json)
  | object (members : List (Text × Json))

namespace Json

/-! ## Strings -/

/-- How a character is written in a string. -/
def escaped (c : Char) : Text :=
  match c with
  | '"' => "\\\""
  | '\\' => "\\\\"
  | '\n' => "\\n"
  | '\r' => "\\r"
  | '\t' => "\\t"
  | '\x08' => "\\b"
  | '\x0c' => "\\f"
  | c =>
      if c.toNat < 0x20 then
        let digits := Digits.lowerHex c.toNat
        "\\u".toList ++ List.replicate (4 - digits.length) '0' ++ digits
      else [c]

/-- A text in quotes. -/
def quoted (t : Text) : Text := '"' :: t.flatMap escaped ++ ['"']

/-! ## Lines -/

/-- The end of a line, and the space in front of the next one. -/
def newLine (depth : Nat) : Text := '\n' :: List.replicate (2 * depth) ' '

mutual

/-- Writes a result that stands at some depth. -/
def renderAt (depth : Nat) : Json → Text
  | number i => Decimal.ofInt i
  | string t => quoted t
  | array [] => ['[', ']']
  | array (item :: rest) =>
      '[' :: newLine (depth + 1) ++ renderAt (depth + 1) item ++ renderItems (depth + 1) rest ++
        newLine depth ++ [']']
  | object [] => ['\x7b', '\x7d']
  | object ((name, value) :: rest) =>
      '\x7b' :: newLine (depth + 1) ++ quoted name ++ [':', ' '] ++ renderAt (depth + 1) value ++
        renderMembers (depth + 1) rest ++ newLine depth ++ ['\x7d']

/-- Writes the elements after the first. -/
def renderItems (depth : Nat) : List Json → Text
  | [] => []
  | item :: rest => ',' :: newLine depth ++ renderAt depth item ++ renderItems depth rest

/-- Writes the members after the first. -/
def renderMembers (depth : Nat) : List (Text × Json) → Text
  | [] => []
  | (name, value) :: rest =>
      ',' :: newLine depth ++ quoted name ++ [':', ' '] ++ renderAt depth value ++
        renderMembers depth rest

end

/-- Writes a result, with a line end. -/
def render (j : Json) : Text := renderAt 0 j ++ ['\n']

/-- A natural number. -/
def nat (n : Nat) : Json := number n

end Json

end ToolRegistry
