import ToolRegistry.Toml.Number
import ToolRegistry.Toml.Value

/-!
# Writing TOML sections

What is written here is a plain kind of document: sections with a header, one
after the other with an empty line between them, and in each section keys
with a text or an integer on a line of their own. Everything that can be
written is read back as it was; an integer that does not fit in sixty-four
bits with a sign cannot be written.
-/

namespace ToolRegistry.Toml

/-- A section: its name and its lines. -/
structure Section where
  name : Text
  lines : Entries

/-- Writes a text or an integer; nothing else can be written. -/
def renderValue? : Value → Option Text
  | .string t => some (renderString t)
  | .integer i => if fits i then some (Decimal.ofInt i) else none
  | _ => none

/-- Writes a line of a section. -/
def renderLine? (line : Text × Value) : Option Text :=
  (renderValue? line.2).map fun v => line.1 ++ " = ".toList ++ v ++ ['\n']

namespace Section

/-- The line that begins a section. -/
def header (s : Section) : Text := '[' :: s.name ++ [']', '\n']

/-- Writes a section. -/
def render? (s : Section) : Option Text :=
  (s.lines.mapM renderLine?).map fun lines => s.header ++ lines.flatten

end Section

/-- Writes sections, with an empty line between each two. -/
def render? (sections : List Section) : Option Text :=
  (sections.mapM Section.render?).map (Text.join ['\n'])

end ToolRegistry.Toml
