import ToolRegistry.Text

/-!
# Paths

A path tells the way to a file or a directory, part by part, from the
outermost directory on. An empty part, which a slash too many makes, and a dot
stay where they are; two dots go back out of a directory; every other part is
a name. Written down, the parts are separated by slashes.

A path keeps its parts as they were written. The way `a/..` can only be gone
where there is a directory `a`, so it is not the same as staying. And a slash
at the end, which is an empty part, says that a directory is meant.

What a path is called by is its last part that is not skipped. Leaving that
part out gives the `parent`, and giving it another ending gives `temporary`,
the path of a file that is written before it takes the place of another.
-/

namespace ToolRegistry

/-- The parts of a way that starts at the outermost directory. -/
structure Path where
  /-- The parts, in order. -/
  parts : List Text
deriving DecidableEq, Repr

namespace Path

/-! ## Parts -/

/-- Whether a part stays where it is. -/
def stays (part : Text) : Bool := part = [] || part = ['.']

/-- The part that goes back out of a directory. -/
def back : Text := ['.', '.']

/-! ## Written form -/

/-- Reads the written form of a path. Unless it begins with a slash, it goes on from `base`. -/
def ofText (base : Path) (t : Text) : Path :=
  match t with
  | '/' :: rest => ⟨Text.split '/' rest⟩
  | t => ⟨base.parts ++ Text.split '/' t⟩

/-- The written form of a path. -/
def render (p : Path) : Text := '/' :: Text.join ['/'] p.parts

/-- What is written with a slash in front is read as it was meant. -/
theorem render_ofText (base : Path) (t : Text) : (ofText base ('/' :: t)).render = '/' :: t := by
  simp [ofText, render, Text.join_split]

/-! ## The last part -/

/-- The parts in reverse order, from the last one on that is not skipped. -/
def backwards (p : Path) : List Text := p.parts.reverse.dropWhile stays

/-- The path without its last part. -/
def parent (p : Path) : Path := ⟨p.backwards.tail.reverse⟩

/-- The name that a path ends in. -/
def name? (p : Path) : Option Text := p.backwards.head?.filter (· ≠ back)

/-- Whether nothing that is skipped follows the last part. -/
def isBare (p : Path) : Bool := p.backwards == p.parts.reverse

/-! ## The temporary file -/

/-- A name with `.tmp` in place of what follows its last dot, or behind it if nothing would be
left of it.

The old ending is taken away first. What that leaves of a name like `..x` is two dots, which are no
name and cannot be given an ending; they can if more than the ending is taken away, which is so
where something skipped follows the name. -/
def temporaryName (bare : Bool) (name : Text) : Text :=
  match Text.splitAtLast? '.' name with
  | none | some ([], _) => name ++ ".tmp".toList
  | some (stem, _) => if bare ∧ stem = ['.'] then back else stem ++ ".tmp".toList

/-- The path of the file that is written in place of another before it is renamed. -/
def temporary (p : Path) : Path :=
  match p.name? with
  | none => p
  | some name => ⟨p.parent.parts ++ [temporaryName p.isBare name]⟩

end Path

end ToolRegistry
