import ToolRegistry.Text

/-!
# The eight fields of an entry

An entry of the registry describes one running component by eight fields:
the application it belongs to, where it runs (site, machine, node, port and
process id), what component it is, and a free tag. Six of them are texts and
two, `port` and `pid`, are numbers.

The order of `Field.all` is the order in which fields appear on the wire and
in which missing ones are reported. Everything that has to treat the fields
alike goes through this list, so that no field can be forgotten in one place
and remembered in another.
-/

namespace ToolRegistry

/-- One of the eight fields of an entry. -/
inductive Field where
  | app
  | site
  | mach
  | node
  | port
  | pid
  /-- The kind of component. -/
  | comp
  /-- A free text that tells components apart. -/
  | tag
deriving DecidableEq, Repr

namespace Field

/-- Every field, in the order of the wire. -/
def all : List Field := [app, site, mach, node, port, pid, comp, tag]

theorem mem_all (f : Field) : f ∈ all := by cases f <;> decide

/-- The key of a field. -/
def name : Field → Text
  | app => "app"
  | site => "site"
  | mach => "mach"
  | node => "node"
  | port => "port"
  | pid => "pid"
  | comp => "comp"
  | tag => "tag"

/-- Whether the field holds a number. -/
def isNumeric : Field → Bool
  | port | pid => true
  | _ => false

/-- The field with the given key. Keys are told apart by case. -/
def ofName? (key : Text) : Option Field := all.find? (·.name == key)

@[simp]
theorem ofName?_name (f : Field) : ofName? f.name = some f := by cases f <;> decide

end Field

end ToolRegistry
