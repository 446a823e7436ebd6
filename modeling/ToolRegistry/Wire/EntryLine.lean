import ToolRegistry.Wire.FieldPairs
import ToolRegistry.Wire.Token

/-!
# Entry lines

An entry is sent as one line: `ID`, the id, and a pair for each field. Every
text carries one space after it inside the quotes, and reading takes one such
space off every value again, so a text that itself ends in spaces comes back
as it was.

Reading passes over pairs whose key names no field and leaves a field that is
not given empty or zero; it refuses a line only if the id, the list of pairs
or a number cannot be read.
-/

namespace ToolRegistry.Wire

/-- The word that an entry line begins with. -/
def entryMark : Text := "ID"

/-! ## Writing -/

/-- The pair for one field of an entry. -/
def entryPair (e : EntryFields) (f : Field) : Text :=
  match e.number? f, e.text? f with
  | some n, _ => f.name ++ '=' :: Decimal.ofInt n.toInt
  | none, some t => f.name ++ '=' :: quote (t ++ [' '])
  | none, none => []

/-- The line for an entry. -/
def formatEntryLine (r : EntryRecord) : Text :=
  Text.join [' '] (entryMark :: Decimal.ofNat r.id.toNat :: Field.all.map (entryPair r.fields))

/-! ## Reading -/

/-- Sets the field named by a key to the value read for it. -/
def putPair (e : EntryFields) (pair : Text × Text) : Option EntryFields :=
  match Field.ofName? pair.1 with
  | none => some e
  | some f =>
      let value := pair.2.dropFinal ' '
      if f.isNumeric then (Decimal.int32? value.trim).map (e.withNumber f)
      else some (e.withText f value)

/-- Sets the field of every pair in turn. -/
def putPairs (e : EntryFields) : List (Text × Text) → Option EntryFields
  | [] => some e
  | pair :: rest => (putPair e pair).bind (putPairs · rest)

/-- Reads an entry line. -/
def parseEntryLine? (line : Text) : Option EntryRecord := do
  let rest ← Text.after? entryMark line
  let (token, rest) := splitToken rest
  let id ← Decimal.uint32? token
  let pairs ← (parsePairs rest).toOption
  let fields ← putPairs .blank pairs
  return ⟨id, fields⟩

end ToolRegistry.Wire
