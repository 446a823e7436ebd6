import ToolRegistry.Entry.FieldSet
import ToolRegistry.Text.Decimal
import ToolRegistry.Text.WhiteSpace
import ToolRegistry.Wire.Pair

/-!
# Field sets on the wire

A field set is written as one pair for each given field, in the order of the
fields: texts in quotes, numbers bare. Reading accepts more than writing
produces: pairs in any order, bare texts, quoted numbers with white space
around them, and the same key several times, of which the last one counts.

All pairs are read before any of them is looked at, so a fault of the syntax
anywhere in the line wins over an unknown key or a bad number before it.

A text can only be written if it holds no quote, because the quoted form has
no escapes, and no line break, because the line would end there.
-/

namespace ToolRegistry.Wire

/-! ## Reading -/

/-- Gives the field named by a key the value read for it. -/
def givePair (s : FieldSet) (pair : Text × Text) : Except GrammarError FieldSet :=
  match Field.ofName? pair.1 with
  | none => .error (.unknownKey pair.1)
  | some f =>
      if f.isNumeric then
        match Decimal.int32? pair.2.trim with
        | some n => .ok (s.setNumber f n)
        | none => .error (.invalidNumber pair.1 pair.2)
      else .ok (s.setText f pair.2)

/-- Gives every pair in turn, so that the last value for a key counts. -/
def givePairs (s : FieldSet) : List (Text × Text) → Except GrammarError FieldSet
  | [] => .ok s
  | pair :: rest =>
      match givePair s pair with
      | .error e => .error e
      | .ok s => givePairs s rest

/-- Reads a list of field pairs. -/
def parseFieldSet (t : Text) : Except GrammarError FieldSet :=
  match parsePairs t with
  | .error e => .error e
  | .ok pairs => givePairs ∅ pairs

/-! ## Writing -/

/-- Whether a text can be written between quotes. -/
def IsEncodable (t : Text) : Prop := '"' ∉ t ∧ '\r' ∉ t ∧ '\n' ∉ t

instance (t : Text) : Decidable (IsEncodable t) := inferInstanceAs (Decidable (_ ∧ _ ∧ _))

/-- A text in quotes. -/
def quote (t : Text) : Text := '"' :: t ++ ['"']

/-- The pair for one field, if it is given. -/
def encodeField (s : FieldSet) (f : Field) : Option Text :=
  match s.number? f, s.text? f with
  | some n, _ => some (f.name ++ '=' :: Decimal.ofInt n.toInt)
  | none, some t => some (f.name ++ '=' :: quote t)
  | none, none => none

/-- The pairs for the given fields, with a space between each two. -/
def encodeFieldSet (s : FieldSet) : Text :=
  Text.join [' '] (Field.all.filterMap (encodeField s))

end ToolRegistry.Wire
