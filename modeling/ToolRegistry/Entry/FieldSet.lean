import ToolRegistry.Entry.Fields

/-!
# Partial entries

A request rarely speaks of all eight fields. A `FieldSet` holds a value for
any subset of them, and the three requests that carry one read it in three
ways:

- creating an entry takes the set as the whole entry (`toFields`), so that
  what is not given counts as missing;
- changing an entry lays the set over the old values (`applyTo`): a given
  text replaces the old one even if it is empty, while a number replaces the
  old one only if it is positive;
- searching takes the set as a predicate (`accepts`): a given text or number
  must be matched exactly, and an empty text or a number that is not positive
  matches anything.

The asymmetry between texts and numbers is deliberate. Laying an empty text
over an entry makes the entry incomplete, and an incomplete entry is refused,
whereas a number that is not positive simply stands for "as before".
-/

namespace ToolRegistry

/-- Values for some of the eight fields. -/
structure FieldSet where
  app : Option Text := none
  site : Option Text := none
  mach : Option Text := none
  node : Option Text := none
  port : Option Int32 := none
  pid : Option Int32 := none
  comp : Option Text := none
  tag : Option Text := none
deriving DecidableEq, Repr

namespace FieldSet

/-- The set that gives nothing. -/
def empty : FieldSet := {}

instance : EmptyCollection FieldSet := ⟨empty⟩

/-- The set that gives all eight values of an entry. -/
def ofFields (e : EntryFields) : FieldSet where
  app := some e.app
  site := some e.site
  mach := some e.mach
  node := some e.node
  port := some e.port
  pid := some e.pid
  comp := some e.comp
  tag := some e.tag

/-! ## Looking up and setting -/

/-- Whether nothing is given. -/
def isEmpty (s : FieldSet) : Bool := s == empty

/-- The text given for a field. -/
def text? (s : FieldSet) : Field → Option Text
  | .app => s.app
  | .site => s.site
  | .mach => s.mach
  | .node => s.node
  | .comp => s.comp
  | .tag => s.tag
  | .port | .pid => none

/-- The number given for a field. -/
def number? (s : FieldSet) : Field → Option Int32
  | .port => s.port
  | .pid => s.pid
  | _ => none

/-- Gives a text for a field; a numeric field stays as it is. -/
def setText (s : FieldSet) (f : Field) (t : Text) : FieldSet :=
  match f with
  | .app => { s with app := some t }
  | .site => { s with site := some t }
  | .mach => { s with mach := some t }
  | .node => { s with node := some t }
  | .comp => { s with comp := some t }
  | .tag => { s with tag := some t }
  | .port | .pid => s

/-- Gives a number for a field; a field that holds text stays as it is. -/
def setNumber (s : FieldSet) (f : Field) (n : Int32) : FieldSet :=
  match f with
  | .port => { s with port := some n }
  | .pid => { s with pid := some n }
  | _ => s

/-! ## The three readings -/

/-- The number that a set puts in place of `old`: the given one if it is positive. -/
def overNumber (given : Option Int32) (old : Int32) : Int32 :=
  (given.filter (0 < ·)).getD old

/-- Lays the given values over those of `base`. -/
def applyTo (s : FieldSet) (base : EntryFields) : EntryFields where
  app := s.app.getD base.app
  site := s.site.getD base.site
  mach := s.mach.getD base.mach
  node := s.node.getD base.node
  port := overNumber s.port base.port
  pid := overNumber s.pid base.pid
  comp := s.comp.getD base.comp
  tag := s.tag.getD base.tag

/-- The set taken as a whole entry; what is not given is empty or zero. -/
def toFields (s : FieldSet) : EntryFields := s.applyTo .blank

/-- Whether the values of `e` agree with the set in one field. An empty text and a number that is
not positive agree with everything. -/
def acceptsField (s : FieldSet) (e : EntryFields) (f : Field) : Bool :=
  if f.isNumeric then
    match (s.number? f).filter (0 < ·) with
    | some wanted => e.number? f == some wanted
    | none => true
  else
    match (s.text? f).filter (!·.isEmpty) with
    | some wanted => e.text? f == some wanted
    | none => true

/-- Whether an entry agrees with the set in every field. -/
def accepts (s : FieldSet) (e : EntryFields) : Bool := Field.all.all (s.acceptsField e)

end FieldSet

end ToolRegistry
