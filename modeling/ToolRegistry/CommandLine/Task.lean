import ToolRegistry.CommandLine.Arguments
import ToolRegistry.Entry.FieldSet
import ToolRegistry.Error

/-!
# The tasks of the client program

The client program is called for one task: a request to the registry, or
something to do with its own settings. Every task is a subcommand, and on
every level it may be said where the registry is, which settings file to use
and how to write the result. Said more than once, the innermost level counts.

Each subcommand is described in one place (`Verb`): its names, what may be
given with it, and the task that this amounts to.
-/

namespace ToolRegistry.CommandLine

/-- How results are written. -/
inductive Format where
  | text
  | json
deriving DecidableEq, Repr

/-- Something to do with the settings. -/
inductive SettingsTask where
  | display
  | get (path : Text)
  | set (path value : Text)
deriving DecidableEq, Repr

/-- A request to the registry. -/
inductive Task where
  | create (fields : EntryFields)
  | change (id : EntryId) (fields : FieldSet)
  | delete (id : EntryId)
  | fetch (id : EntryId) (withStrings : Bool)
  | list
  | search (fields : FieldSet)
  | clean
  | addString (id : EntryId) (text : Text)
  | getString (id : EntryId) (pos : UInt64)
  | deleteString (id : EntryId) (pos : UInt64)
  | listStrings (id : EntryId)
  | countStrings (id : EntryId)
  | help
  | raw (line : Text)
deriving DecidableEq, Repr

/-- What the client program is called for. -/
inductive Job where
  | request (task : Task)
  | settings (task : SettingsTask)
deriving DecidableEq, Repr

/-- A call of the client program. -/
structure Call where
  job : Job
  /-- Where the registry is, if it is said. -/
  registry : Option Location
  /-- Which settings file to use, if it is said. -/
  file : Option Text
  format : Format
deriving DecidableEq, Repr

/-! ## Arguments -/

/-- An entry id in an argument. -/
def entryId? (t : Text) : Option EntryId := (natural? 32 t).map UInt32.ofNat

/-- A value of a numeric field in an argument. -/
def number? (t : Text) : Option Int32 := Decimal.int32? t

/-- The operand for an entry id. -/
def idOperand : OperandRule := { accepts := fun t => (entryId? t).isSome }

/-- The operand for a position. -/
def posOperand : OperandRule := { accepts := fun t => (Decimal.uint64? t).isSome }

/-- The option for a field of an entry. -/
def fieldOption (needed negative : Bool) (f : Field) : OptionRule where
  name := f.name
  accepts t := !f.isNumeric || (number? t).isSome
  negative := negative && f.isNumeric
  needed := needed

/-- The options for all fields, which have to be given. -/
def neededFields : List OptionRule := Field.all.map (fieldOption true false)

/-- The options for all fields, any of which may be left out. -/
def someFields : List OptionRule := Field.all.map (fieldOption false true)

namespace Given

/-- The operand at a position. -/
def operand? (g : Given) (i : Nat) : Option Text := g.operands[i]?

/-- The entry id that is the first operand. -/
def id? (g : Given) : Option EntryId := g.operand? 0 >>= entryId?

/-- The position that is the second operand. -/
def pos? (g : Given) : Option UInt64 := g.operand? 1 >>= Decimal.uint64?

/-- The set with the value given for a field, if one is. -/
def addField (g : Given) (s : FieldSet) (f : Field) : FieldSet :=
  match g.option? f.name with
  | none => s
  | some t =>
      match number? t, f.isNumeric with
      | some n, true => s.setNumber f n
      | _, _ => s.setText f t

/-- The values given for fields. -/
def fieldSet (g : Given) : FieldSet := Field.all.foldl g.addField ∅

/-- The values given for fields, with nothing and zero for those that are not. -/
def entryFields (g : Given) : EntryFields :=
  let s := g.fieldSet
  { app := s.app.getD [], site := s.site.getD [], mach := s.mach.getD [], node := s.node.getD [],
    port := s.port.getD 0, pid := s.pid.getD 0, comp := s.comp.getD [], tag := s.tag.getD [] }

end Given

/-! ## Subcommands -/

/-- A subcommand: its names, what may be given with it, and what that amounts to. -/
structure Verb (α : Type) where
  /-- Its names, the proper one first. -/
  names : List Text
  /-- What may be given. -/
  rules : Rules
  /-- What it amounts to. -/
  read : Given → Option α

/-- The requests to the registry. -/
def verbs : List (Verb Task) :=
  [⟨["create"], ⟨"Register a new entry", neededFields, []⟩, fun g => some (.create g.entryFields)⟩,
    ⟨["change"], ⟨"Change fields of an existing entry", someFields, [idOperand]⟩,
      fun g => g.id?.map fun id => .change id g.fieldSet⟩,
    ⟨["delete", "del"], ⟨"Delete an entry and its strings", [], [idOperand]⟩,
      fun g => g.id?.map .delete⟩,
    ⟨["show"], ⟨"Show one entry", [{ name := "strings", hasValue := false }], [idOperand]⟩,
      fun g => g.id?.map fun id => .fetch id (g.has "strings")⟩,
    ⟨["list"], ⟨"List all entries", [], []⟩, fun _ => some .list⟩,
    ⟨["search"], ⟨"Search entries; omitted fields match anything", someFields, []⟩,
      fun g => some (.search g.fieldSet)⟩,
    ⟨["clean"], ⟨"Delete every entry", [], []⟩, fun _ => some .clean⟩,
    ⟨["add-str"], ⟨"Attach a string to an entry", [], [idOperand, {}]⟩,
      fun g => do return .addString (← g.id?) (← g.operand? 1)⟩,
    ⟨["get-str"], ⟨"Print the string at a 1-based position", [], [idOperand, posOperand]⟩,
      fun g => do return .getString (← g.id?) (← g.pos?)⟩,
    ⟨["del-str"], ⟨"Delete the string at a 1-based position", [], [idOperand, posOperand]⟩,
      fun g => do return .deleteString (← g.id?) (← g.pos?)⟩,
    ⟨["list-str"], ⟨"List all strings of an entry", [], [idOperand]⟩,
      fun g => g.id?.map .listStrings⟩,
    ⟨["count-str"], ⟨"Count the strings of an entry", [], [idOperand]⟩,
      fun g => g.id?.map .countStrings⟩,
    ⟨["help"], ⟨"Show the command summary sent by the server", [], []⟩, fun _ => some .help⟩,
    ⟨["raw"], ⟨"Send one raw protocol line and print the response", [], [{}]⟩,
      fun g => (g.operand? 0).map .raw⟩]

/-- What can be done with the settings. -/
def settingsVerbs : List (Verb SettingsTask) :=
  [⟨["show"], ⟨"Print the effective configuration", [], []⟩, fun _ => some .display⟩,
    ⟨["get"], ⟨"Print one value, e.g. `registry.port`", [], [{}]⟩,
      fun g => (g.operand? 0).map .get⟩,
    ⟨["set"], ⟨"Set one value and save the file", [], [{}, {}]⟩,
      fun g => do return .set (← g.operand? 0) (← g.operand? 1)⟩]

/-- The name of the subcommand for the settings. -/
def settingsName : Text := "config"

/-! ## Levels -/

/-- The names of the formats. -/
def format? (t : Text) : Option Format :=
  if t = "text" then some .text else if t = "json" then some .json else none

/-- The options of every level. The environment may say where the registry is. -/
def sharedOptions (registry : Option Text) : List OptionRule :=
  [{ name := "registry", short := some 'r', accepts := fun t => (Location.parse? t).isSome,
     fallback := registry },
    { name := "config", accepts := fun t => t ≠ [] },
    { name := "format", short := some 'f', accepts := fun t => (format? t).isSome }]

/-- The rules of a level with the options of every level. -/
def withShared (registry : Option Text) (r : Rules) : Rules :=
  { r with options := r.options ++ sharedOptions registry }

/-- The level of a subcommand. -/
def Verb.level {α : Type} (registry : Option Text) (v : Verb α) : List Text × Level :=
  (v.names, .mk (withShared registry v.rules) [])

/-- The level of the subcommand for the settings. -/
def settingsLevel (registry : Option Text) : Level :=
  .mk (withShared registry ⟨"Show or edit the configuration file", [], []⟩)
    (settingsVerbs.map (Verb.level registry))

/-- The outermost level. -/
def clientLevel (registry : Option Text) : Level :=
  .mk (withShared registry ⟨"Inspect and edit a running Periscope registry", [], []⟩)
    (verbs.map (Verb.level registry) ++ [([settingsName], settingsLevel registry)])

/-! ## Calls -/

/-- What a subcommand amounts to. -/
def readVerb {α : Type} (vs : List (Verb α)) (g : Given) : Option α :=
  (vs.find? fun v => v.names.contains g.name) >>= fun v => v.read g

/-- What the program is called for. -/
def jobOf : List Given → Option Job
  | [_, g] => (readVerb verbs g).map .request
  | [_, _, g] => (readVerb settingsVerbs g).map .settings
  | _ => none

/-- The value of an option on the innermost level that has one. -/
def innermost? (gs : List Given) (name : Text) : Option Text :=
  (gs.reverse.findSome? fun g => g.option? name)

/-- The text in the environment variable for the location. Bytes that are no text are as wrong as
the empty text. -/
def variableText (value : Option Bytes) : Option Text := value.map fun b => (Utf8.decode? b).getD []

/-- Reads the arguments of the client program, with the value of the environment variable for the
location. -/
def readCall (told : Option Bytes) (args : List Text) : Except Stop Call :=
  let registry := variableText told
  match readArguments "psc-registry" (clientLevel registry) args with
  | .error s => .error s
  | .ok gs =>
      match jobOf gs with
      | none => .error .misuse
      | some job => .ok {
          job
          registry := (innermost? gs "registry" <|> registry) >>= Location.parse?
          file := innermost? gs "config"
          format := (innermost? gs "format" >>= format?).getD .text }

end ToolRegistry.CommandLine
