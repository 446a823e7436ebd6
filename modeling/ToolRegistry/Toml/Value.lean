import ToolRegistry.Text

/-!
# TOML values and tables

A TOML document is a table: keys with values, some of which are tables
again. The same table can be written in several ways, and the way it was
written decides what may still be added to it. That is what `Origin` records.
A table with a header of its own cannot get a second header, and no dotted
key may reach into it; one that only stood on the way of a longer header may
still get its own; one made by dotted keys can be extended by dotted keys;
and an inline table is complete where it stands.

All additions go through `within`, which walks down a path of keys and
creates the tables that are missing on the way. A walk along a header path
and a walk along a dotted key differ in which tables let them pass and in the
origin of the tables they create, and in nothing else. An array of tables
lets either walk pass, into its last table.

A key is given a value once: no operation here ever replaces one.
-/

namespace ToolRegistry.Toml

/-- How a table came to be. -/
inductive Origin where
  /-- It has a header of its own. -/
  | header
  /-- It stood on the way of a longer header. -/
  | passed
  /-- A dotted key leads through it. -/
  | dotted
  /-- It was written in braces. -/
  | inlined
deriving DecidableEq, Repr

/-- A value. Numbers other than integers, dates and times are kept as they were written. -/
inductive Value where
  | string (t : Text)
  | integer (i : Int)
  /-- A number with a fraction or an exponent, an infinity, or no number. -/
  | float (written : Text)
  | boolean (b : Bool)
  /-- A date, a time, or both. -/
  | moment (written : Text)
  | array (items : List Value)
  | table (origin : Origin) (entries : List (Text × Value))
  /-- The tables under headers in double brackets. -/
  | tables (items : List (List (Text × Value)))

/-- What a table holds: keys and their values, in the order in which they were written. -/
abbrev Entries := List (Text × Value)

/-! ## Walking down -/

/-- The value of a key. -/
def Entries.get? (entries : Entries) (key : Text) : Option Value := List.lookup key entries

/-- The entries with the value of a key replaced, or added at the end. -/
def Entries.put (key : Text) (v : Value) : Entries → Entries
  | [] => [(key, v)]
  | (k, old) :: rest => if k = key then (k, v) :: rest else (k, old) :: Entries.put key v rest

/-- What leads from one table to the next. -/
inductive Walk where
  /-- The path of a header. -/
  | header
  /-- A dotted key. -/
  | dotted
deriving DecidableEq, Repr

namespace Walk

/-- The origin of a table created on the way. -/
def creates : Walk → Origin
  | header => .passed
  | dotted => .dotted

/-- Whether a table of some origin lets a walk pass. -/
def passes : Walk → Origin → Bool
  | _, .inlined => false
  | header, _ => true
  | dotted, .header => false
  | dotted, _ => true

end Walk

/-- What is done to the table at the end of a walk; `none` if it is not allowed. -/
abbrev Change := Origin → Entries → Option Entries

/-- Carries out a change at the end of a walk, begun in a table with some origin. -/
def within (w : Walk) (change : Change) : List Text → Change
  | [], origin, entries => change origin entries
  | key :: path, _, entries =>
      match entries.get? key with
      | none => do
          let inner ← within w change path w.creates []
          return entries.put key (.table w.creates inner)
      | some (.table origin inner) =>
          if w.passes origin then do
            let inner ← within w change path origin inner
            return entries.put key (.table origin inner)
          else none
      | some (.tables items) => do
          let inner ← within w change path .header (items.getLastD [])
          return entries.put key (.tables (items.dropLast ++ [inner]))
      | some _ => none

/-! ## What may be added -/

/-- Gives a key a value, if it has none. -/
def addEntry (key : Text) (v : Value) : Change := fun _ entries =>
  match entries.get? key with
  | none => some (entries.put key v)
  | some _ => none

/-- A change that only tables made by dotted keys allow. -/
def ifDotted (change : Change) : Change := fun origin entries =>
  if origin = .dotted then change origin entries else none

/-- Gives a dotted key a value: the key at the end of a walk along the others. -/
def assign (path : List Text) (key : Text) (v : Value) : Change :=
  if path = [] then addEntry key v else within .dotted (ifDotted (addEntry key v)) path

/-- Opens the table of a header. -/
def openTable (key : Text) : Change := fun _ entries =>
  match entries.get? key with
  | none => some (entries.put key (.table .header []))
  | some (.table .passed inner) => some (entries.put key (.table .header inner))
  | some _ => none

/-- Opens another table under a header in double brackets. -/
def openElement (key : Text) : Change := fun _ entries =>
  match entries.get? key with
  | none => some (entries.put key (.tables [[]]))
  | some (.tables items) => some (entries.put key (.tables (items ++ [[]])))
  | some _ => none

/-! ## Inline tables -/

/-- A dotted key: the keys that lead to a table and the key in it. -/
structure KeyPath where
  /-- The keys that lead to the table. -/
  path : List Text
  /-- The key in the table. -/
  key : Text
deriving DecidableEq, Repr

/-- The entries of an inline table, from what is assigned in it. -/
def inlineEntries : List (KeyPath × Value) → Entries → Option Entries
  | [], entries => some entries
  | (k, v) :: rest, entries => do
      let entries ← assign k.path k.key v .inlined entries
      inlineEntries rest entries

/-! ## Documents -/

/-- A document while it is read: the table of everything, and the header that the next
assignments are under. -/
structure Document where
  /-- The table of everything. -/
  root : Entries := []
  /-- The path of the current table. -/
  current : List Text := []

namespace Document

/-- Gives a dotted key of the current table a value. -/
def assign (d : Document) (k : KeyPath) (v : Value) : Option Document := do
  let root ← within .header (Toml.assign k.path k.key v) d.current .header d.root
  return { d with root }

/-- Opens the table of a header, which becomes the current table. -/
def openTable (d : Document) (k : KeyPath) : Option Document := do
  let root ← within .header (Toml.openTable k.key) k.path .header d.root
  return ⟨root, k.path ++ [k.key]⟩

/-- Opens another table under a header in double brackets, which becomes the current table. -/
def openElement (d : Document) (k : KeyPath) : Option Document := do
  let root ← within .header (Toml.openElement k.key) k.path .header d.root
  return ⟨root, k.path ++ [k.key]⟩

end Document

end ToolRegistry.Toml
