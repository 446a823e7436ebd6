import ToolRegistry.Entry.FieldSet

/-!
# The store

The store is the table of entries, each with the texts attached to it, and
the id that the next entry will get. It is a plain value: an operation that
changes it returns the new store, and an operation that fails returns only
the reason, so a failed request cannot leave half a change behind.

Entries are kept in the order of their ids, each id at most once. That order
is part of the type (`ordered`), because it is what readers see: listing and
searching walk the table from front to back. As long as the counter of ids
has not come round, the order of ids is the order of creation.

Ids are 32 bits wide and the counter wraps. An entry created after that takes
the place of one that still has its id.
-/

namespace ToolRegistry

/-- What the store keeps under an id. -/
structure Stored where
  fields : EntryFields
  /-- The texts attached to it, oldest first. -/
  strings : List Text
deriving DecidableEq, Repr

/-- Why the store refuses an operation. -/
inductive StoreError where
  | incomplete (missing : List Field)
  | noEntry (id : EntryId)
  | noString (id : EntryId) (pos : UInt64)
deriving DecidableEq, Repr

/-! ## Tables ordered by id -/

/-- A table whose ids increase from front to back. -/
def IdOrdered (rows : List (EntryId × Stored)) : Prop := rows.Pairwise fun a b => a.1 < b.1

/-- Puts a row where its id belongs, in place of a row with the same id. -/
def insertRow (row : EntryId × Stored) : List (EntryId × Stored) → List (EntryId × Stored)
  | [] => [row]
  | r :: rest =>
      if row.1 < r.1 then row :: r :: rest
      else if row.1 = r.1 then row :: rest
      else r :: insertRow row rest

theorem mem_insertRow {row a : EntryId × Stored} {rows : List (EntryId × Stored)}
    (h : a ∈ insertRow row rows) : a = row ∨ a ∈ rows := by
  induction rows with
  | nil => simpa [insertRow] using h
  | cons r rest ih =>
      simp only [insertRow] at h
      split at h
      next => simpa using h
      next =>
        split at h
        next =>
          rcases List.mem_cons.mp h with h | h
          · exact Or.inl h
          · exact Or.inr (List.mem_cons_of_mem _ h)
        next =>
          rcases List.mem_cons.mp h with h | h
          · exact Or.inr (h ▸ List.mem_cons_self)
          · rcases ih h with h | h
            · exact Or.inl h
            · exact Or.inr (List.mem_cons_of_mem _ h)

theorem IdOrdered.insertRow {row : EntryId × Stored} {rows : List (EntryId × Stored)}
    (h : IdOrdered rows) : IdOrdered (insertRow row rows) := by
  induction rows with
  | nil => simp [IdOrdered, ToolRegistry.insertRow]
  | cons r rest ih =>
      obtain ⟨hr, hrest⟩ := List.pairwise_cons.mp h
      simp only [ToolRegistry.insertRow]
      split
      next hlt =>
        refine List.pairwise_cons.mpr ⟨fun a ha => ?_, h⟩
        rcases List.mem_cons.mp ha with rfl | ha
        · exact hlt
        · exact UInt32.lt_trans hlt (hr a ha)
      next hnlt =>
        split
        next heq => exact List.pairwise_cons.mpr ⟨fun a ha => heq ▸ hr a ha, hrest⟩
        next hne =>
          refine List.pairwise_cons.mpr ⟨fun a ha => ?_, ih hrest⟩
          rcases mem_insertRow ha with rfl | ha
          · exact UInt32.lt_of_le_of_ne (UInt32.not_lt.mp hnlt) fun h => hne h.symm
          · exact hr a ha

/-- Replaces what is kept under an id. -/
def updateRow (id : EntryId) (s : Stored) (rows : List (EntryId × Stored)) :
    List (EntryId × Stored) :=
  rows.map fun r => if r.1 = id then (r.1, s) else r

theorem IdOrdered.updateRow {id : EntryId} {s : Stored} {rows : List (EntryId × Stored)}
    (h : IdOrdered rows) : IdOrdered (updateRow id s rows) := by
  refine List.pairwise_map.mpr (h.imp ?_)
  intro a b hab
  split <;> split <;> exact hab

theorem IdOrdered.filter {p : EntryId × Stored → Bool} {rows : List (EntryId × Stored)}
    (h : IdOrdered rows) : IdOrdered (rows.filter p) := List.Pairwise.filter p h

/-! ## The store and its operations -/

/-- The table of entries and the id of the next one. -/
structure Store where
  /-- The entries with their ids, in the order of the ids. -/
  rows : List (EntryId × Stored)
  nextId : EntryId
  /-- The ids increase from front to back. -/
  ordered : IdOrdered rows

namespace Store

theorem ext_rows {s t : Store} (hr : s.rows = t.rows) (hn : s.nextId = t.nextId) : s = t := by
  cases s; cases t; simp_all

instance : DecidableEq Store := fun s t =>
  decidable_of_iff (s.rows = t.rows ∧ s.nextId = t.nextId)
    ⟨fun h => ext_rows h.1 h.2, fun h => h ▸ ⟨rfl, rfl⟩⟩

/-- The store without entries; the first id given out is 1. -/
def empty : Store := ⟨[], 1, List.Pairwise.nil⟩

instance : EmptyCollection Store := ⟨empty⟩

/-- How many entries there are. -/
def size (s : Store) : Nat := s.rows.length

/-- What is kept under an id. -/
def find? (s : Store) (id : EntryId) : Option Stored := s.rows.lookup id

/-- What is kept under an id, or the failure that there is no such entry. -/
def get (s : Store) (id : EntryId) : Except StoreError Stored :=
  match s.find? id with
  | some stored => .ok stored
  | none => .error (.noEntry id)

/-- The store with other contents under an id that is already there. -/
def put (s : Store) (id : EntryId) (stored : Stored) : Store :=
  ⟨updateRow id stored s.rows, s.nextId, s.ordered.updateRow⟩

/-- Keeps a new entry and answers its id; every field must have a value. -/
def create (s : Store) (fields : FieldSet) : Except StoreError (EntryId × Store) :=
  let entry := fields.toFields
  if entry.IsComplete then
    .ok (s.nextId, ⟨insertRow (s.nextId, ⟨entry, []⟩) s.rows, s.nextId + 1, s.ordered.insertRow⟩)
  else .error (.incomplete entry.missing)

/-- Lays the given values over an entry; refused if the entry would become incomplete. -/
def change (s : Store) (id : EntryId) (fields : FieldSet) :
    Except StoreError (EntryId × Store) := do
  let stored ← s.get id
  let entry := fields.applyTo stored.fields
  if entry.IsComplete then
    return (id, s.put id { stored with fields := entry })
  else throw (.incomplete entry.missing)

/-- Removes an entry and the texts attached to it. -/
def delete (s : Store) (id : EntryId) : Except StoreError (EntryId × Store) := do
  let _ ← s.get id
  return (id, ⟨s.rows.filter (·.1 != id), s.nextId, s.ordered.filter⟩)

/-- The values of one entry. -/
def fetch (s : Store) (id : EntryId) : Except StoreError EntryRecord := do
  let stored ← s.get id
  return ⟨id, stored.fields⟩

/-- The entries that agree with a set of values, in the order of their ids. -/
def search (s : Store) (predicate : FieldSet) : List EntryRecord :=
  (s.rows.filter fun r => predicate.accepts r.2.fields).map fun r => ⟨r.1, r.2.fields⟩

/-- All entries, in the order of their ids. -/
def list (s : Store) : List EntryRecord := s.search ∅

/-- Removes every entry and answers how many there were. The counter of ids goes on. -/
def clear (s : Store) : Nat × Store := (s.size, ⟨[], s.nextId, List.Pairwise.nil⟩)

/-! ## Attached texts

Positions count from 1, and removing a text moves the later ones down.
-/

/-- Attaches a text to an entry and answers its position. -/
def addString (s : Store) (id : EntryId) (t : Text) : Except StoreError (Nat × Store) := do
  let stored ← s.get id
  let strings := stored.strings ++ [t]
  return (strings.length, s.put id { stored with strings })

/-- The text at a position. -/
def getString (s : Store) (id : EntryId) (pos : UInt64) : Except StoreError Text := do
  let stored ← s.get id
  if pos = 0 then throw (.noString id pos)
  else
    match stored.strings[pos.toNat - 1]? with
    | some t => return t
    | none => throw (.noString id pos)

/-- Removes the text at a position. -/
def deleteString (s : Store) (id : EntryId) (pos : UInt64) : Except StoreError Store := do
  let stored ← s.get id
  if pos = 0 ∨ stored.strings.length < pos.toNat then throw (.noString id pos)
  else return s.put id { stored with strings := stored.strings.eraseIdx (pos.toNat - 1) }

/-- All texts of an entry, in the order of their positions. -/
def listStrings (s : Store) (id : EntryId) : Except StoreError (List Text) := do
  let stored ← s.get id
  return stored.strings

/-- How many texts an entry has. -/
def countStrings (s : Store) (id : EntryId) : Except StoreError Nat := do
  let stored ← s.get id
  return stored.strings.length

end Store

end ToolRegistry
