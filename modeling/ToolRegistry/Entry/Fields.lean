import ToolRegistry.Entry.Field

/-!
# Entries

`EntryFields` is the full set of values of one entry, and `EntryRecord` is
such a set together with the id under which the registry keeps it. An entry
may only be kept if it is *complete*: no text is empty and both numbers are
positive. `missing` names the fields that stand in the way, in wire order.

Ids are unsigned 32-bit numbers and the two numeric fields are signed 32-bit
numbers. The latter may hold zero or a negative value, which is how a request
says "no value" without leaving the field out.
-/

namespace ToolRegistry

/-- The number under which the registry keeps an entry. -/
abbrev EntryId := UInt32

/-- The values of the eight fields of an entry. -/
structure EntryFields where
  app : Text := []
  site : Text := []
  mach : Text := []
  node : Text := []
  port : Int32 := 0
  pid : Int32 := 0
  comp : Text := []
  tag : Text := []
deriving DecidableEq, Repr

namespace EntryFields

/-- Nothing but empty texts and zeros. -/
def blank : EntryFields := {}

/-- The text in a field, for a field that holds text. -/
def text? (e : EntryFields) : Field → Option Text
  | .app => some e.app
  | .site => some e.site
  | .mach => some e.mach
  | .node => some e.node
  | .comp => some e.comp
  | .tag => some e.tag
  | .port | .pid => none

/-- The number in a field, for a field that holds a number. -/
def number? (e : EntryFields) : Field → Option Int32
  | .port => some e.port
  | .pid => some e.pid
  | _ => none

/-- The entry with the text of one field replaced; a numeric field stays as it is. -/
def withText (e : EntryFields) (f : Field) (t : Text) : EntryFields :=
  match f with
  | .app => { e with app := t }
  | .site => { e with site := t }
  | .mach => { e with mach := t }
  | .node => { e with node := t }
  | .comp => { e with comp := t }
  | .tag => { e with tag := t }
  | .port | .pid => e

/-- The entry with one number replaced; a field that holds text stays as it is. -/
def withNumber (e : EntryFields) (f : Field) (n : Int32) : EntryFields :=
  match f with
  | .port => { e with port := n }
  | .pid => { e with pid := n }
  | _ => e

/-- Whether a field has no value: an empty text, or a number that is not positive. -/
def isMissing (e : EntryFields) (f : Field) : Bool :=
  match e.text? f, e.number? f with
  | some t, _ => t.isEmpty
  | none, some n => decide (n ≤ 0)
  | none, none => false

/-- The fields without a value, in wire order. -/
def missing (e : EntryFields) : List Field := Field.all.filter e.isMissing

/-- Whether every field has a value. -/
def IsComplete (e : EntryFields) : Prop := e.missing = []

instance (e : EntryFields) : Decidable e.IsComplete := inferInstanceAs (Decidable (_ = _))

theorem isComplete_iff {e : EntryFields} : e.IsComplete ↔ ∀ f, e.isMissing f = false := by
  simp only [IsComplete, missing, List.filter_eq_nil_iff, Bool.not_eq_true]
  exact ⟨fun h f => h f f.mem_all, fun h f _ => h f⟩

theorem text?_eq_none_of_number? {e : EntryFields} {f : Field} {n : Int32}
    (hn : e.number? f = some n) : e.text? f = none := by
  cases f with
  | port | pid => rfl
  | app | site | mach | node | comp | tag => cases hn

theorem IsComplete.ne_nil {e : EntryFields} (h : e.IsComplete) {f : Field} {t : Text}
    (ht : e.text? f = some t) : t ≠ [] := by
  have hf := isComplete_iff.mp h f
  rw [isMissing, ht] at hf
  exact fun hnil => absurd hf (by simp [hnil])

theorem IsComplete.pos {e : EntryFields} (h : e.IsComplete) {f : Field} {n : Int32}
    (hn : e.number? f = some n) : 0 < n := by
  have hf := isComplete_iff.mp h f
  simpa only [isMissing, text?_eq_none_of_number? hn, hn, decide_eq_false_iff_not,
    Int32.not_le] using hf

end EntryFields

/-- An entry as readers of the registry see it. -/
structure EntryRecord where
  /-- The number under which it is kept. -/
  id : EntryId
  fields : EntryFields
deriving DecidableEq, Repr

end ToolRegistry
