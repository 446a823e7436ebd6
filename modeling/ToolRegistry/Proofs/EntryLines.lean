import ToolRegistry.Proofs.Requests
import ToolRegistry.Wire.EntryLine

/-!
# An entry that is sent is the entry that is read

An entry line is the mark, the id, and one pair for each field, so most of
what is needed to read it back is known from requests already. Two things are
particular. Every text carries a space of its own inside its quotes, which is
why a text that ends in spaces does not lose any of them. And the reader
starts from a blank entry and sets one field after the other, so that the
entry is complete only after the last pair.

The pairs of an entry line are looked at for any list of fields, not only for
all eight, because a line that has been cut off holds the pairs of the first
few.
-/

namespace ToolRegistry

/-- Every text of an entry has a property. -/
def EntryFields.AllTexts (P : Text → Prop) (e : EntryFields) : Prop := ∀ f, ∀ t ∈ e.text? f, P t

instance (P : Text → Prop) [DecidablePred P] (e : EntryFields) : Decidable (e.AllTexts P) :=
  decidable_of_iff (∀ f ∈ Field.all, ∀ t ∈ e.text? f, P t)
    ⟨fun h f => h f f.mem_all, fun h f _ => h f⟩

theorem EntryFields.AllTexts.mono {P Q : Text → Prop} {e : EntryFields} (h : e.AllTexts P)
    (hPQ : ∀ t, P t → Q t) : e.AllTexts Q := fun f t ht => hPQ t (h f t ht)

/-- A field holds a number or a text, and its kind tells which. -/
theorem EntryFields.value_cases (e : EntryFields) (f : Field) :
    (∃ n, e.number? f = some n ∧ e.text? f = none ∧ f.isNumeric = true) ∨
      ∃ t, e.number? f = none ∧ e.text? f = some t ∧ f.isNumeric = false := by
  cases f with
  | app | site | mach | node | comp | tag => exact .inr ⟨_, rfl, rfl, rfl⟩
  | port | pid => exact .inl ⟨_, rfl, rfl, rfl⟩

theorem EntryFields.isNumeric_of_number? {e : EntryFields} {f : Field} {n : Int32}
    (h : e.number? f = some n) : f.isNumeric = true := by
  cases f <;> first | rfl | cases h

theorem EntryFields.isNumeric_of_text? {e : EntryFields} {f : Field} {t : Text}
    (h : e.text? f = some t) : f.isNumeric = false := by
  cases f <;> first | rfl | cases h

namespace Wire

open Text

/-! ## One field -/

/-- The pair that the field of an entry line is read as. -/
def entryValue (e : EntryFields) (f : Field) : Text × Text :=
  match e.number? f, e.text? f with
  | some n, _ => (f.name, Decimal.ofInt n.toInt)
  | none, some t => (f.name, t ++ [' '])
  | none, none => ([], [])

theorem isWrittenPair_entryPair {e : EntryFields} (he : e.AllTexts ('"' ∉ ·)) (f : Field) :
    IsWrittenPair (entryPair e f) (entryValue e f) := by
  rcases e.value_cases f with ⟨n, hn, -, -⟩ | ⟨t, hn, ht, -⟩
  · simp only [entryPair, entryValue, hn]
    exact isWrittenPair_number (isKey_name f) n.toInt
  · simp only [entryPair, entryValue, hn, ht]
    refine isWrittenPair_quote (isKey_name f) fun h => ?_
    rcases List.mem_append.mp h with h | h
    · exact he f t ht h
    · exact absurd h (by decide)

theorem dropFinal_space (t : Text) : dropFinal ' ' (t ++ [' ']) = t := by
  rw [dropFinal, if_pos List.getLast?_concat, List.dropLast_concat]

theorem dropFinal_of_not_blank {t : Text} (h : ∀ c ∈ t, isBlank c = false) :
    dropFinal ' ' t = t := by
  rw [dropFinal, if_neg]
  intro hl
  exact absurd (h _ (List.mem_of_getLast? hl)) (by decide)

/-- The entry `b` with the value that `e` has in one field. -/
def takeField (e b : EntryFields) (f : Field) : EntryFields :=
  match e.number? f, e.text? f with
  | some n, _ => b.withNumber f n
  | none, some t => b.withText f t
  | none, none => b

theorem putPair_entryValue (e b : EntryFields) (f : Field) :
    putPair b (entryValue e f) = some (takeField e b f) := by
  rcases e.value_cases f with ⟨n, hn, -, hk⟩ | ⟨t, hn, ht, hk⟩
  · simp only [putPair, entryValue, takeField, hn, Field.ofName?_name, hk, if_true,
      dropFinal_of_not_blank fun _ => isBlank_of_mem_ofInt, Decimal.trim_ofInt,
      Decimal.int32?_ofInt, Option.map_some]
  · simp only [putPair, entryValue, takeField, hn, ht, Field.ofName?_name, hk,
      Bool.false_eq_true, if_false, dropFinal_space]

/-! ## Some fields -/

/-- Reading the pairs of some fields, whatever follows them. -/
theorem putPairs_entryValues (e b : EntryFields) (fs : List Field) (rest : List (Text × Text)) :
    putPairs b (fs.map (entryValue e) ++ rest) = putPairs (fs.foldl (takeField e) b) rest := by
  induction fs generalizing b with
  | nil => rfl
  | cons f fs ih =>
      rw [List.map_cons, List.cons_append, putPairs, putPair_entryValue, Option.bind_some, ih,
        List.foldl_cons]

/-- Taking over one field touches nothing else. -/
theorem takeField_eq (e b : EntryFields) (f : Field) :
    takeField e b f = match f with
      | .app => { b with app := e.app }
      | .site => { b with site := e.site }
      | .mach => { b with mach := e.mach }
      | .node => { b with node := e.node }
      | .port => { b with port := e.port }
      | .pid => { b with pid := e.pid }
      | .comp => { b with comp := e.comp }
      | .tag => { b with tag := e.tag } := by
  cases f <;> rfl

/-- Taking over every field gives the whole entry. -/
theorem foldl_takeField (e : EntryFields) : Field.all.foldl (takeField e) .blank = e := by
  simp only [Field.all, List.foldl_cons, List.foldl_nil, takeField_eq]

/-! ## Whole lines -/

theorem formatEntryLine_eq (r : EntryRecord) :
    formatEntryLine r = entryMark ++ ' ' :: (Decimal.ofNat r.id.toNat ++
      ' ' :: join [' '] (Field.all.map (entryPair r.fields))) := by
  rw [formatEntryLine, join_cons, if_neg (List.cons_ne_nil _ _), join_cons,
    if_neg (by simp [Field.all]), List.singleton_append, List.singleton_append]

/-- What follows the id of an entry line decides about its fields. -/
theorem parseEntryLine?_pairs (id : EntryId) {t : Text} (ht : EndsWord t) :
    parseEntryLine? (entryMark ++ ' ' :: (Decimal.ofNat id.toNat ++ t)) =
      (parsePairs t).toOption.bind fun pairs =>
        (putPairs .blank pairs).map (⟨id, ·⟩) := by
  rw [parseEntryLine?, after?_append]
  simp only [Option.bind_eq_bind, Option.bind_some, splitToken_space, splitToken_ofNat _ ht,
    Decimal.uint32?_ofNat]
  cases (parsePairs t).toOption with
  | none => rfl
  | some pairs =>
      simp only [Option.bind_some]
      cases putPairs .blank pairs <;> rfl

/-- An entry line is read back. -/
theorem parse_formatEntryLine {r : EntryRecord} (h : r.fields.AllTexts ('"' ∉ ·)) :
    parseEntryLine? (formatEntryLine r) = some r := by
  have hpairs : parsePairs (join [' '] (Field.all.map (entryPair r.fields))) =
      .ok (Field.all.map (entryValue r.fields)) := by
    have hp : ∀ p ∈ Field.all.map fun f => (entryPair r.fields f, entryValue r.fields f),
        IsWrittenPair p.1 p.2 := by
      intro p hp
      obtain ⟨f, -, rfl⟩ := List.mem_map.mp hp
      exact isWrittenPair_entryPair h f
    have hjoin := parsePairs_join hp
    rwa [List.map_map, List.map_map] at hjoin
  have hput := putPairs_entryValues r.fields .blank Field.all []
  rw [List.append_nil, foldl_takeField] at hput
  rw [formatEntryLine_eq, parseEntryLine?_pairs _ (endsWord_space _), parsePairs_space, hpairs]
  simp only [Except.toOption, Option.bind_some, hput]
  rfl

/-- The line of an entry is one line if its texts are. -/
theorem isOneLine_formatEntryLine {r : EntryRecord} (h : r.fields.AllTexts Text.IsOneLine) :
    (formatEntryLine r).IsOneLine := by
  refine isOneLine_join (List.forall_mem_cons.mpr ⟨by decide, List.forall_mem_cons.mpr
    ⟨(isPlain_ofNat _).isOneLine, fun w hw => ?_⟩⟩)
  obtain ⟨f, -, rfl⟩ := List.mem_map.mp hw
  rcases r.fields.value_cases f with ⟨n, hn, -, -⟩ | ⟨t, hn, ht, -⟩
  · simp only [entryPair, hn]
    exact isOneLine_pair f (isPlain_ofInt n.toInt).isOneLine
  · simp only [entryPair, hn, ht]
    exact isOneLine_pair f (isOneLine_quote (isOneLine_append.mpr ⟨h f t ht, by decide⟩))

end Wire

end ToolRegistry
