import ToolRegistry.Proofs.Searches

/-!
# Which entries are created, and what changes come to

An entry is created if the set that describes it has a value for each of the
eight fields, and changed if the patch takes none of its values away. The code
says neither of the two. It lays the set over what was there before, a blank
entry or the old one, and looks at the outcome, which is complete or is not. For
a new entry that comes to the same at once. For an old one it does so because
the old entry is complete: then nothing can be missing but what the patch itself
has emptied, and a number that is not positive empties nothing.

So completeness is needed of every entry in every store that there can be, and
it is an invariant of the twelve operations (`allComplete_after`). The rest is a
law of patches, without any store: to lay one over an entry and then another is
to lay the two over it as one (`applyTo_laidOver`), where the later one prevails in
what it has to say, and only in that.
-/

namespace ToolRegistry

namespace EntryFields

theorem isMissing_eq_false_iff (e : EntryFields) (f : Field) :
    e.isMissing f = false ↔
      (∃ t, e.text? f = some t ∧ t ≠ []) ∨ ∃ n, e.number? f = some n ∧ 0 < n := by
  rcases e.value_cases f with ⟨n, hn, ht, -⟩ | ⟨t, hn, ht, -⟩
  · simp [isMissing, hn, ht]
  · simp [isMissing, hn, ht]

theorem isMissing_blank (f : Field) : blank.isMissing f = true := by cases f <;> rfl

end EntryFields

/-! ## Patches -/

namespace FieldSet

variable {p q : FieldSet} {e : EntryFields} {f : Field}

/-- A set has a value for a field, be it a text that is not empty or a positive number. -/
def HasValue (s : FieldSet) (f : Field) : Prop :=
  (∃ t, s.AsksForText f t) ∨ ∃ n, s.AsksForNumber f n

/-- What two patches come to that are laid over an entry, first `p` and then `q`. -/
def laidOver (q p : FieldSet) : FieldSet where
  app := q.app.or p.app
  site := q.site.or p.site
  mach := q.mach.or p.mach
  node := q.node.or p.node
  port := (q.port.filter (0 < ·)).or p.port
  pid := (q.pid.filter (0 < ·)).or p.pid
  comp := q.comp.or p.comp
  tag := q.tag.or p.tag

theorem text?_laidOver (q p : FieldSet) (f : Field) :
    (q.laidOver p).text? f = (q.text? f).or (p.text? f) := by
  cases f <;> rfl

theorem number?_laidOver (q p : FieldSet) (f : Field) :
    (q.laidOver p).number? f = ((q.number? f).filter (0 < ·)).or (p.number? f) := by
  cases f <;> rfl

theorem filter_or_filter {α : Type} (P : α → Bool) (a b : Option α) :
    ((a.filter P).or b).filter P = (a.filter P).or (b.filter P) := by
  cases a with
  | none => rfl
  | some x => by_cases h : P x <;> simp [Option.filter, h]

theorem applyTo_laidOver (q p : FieldSet) (e : EntryFields) :
    (q.laidOver p).applyTo e = q.applyTo (p.applyTo e) := by
  refine EntryFields.eq_of_values (fun f t ht => ?_) fun f n hn => ?_
  · rw [← ht, text?_applyTo, text?_laidOver, text?_applyTo, text?_applyTo, Option.or_assoc]
  · rw [← hn, number?_applyTo, number?_laidOver, filter_or_filter, number?_applyTo, number?_applyTo,
      Option.or_assoc]

theorem applyTo_applyTo (p : FieldSet) (e : EntryFields) :
    p.applyTo (p.applyTo e) = p.applyTo e := by
  refine EntryFields.eq_of_values (fun f t ht => ?_) fun f n hn => ?_
  · rw [← ht, text?_applyTo, text?_applyTo, ← Option.or_assoc, Option.or_self]
  · rw [← hn, number?_applyTo, number?_applyTo, ← Option.or_assoc, Option.or_self]

/-! ## Missing values -/

theorem not_asksForNumber (hf : f.isNumeric = false) : ¬∃ n, p.AsksForNumber f n := by
  intro h
  obtain ⟨n, hasks, -⟩ := h
  have hnumeric := Wire.isNumeric_of_number? hasks
  rw [hf] at hnumeric
  cases hnumeric

/-- A patch has the last word on a text if it gives one, and on a number only if its own is
positive. -/
theorem isMissing_applyTo (p : FieldSet) (e : EntryFields) (f : Field) :
    (p.applyTo e).isMissing f = false ↔
      p.HasValue f ∨ p.text? f = none ∧ e.isMissing f = false := by
  rw [EntryFields.isMissing_eq_false_iff, text?_applyTo, number?_applyTo,
    EntryFields.isMissing_eq_false_iff]
  rcases e.value_cases f with ⟨n, hn, ht, hf⟩ | ⟨t, hn, ht, hf⟩
  -- For a number nothing is lost if the patch gives one that does not count: the old one stays.
  · have hnone : p.text? f = none := by
      cases f <;> first | rfl | cases hf
    rw [hn, ht, hnone, HasValue]
    simp only [AsksForText, hnone, Option.or_self]
    cases hgiven : (p.number? f).filter (0 < ·) with
    | none =>
        have hno : ¬∃ n, p.AsksForNumber f n := by
          rintro ⟨n, hasks⟩
          rw [← filter_number?_eq_some, hgiven] at hasks
          cases hasks
        simp [hno]
    | some m =>
        have hasks : p.AsksForNumber f m := filter_number?_eq_some.mp hgiven
        have hyes : ∃ n, p.AsksForNumber f n := ⟨m, hasks⟩
        simp [hyes, hasks.2]
  -- A text that the patch gives replaces the old one, even if it is empty.
  · have hno : ¬∃ n, p.AsksForNumber f n := not_asksForNumber hf
    have hnone : (p.number? f).filter (0 < ·) = none := by
      cases f <;> first | rfl | cases hf
    rw [hn, ht, hnone, HasValue]
    simp only [AsksForText, hno, or_false]
    cases p.text? f <;> simp

/-- A set describes a whole entry if it has a value for every field. -/
theorem isComplete_toFields_iff (s : FieldSet) :
    s.toFields.IsComplete ↔ ∀ f, s.HasValue f := by
  rw [EntryFields.isComplete_iff]
  refine forall_congr' fun f => ?_
  show (s.applyTo .blank).isMissing f = false ↔ s.HasValue f
  rw [isMissing_applyTo, EntryFields.isMissing_blank]
  simp

/-- A patch leaves a complete entry complete if it empties no text, whatever its numbers are. -/
theorem isComplete_applyTo_iff (p : FieldSet) {e : EntryFields} (he : e.IsComplete) :
    (p.applyTo e).IsComplete ↔ ∀ f, p.text? f ≠ some [] := by
  rw [EntryFields.isComplete_iff]
  refine forall_congr' fun f => ?_
  rw [isMissing_applyTo, EntryFields.isComplete_iff.mp he f]
  cases ht : p.text? f with
  | none => simp
  | some t =>
      have hno : ¬∃ n, p.AsksForNumber f n := not_asksForNumber (Wire.isNumeric_of_text? ht)
      simp [HasValue, AsksForText, ht, hno]

end FieldSet

/-! ## Every entry is complete -/

namespace Store

variable {s next : Store} {id r : EntryId} {p q fields : FieldSet}

/-- Every entry in the store has all its values. -/
def AllComplete (s : Store) : Prop := ∀ row ∈ s.rows, row.2.fields.IsComplete

theorem AllComplete.put (h : s.AllComplete) {stored : Stored} (hs : stored.fields.IsComplete)
    (id : EntryId) : (s.put id stored).AllComplete := by
  intro row hrow
  rcases mem_put hrow with hnew | hold
  · rw [hnew]
    exact hs
  · exact h row hold

/-- An operation on the texts of an entry puts back the values that it has found. -/
theorem AllComplete.put_strings (h : s.AllComplete) {stored : Stored}
    (hfind : s.find? id = some stored) (strings : List Text) :
    (s.put id { stored with strings }).AllComplete := by
  have hstored : stored.fields.IsComplete := h _ (mem_of_find? hfind)
  exact @AllComplete.put s h { stored with strings } hstored id

theorem allComplete_act (h : s.AllComplete) (a : Action) : (s.act a).AllComplete := by
  cases a with
  | create fields =>
      by_cases hfields : fields.toFields.IsComplete
      · rw [act_create hfields]
        intro row hrow
        rcases mem_insertRow hrow with rfl | hold
        · exact hfields
        · exact h row hold
      · rw [act_create_refused hfields]
        exact h
  | change id fields =>
      rw [act_change]
      split
      · split
        · next hcomplete => exact h.put hcomplete id
        · exact h
      · exact h
  | delete id =>
      rw [act_delete]
      intro row hrow
      exact h row (List.mem_filter.mp hrow).1
  | clear => exact List.forall_mem_nil _
  | addString id t =>
      rw [act_addString]
      split
      · next stored hfind => exact h.put_strings hfind _
      · exact h
  | deleteString id pos =>
      rw [act_deleteString]
      split
      · next stored hfind =>
          split
          · exact h
          · exact h.put_strings hfind _
      · exact h
  | search predicate => exact h
  | list => exact h
  | fetch id =>
      rw [act_asking (s.fetch id) .record rfl]
      exact h
  | getString id pos =>
      rw [act_asking (s.getString id pos) .text rfl]
      exact h
  | listStrings id =>
      rw [act_asking (s.listStrings id) .texts rfl]
      exact h
  | countStrings id =>
      rw [act_asking (s.countStrings id) .number rfl]
      exact h

theorem allComplete_after (h : s.AllComplete) (history : List Action) :
    (s.after history).AllComplete := by
  induction history generalizing s with
  | nil => exact h
  | cons a history ih => exact ih (allComplete_act h a)

theorem allComplete_empty : (∅ : Store).AllComplete := List.forall_mem_nil _

/-! ## Creating and changing -/

theorem create_succeeds_iff (s : Store) (fields : FieldSet) :
    (∃ id next, s.create fields = .ok (id, next)) ↔ ∀ f, fields.HasValue f := by
  rw [← FieldSet.isComplete_toFields_iff, create_eq]
  by_cases h : fields.toFields.IsComplete
  · simp [h]
  · simp [h]

theorem change_succeeds_iff (h : s.AllComplete) (id : EntryId) (p : FieldSet) :
    (∃ r next, s.change id p = .ok (r, next)) ↔
      (∃ r, s.fetch id = .ok r) ∧ ∀ f, p.text? f ≠ some [] := by
  rw [change_eq, fetch_eq]
  cases hget : s.get id with
  | error e => simp [Except.map]
  | ok stored =>
      have hstored : stored.fields.IsComplete := h _ (get_eq_ok hget)
      rw [← FieldSet.isComplete_applyTo_iff p hstored]
      by_cases hp : (p.applyTo stored.fields).IsComplete <;> simp [hp, Except.map]

/-- What a change has made of an entry, the same patch does not change any more, and another one
changes as the two of them would have changed the entry before. -/
theorem change_after_change {stored : Stored} (hfind : s.find? id = some stored)
    (hp : (p.applyTo stored.fields).IsComplete) :
    let changed := s.put id { stored with fields := p.applyTo stored.fields }
    changed.change id p = .ok (id, changed) ∧
      ∀ q r last, changed.change id q = .ok (r, last) →
        s.change id (q.laidOver p) = .ok (id, last) := by
  intro changed
  have hchanged : changed.find? id = some { stored with fields := p.applyTo stored.fields } := by
    rw [find?_put_of_some hfind, if_pos rfl]
  refine ⟨?_, fun q r last hq => ?_⟩
  · rw [change_eq, get_eq_ok_iff.mpr hchanged]
    simp only [FieldSet.applyTo_applyTo, if_pos hp]
    rw [put_self hchanged]
  · obtain ⟨found, hfound, hcomplete, -, rfl⟩ := change_eq_ok hq
    cases hchanged.symm.trans hfound
    rw [change_eq, get_eq_ok_iff.mpr hfind]
    simp only [FieldSet.applyTo_laidOver, if_pos hcomplete]
    rw [put_put]

/-- In every store that a history leads to, an entry is created exactly if a value is given for each
field, and changed exactly if there is one and no empty text is given for it, whatever the numbers
are. Then each field has what the patch gives, or else what it had. The same patch again changes
nothing, and a second one does to the entry what both of them as one do to the old entry. -/
theorem changes_compose (history : List Action) :
    let s := (∅ : Store).after history
    (∀ fields : FieldSet,
      (∃ id next, s.create fields = .ok (id, next)) ↔ ∀ f, fields.HasValue f) ∧
    ∀ (id : EntryId) (p : FieldSet),
      ((∃ r next, s.change id p = .ok (r, next)) ↔
        (∃ r, s.fetch id = .ok r) ∧ ∀ f, p.text? f ≠ some []) ∧
      ∀ r next, s.change id p = .ok (r, next) →
        r = id ∧ ∃ old new, s.fetch id = .ok ⟨id, old⟩ ∧ next.fetch id = .ok ⟨id, new⟩ ∧
          (∀ f, new.text? f = (p.text? f).or (old.text? f) ∧
            new.number? f = ((p.number? f).filter (0 < ·)).or (old.number? f)) ∧
          next.change id p = .ok (id, next) ∧
          ∀ q r' last, next.change id q = .ok (r', last) →
            s.change id (q.laidOver p) = .ok (id, last) := by
  intro s
  have hall : s.AllComplete := allComplete_after allComplete_empty history
  refine ⟨fun fields => s.create_succeeds_iff fields, fun id p =>
    ⟨change_succeeds_iff hall id p, fun r next h => ?_⟩⟩
  obtain ⟨stored, hfind, hcomplete, rfl, rfl⟩ := change_eq_ok h
  obtain ⟨hagain, hthen⟩ := change_after_change hfind hcomplete
  have hnext := find?_put_of_some hfind { stored with fields := p.applyTo stored.fields } r
  rw [if_pos rfl] at hnext
  refine ⟨rfl, stored.fields, p.applyTo stored.fields, fetch_of_find? hfind, fetch_of_find? hnext,
    fun f => ?_, hagain, hthen⟩
  exact ⟨FieldSet.text?_applyTo p stored.fields f, FieldSet.number?_applyTo p stored.fields f⟩

/-- An entry moves to another site and keeps its port, since the new one is no port. Then it gets a
port, and what was said before about its port does not count. A patch that empties its tag is
refused, and so is an entry without a tag. -/
theorem changes_compose_moved :
    let fields : FieldSet := .ofFields
      { app := "a", site := "b", mach := "c", node := "d", port := 1, pid := 2, comp := "e",
        tag := "f" }
    let s : Store := (∅ : Store).after [.create fields, .addString 1 "x"]
    let p : FieldSet := { site := some "y", port := some (-1) }
    let q : FieldSet := { site := some "z", port := some 7, pid := some 0 }
    let next : Store := s.act (.change 1 p)
    let last : Store := next.act (.change 1 q)
    (q.laidOver p).text? .site = some "z" ∧ (q.laidOver p).number? .pid = none ∧
      s.change 1 p = .ok (1, next) ∧ next.change 1 p = .ok (1, next) ∧
      next.change 1 q = .ok (1, last) ∧ s.change 1 (q.laidOver p) = .ok (1, last) ∧
      ¬(∃ r after, s.change 1 { tag := some "", pid := some 3 } = .ok (r, after)) ∧
      ¬∃ id after, s.create { fields with tag := none } = .ok (id, after) := by
  intro fields s p q next last
  obtain ⟨hcreate, hchange⟩ := changes_compose [.create fields, .addString 1 "x"]
  have hp : s.change 1 p = .ok (1, next) := by decide +kernel
  have hq : next.change 1 q = .ok (1, last) := by decide +kernel
  obtain ⟨-, hthen⟩ := hchange 1 p
  obtain ⟨-, old, new, -, -, -, hagain, hboth⟩ := hthen 1 next hp
  refine ⟨rfl, rfl, hp, hagain, hq, hboth q 1 last hq, fun h => ?_, fun h => ?_⟩
  · obtain ⟨hiff, -⟩ := hchange 1 { tag := some "", pid := some 3 }
    exact (hiff.mp h).2 .tag rfl
  · rcases (hcreate { fields with tag := none }).mp h .tag with ⟨t, ht, -⟩ | ⟨n, hn, -⟩
    · cases ht
    · cases hn

end Store

end ToolRegistry
