import ToolRegistry.Store

/-!
# What is found after an operation

All that matters of the table of a store is what is found under an id, and the
order of the ids, which is part of its type. A table changes in three ways: a
row is put in its place (`withRow`), what is kept under an id that is there is
replaced (`put`), and the row of an id is taken out (`without`). Each of them
is seen under that id and under no other. What an operation has done, when it
succeeds, is one of the three.
-/

namespace ToolRegistry

/-! ## Rows -/

theorem lookup_cons_eq (other : EntryId) (r : EntryId × Stored) (rows : List (EntryId × Stored)) :
    (r :: rows).lookup other = if other = r.1 then some r.2 else rows.lookup other := by
  rw [List.lookup_cons]
  by_cases h : other = r.1
  · rw [if_pos h, beq_iff_eq.mpr h]
  · rw [if_neg h, beq_false_of_ne h]

theorem lookup_insertRow (id other : EntryId) (stored : Stored)
    (rows : List (EntryId × Stored)) :
    (insertRow (id, stored) rows).lookup other =
      if other = id then some stored else rows.lookup other := by
  induction rows with
  | nil => exact lookup_cons_eq other (id, stored) []
  | cons r rest ih =>
      rw [insertRow]
      split
      · exact lookup_cons_eq other (id, stored) (r :: rest)
      · split
        · next heq =>
            have heq : id = r.1 := heq
            rw [lookup_cons_eq, lookup_cons_eq, ← heq]
            by_cases h : other = id <;> simp [h]
        · next hne =>
            have hne : id ≠ r.1 := hne
            rw [lookup_cons_eq, lookup_cons_eq, ih]
            by_cases h : other = id <;> simp [h, hne]

theorem lookup_updateRow (id other : EntryId) (stored : Stored)
    (rows : List (EntryId × Stored)) :
    (updateRow id stored rows).lookup other =
      if other = id then (rows.lookup id).map fun _ => stored else rows.lookup other := by
  induction rows with
  | nil => simp [updateRow]
  | cons r rest ih =>
      rw [updateRow, List.map_cons, ← updateRow, lookup_cons_eq, lookup_cons_eq, lookup_cons_eq, ih]
      by_cases hr : r.1 = id
      · by_cases h : other = id <;> simp [h, hr]
      · by_cases h : other = id <;> simp [h, hr, Ne.symm hr]

theorem lookup_withoutRow (id other : EntryId) (rows : List (EntryId × Stored)) :
    (rows.filter (·.1 != id)).lookup other =
      if other = id then none else rows.lookup other := by
  induction rows with
  | nil => simp
  | cons r rest ih =>
      by_cases hr : r.1 = id
      · rw [List.filter_cons_of_neg (by simp [hr]), ih, lookup_cons_eq]
        by_cases h : other = id <;> simp [h, hr]
      · rw [List.filter_cons_of_pos (by simp [hr]), lookup_cons_eq, ih, lookup_cons_eq]
        by_cases h : other = id <;> simp [h, Ne.symm hr]

namespace Store

/-! ## Tables -/

/-- The store with a row put where its id belongs. -/
def withRow (s : Store) (id : EntryId) (stored : Stored) : Store :=
  ⟨insertRow (id, stored) s.rows, s.nextId, s.ordered.insertRow⟩

theorem ordered_without (s : Store) (id : EntryId) : IdOrdered (s.rows.filter (·.1 != id)) :=
  s.ordered.filter

/-- The store without the row of an id. -/
def without (s : Store) (id : EntryId) : Store :=
  ⟨s.rows.filter (·.1 != id), s.nextId, s.ordered_without id⟩

/-- The store with the counter of ids one further on. -/
def advanced (s : Store) : Store := { s with nextId := s.nextId + 1 }

@[simp]
theorem nextId_withRow (s : Store) (id : EntryId) (stored : Stored) :
    (s.withRow id stored).nextId = s.nextId := rfl

@[simp]
theorem nextId_without (s : Store) (id : EntryId) : (s.without id).nextId = s.nextId := rfl

@[simp]
theorem nextId_put (s : Store) (id : EntryId) (stored : Stored) :
    (s.put id stored).nextId = s.nextId := rfl

@[simp]
theorem nextId_advanced (s : Store) : s.advanced.nextId = s.nextId + 1 := rfl

@[simp]
theorem find?_advanced (s : Store) (other : EntryId) : s.advanced.find? other = s.find? other := rfl

theorem find?_withRow (s : Store) (id other : EntryId) (stored : Stored) :
    (s.withRow id stored).find? other = if other = id then some stored else s.find? other :=
  lookup_insertRow id other stored s.rows

theorem find?_put (s : Store) (id other : EntryId) (stored : Stored) :
    (s.put id stored).find? other =
      if other = id then (s.find? id).map fun _ => stored else s.find? other :=
  lookup_updateRow id other stored s.rows

theorem find?_without (s : Store) (id other : EntryId) :
    (s.without id).find? other = if other = id then none else s.find? other :=
  lookup_withoutRow id other s.rows

/-- What is put last is kept. -/
theorem put_put (s : Store) (id : EntryId) (first second : Stored) :
    (s.put id first).put id second = s.put id second := by
  refine ext_rows ?_ rfl
  show updateRow id second (updateRow id first s.rows) = updateRow id second s.rows
  rw [updateRow, updateRow, updateRow, List.map_map]
  refine List.map_congr_left fun r _ => ?_
  by_cases h : r.1 = id <;> simp [h]

/-- Taking out what is not there changes nothing. -/
theorem without_of_find?_eq_none {s : Store} {id : EntryId} (h : s.find? id = none) :
    s.without id = s := by
  refine ext_rows (List.filter_eq_self.mpr fun r hr => ?_) rfl
  have hne := List.lookup_eq_none_iff.mp h r hr
  simpa [bne, BEq.comm] using hne

/-! ## Looking an entry up -/

theorem mem_of_find? {s : Store} {id : EntryId} {stored : Stored} (h : s.find? id = some stored) :
    (id, stored) ∈ s.rows := by
  obtain ⟨before, behind, hrows, -⟩ := List.lookup_eq_some_iff.mp h
  rw [hrows]
  exact List.mem_append_right _ List.mem_cons_self

/-- An id is kept at most once, so what is in the table is found. -/
theorem find?_of_mem {s : Store} {id : EntryId} {stored : Stored} (h : (id, stored) ∈ s.rows) :
    s.find? id = some stored := by
  refine List.lookup_eq_some_iff.mpr ?_
  obtain ⟨before, behind, hrows⟩ := List.append_of_mem h
  refine ⟨before, behind, hrows, fun r hr => bne_iff_ne.mpr fun heq => ?_⟩
  have hordered := s.ordered
  rw [IdOrdered, hrows] at hordered
  have hless := (List.pairwise_append.mp hordered).2.2 r hr _ List.mem_cons_self
  exact absurd heq.symm (UInt32.ne_of_lt hless)

/-- Putting back what is there changes nothing. -/
theorem put_self {s : Store} {id : EntryId} {stored : Stored} (h : s.find? id = some stored) :
    s.put id stored = s := by
  refine ext_rows ?_ rfl
  show updateRow id stored s.rows = s.rows
  rw [updateRow]
  refine (List.map_congr_left fun r hr => ?_).trans (List.map_id s.rows)
  obtain ⟨other, kept⟩ := r
  by_cases hid : other = id
  · subst hid
    have hkept : kept = stored := Option.some.inj ((find?_of_mem hr).symm.trans h)
    simp [hkept]
  · simp [hid]

theorem find?_put_of_some {s : Store} {id : EntryId} {old : Stored} (h : s.find? id = some old)
    (new : Stored) (other : EntryId) :
    (s.put id new).find? other = if other = id then some new else s.find? other := by
  rw [find?_put, h, Option.map_some]

theorem get_eq_ok_iff {s : Store} {id : EntryId} {stored : Stored} :
    s.get id = .ok stored ↔ s.find? id = some stored := by
  rw [get]
  cases s.find? id <;> simp

theorem get_eq_ok {s : Store} {id : EntryId} {stored : Stored} (h : s.get id = .ok stored) :
    (id, stored) ∈ s.rows :=
  mem_of_find? (get_eq_ok_iff.mp h)

theorem get_eq_error {s : Store} {id : EntryId} {e : StoreError} (h : s.get id = .error e) :
    e = .noEntry id := by
  rw [get] at h
  cases hfind : s.find? id with
  | some stored =>
      rw [hfind] at h
      cases h
  | none =>
      rw [hfind] at h
      cases h
      rfl

/-! ## The operations that only ask -/

theorem fetch_eq (s : Store) (id : EntryId) :
    s.fetch id = (s.get id).map fun stored => ⟨id, stored.fields⟩ := by
  rw [fetch]
  cases s.get id <;> rfl

theorem getString_eq (s : Store) (id : EntryId) (pos : UInt64) :
    s.getString id pos =
      match s.get id with
      | .ok stored =>
          if pos = 0 then .error (.noString id pos)
          else
            match stored.strings[pos.toNat - 1]? with
            | some t => .ok t
            | none => .error (.noString id pos)
      | .error e => .error e := by
  rw [getString]
  cases s.get id <;> rfl

theorem getString_eq_ok {s : Store} {id : EntryId} {pos : UInt64} {t : Text}
    (h : s.getString id pos = .ok t) :
    ∃ stored, s.find? id = some stored ∧ pos ≠ 0 ∧ stored.strings[pos.toNat - 1]? = some t := by
  rw [getString_eq] at h
  split at h
  · next stored hget =>
      split at h
      · cases h
      · next hpos =>
          split at h
          · next hfound =>
              cases h
              exact ⟨stored, get_eq_ok_iff.mp hget, hpos, hfound⟩
          · cases h
  · cases h

/-- Positions count from one. -/
theorem toNat_position {j : Nat} (hj : j < 2 ^ 63) : (UInt64.ofNat (j + 1)).toNat = j + 1 :=
  UInt64.toNat_ofNat_of_lt' (by simp only [UInt64.size]; omega)

theorem position_ne_zero {j : Nat} (hj : j < 2 ^ 63) : UInt64.ofNat (j + 1) ≠ 0 := by
  intro h
  have hnat := toNat_position hj
  rw [h] at hnat
  cases hnat

theorem getString_position {s : Store} {id : EntryId} {stored : Stored}
    (hget : s.get id = .ok stored) {j : Nat} (hj : j < 2 ^ 63) {t : Text} :
    s.getString id (UInt64.ofNat (j + 1)) = .ok t ↔ stored.strings[j]? = some t := by
  rw [getString_eq, hget]
  simp only [if_neg (position_ne_zero hj), toNat_position hj, Nat.add_sub_cancel]
  cases stored.strings[j]? <;> simp

theorem listStrings_eq (s : Store) (id : EntryId) :
    s.listStrings id = (s.get id).map Stored.strings := by
  rw [listStrings]
  cases s.get id <;> rfl

theorem countStrings_eq (s : Store) (id : EntryId) :
    s.countStrings id = (s.get id).map fun stored => stored.strings.length := by
  rw [countStrings]
  cases s.get id <;> rfl

/-! ## The operations that change a store -/

theorem create_eq (s : Store) (fields : FieldSet) :
    s.create fields =
      if fields.toFields.IsComplete then
        .ok (s.nextId, s.advanced.withRow s.nextId ⟨fields.toFields, []⟩)
      else .error (.incomplete fields.toFields.missing) := rfl

theorem change_eq (s : Store) (id : EntryId) (fields : FieldSet) :
    s.change id fields =
      match s.get id with
      | .ok stored =>
          if (fields.applyTo stored.fields).IsComplete then
            .ok (id, s.put id { stored with fields := fields.applyTo stored.fields })
          else .error (.incomplete (fields.applyTo stored.fields).missing)
      | .error e => .error e := by
  rw [change]
  cases s.get id <;> rfl

theorem delete_eq (s : Store) (id : EntryId) :
    s.delete id =
      match s.get id with
      | .ok _ => .ok (id, s.without id)
      | .error e => .error e := by
  rw [delete]
  cases s.get id <;> rfl

theorem addString_eq (s : Store) (id : EntryId) (t : Text) :
    s.addString id t =
      match s.get id with
      | .ok stored =>
          .ok (stored.strings.length + 1, s.put id { stored with strings := stored.strings ++ [t] })
      | .error e => .error e := by
  rw [addString]
  cases s.get id with
  | ok stored => simp [bind, Except.bind, pure, Except.pure]
  | error e => rfl

theorem deleteString_eq (s : Store) (id : EntryId) (pos : UInt64) :
    s.deleteString id pos =
      match s.get id with
      | .ok stored =>
          if pos = 0 ∨ stored.strings.length < pos.toNat then .error (.noString id pos)
          else
            .ok (s.put id { stored with strings := stored.strings.eraseIdx (pos.toNat - 1) })
      | .error e => .error e := by
  rw [deleteString]
  cases s.get id <;> rfl

/-! ## What has happened when an operation succeeds -/

variable {s next : Store} {id r : EntryId} {fields : FieldSet} {t : Text} {n : Nat} {pos : UInt64}

theorem create_eq_ok (h : s.create fields = .ok (r, next)) :
    fields.toFields.IsComplete ∧ r = s.nextId ∧
      next = s.advanced.withRow s.nextId ⟨fields.toFields, []⟩ := by
  rw [create_eq] at h
  split at h
  · next hcomplete =>
      cases h
      exact ⟨hcomplete, rfl, rfl⟩
  · cases h

theorem change_eq_ok (h : s.change id fields = .ok (r, next)) :
    ∃ stored, s.find? id = some stored ∧ (fields.applyTo stored.fields).IsComplete ∧ r = id ∧
      next = s.put id { stored with fields := fields.applyTo stored.fields } := by
  rw [change_eq] at h
  split at h
  · next stored hget =>
      split at h
      · next hcomplete =>
          cases h
          exact ⟨stored, get_eq_ok_iff.mp hget, hcomplete, rfl, rfl⟩
      · cases h
  · cases h

theorem delete_eq_ok (h : s.delete id = .ok (r, next)) :
    ∃ stored, s.find? id = some stored ∧ r = id ∧ next = s.without id := by
  rw [delete_eq] at h
  split at h
  · next stored hget =>
      cases h
      exact ⟨stored, get_eq_ok_iff.mp hget, rfl, rfl⟩
  · cases h

theorem addString_eq_ok (h : s.addString id t = .ok (n, next)) :
    ∃ stored, s.find? id = some stored ∧ n = stored.strings.length + 1 ∧
      next = s.put id { stored with strings := stored.strings ++ [t] } := by
  rw [addString_eq] at h
  split at h
  · next stored hget =>
      cases h
      exact ⟨stored, get_eq_ok_iff.mp hget, rfl, rfl⟩
  · cases h

theorem deleteString_eq_ok (h : s.deleteString id pos = .ok next) :
    ∃ stored, s.find? id = some stored ∧ pos ≠ 0 ∧ pos.toNat ≤ stored.strings.length ∧
      next = s.put id { stored with strings := stored.strings.eraseIdx (pos.toNat - 1) } := by
  rw [deleteString_eq] at h
  split at h
  · next stored hget =>
      split at h
      · cases h
      · next hpos =>
          obtain ⟨hzero, hlen⟩ := not_or.mp hpos
          cases h
          exact ⟨stored, get_eq_ok_iff.mp hget, hzero, Nat.le_of_not_lt hlen, rfl⟩
  · cases h

end Store

end ToolRegistry
