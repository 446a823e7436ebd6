import ToolRegistry.Proofs.History

/-!
# What a history tells of an entry

A store keeps an entry, and nothing of how it came about. The history is the
opposite: it tells what was done and what came of it (`deeds`), and nothing of
what is kept. This module reads an entry off the history alone. It was created
under its id at some time, it has been there since, and what was laid over it or
attached to it in the meantime is all that has happened to it (`IsLifetime`).

One lemma goes through the operations (`find?_act`). It says of a single deed
what it makes of whatever was kept under an id: the entry is new, or gone, or
changed, or the deed has nothing to do with it. The rest is about lists of deeds.
Read from front to back, they are a fold whose value is what is kept under the
id (`find?_after`). Read from back to front, the last deed that creates the entry
or removes it decides whether there is one (`exists_isLifetime`).

The counter of ids may come round in a history. Then an entry is created under
an id that is still taken, which ends the lifetime of the old entry and begins
that of the new one. Nothing here depends on how often that happens.
-/

namespace ToolRegistry

/-! ## Values laid over values -/

namespace FieldSet

theorem text?_applyTo (p : FieldSet) (e : EntryFields) (f : Field) :
    (p.applyTo e).text? f = (p.text? f).or (e.text? f) := by
  have hget : ∀ (given : Option Text) (old : Text),
      some (given.getD old) = given.or (some old) := by
    intro given old
    cases given <;> rfl
  cases f with
  | port | pid => rfl
  | app | site | mach | node | comp | tag => exact hget _ _

theorem number?_applyTo (p : FieldSet) (e : EntryFields) (f : Field) :
    (p.applyTo e).number? f = ((p.number? f).filter (0 < ·)).or (e.number? f) := by
  have hget : ∀ (given : Option Int32) (old : Int32),
      some (overNumber given old) = (given.filter (0 < ·)).or (some old) := by
    intro given old
    rw [overNumber]
    cases given.filter (0 < ·) <;> rfl
  cases f with
  | port | pid => exact hget _ _
  | app | site | mach | node | comp | tag => rfl

/-- The set that gives nothing agrees with everything. -/
theorem accepts_empty (e : EntryFields) : (∅ : FieldSet).accepts e = true := by
  refine List.all_eq_true.mpr fun f _ => ?_
  cases f <;> rfl

end FieldSet

namespace EntryFields

/-- The values of an entry after others have been laid over them, one set after the other. -/
def overlaid (e : EntryFields) (patches : List FieldSet) : EntryFields :=
  patches.foldl (fun e p => p.applyTo e) e

@[simp]
theorem overlaid_nil (e : EntryFields) : e.overlaid [] = e := rfl

@[simp]
theorem overlaid_cons (e : EntryFields) (p : FieldSet) (patches : List FieldSet) :
    e.overlaid (p :: patches) = (p.applyTo e).overlaid patches := rfl

/-- A field holds the text that was given last. -/
theorem text?_overlaid (e : EntryFields) (patches : List FieldSet) (f : Field) :
    (e.overlaid patches).text? f = (patches.reverse.findSome? (·.text? f)).or (e.text? f) := by
  induction patches generalizing e with
  | nil => rfl
  | cons p patches ih =>
      rw [overlaid_cons, ih, FieldSet.text?_applyTo, List.reverse_cons, List.findSome?_append,
        List.findSome?_singleton, Option.or_assoc]

/-- A field holds the number that was given last, and numbers that are not positive do not count. -/
theorem number?_overlaid (e : EntryFields) (patches : List FieldSet) (f : Field) :
    (e.overlaid patches).number? f =
      (patches.reverse.findSome? fun p => (p.number? f).filter (0 < ·)).or (e.number? f) := by
  induction patches generalizing e with
  | nil => rfl
  | cons p patches ih =>
      rw [overlaid_cons, ih, FieldSet.number?_applyTo, List.reverse_cons, List.findSome?_append,
        List.findSome?_singleton, Option.or_assoc]

end EntryFields

namespace Store

/-! ## What was done, and what it makes of an entry -/

/-- Something that was done: an operation, and what came of it. -/
structure Deed where
  action : Action
  result : Except StoreError Answer
deriving DecidableEq

/-- What comes of an operation. -/
def answer (s : Store) (a : Action) : Except StoreError Answer := (s.perform a).map Prod.fst

/-- What is done in the course of a history, in order. -/
def deeds (s : Store) : List Action → List Deed
  | [] => []
  | a :: history => ⟨a, s.answer a⟩ :: (s.act a).deeds history

/-- What is done to the texts of an entry. -/
inductive Edit where
  | attach (t : Text)
  | remove (pos : UInt64)
deriving DecidableEq, Repr

/-- The texts after an edit. Positions count from 1. -/
def Edit.on (ts : List Text) : Edit → List Text
  | attach t => ts ++ [t]
  | remove pos => ts.eraseIdx (pos.toNat - 1)

namespace Deed

/-- The values with which an entry was created under an id. -/
def creation? (id : EntryId) : Deed → Option FieldSet
  | ⟨.create fields, .ok (.id r)⟩ => if r = id then some fields else none
  | _ => none

/-- Whether there is no entry with an id behind the deed, whatever there was in front of it. -/
def removes (id : EntryId) : Deed → Bool
  | ⟨.delete r, _⟩ => r == id
  | ⟨.clear, _⟩ => true
  | _ => false

/-- The values that were laid over the entry with an id. -/
def patch? (id : EntryId) : Deed → Option FieldSet
  | ⟨.change r fields, .ok _⟩ => if r = id then some fields else none
  | _ => none

/-- What was done to the texts of the entry with an id. -/
def edit? (id : EntryId) : Deed → Option Edit
  | ⟨.addString r t, .ok _⟩ => if r = id then some (.attach t) else none
  | ⟨.deleteString r pos, .ok _⟩ => if r = id then some (.remove pos) else none
  | _ => none

/-- Whether a deed has to do with the entry with an id. -/
def concerns (id : EntryId) (d : Deed) : Bool :=
  (d.creation? id).isSome || d.removes id || (d.patch? id).isSome || (d.edit? id).isSome

/-- What a deed makes of what was kept under an id. -/
def on (id : EntryId) (kept : Option Stored) (d : Deed) : Option Stored :=
  if d.removes id then none
  else
    match d.creation? id with
    | some fields => some ⟨fields.toFields, []⟩
    | none => kept.map fun s =>
        ⟨s.fields.overlaid (d.patch? id).toList, (d.edit? id).toList.foldl Edit.on s.strings⟩

variable {id : EntryId} {d : Deed}

theorem on_none (h : d.creation? id = none) : d.on id none = none := by
  rw [on, h, Option.map_none, ite_self]

theorem on_some (hc : d.creation? id = none) (hr : d.removes id = false) (s : Stored) :
    d.on id (some s) =
      some ⟨s.fields.overlaid (d.patch? id).toList,
        (d.edit? id).toList.foldl Edit.on s.strings⟩ := by
  simp only [on, hr, hc, Bool.false_eq_true, if_false, Option.map_some]

theorem on_of_not_concerns (h : d.concerns id = false) (kept : Option Stored) :
    d.on id kept = kept := by
  simp only [concerns, Bool.or_eq_false_iff, Option.isSome_eq_false_iff,
    Option.isNone_iff_eq_none] at h
  obtain ⟨⟨⟨hc, hr⟩, hp⟩, he⟩ := h
  cases kept with
  | none => exact on_none hc
  | some s => rw [on_some hc hr, hp, he]; rfl

theorem creation?_eq_some {fields : FieldSet} :
    d.creation? id = some fields ↔ d = ⟨.create fields, .ok (.id id)⟩ := by
  constructor
  · intro h
    unfold creation? at h
    split at h
    · split at h
      · next hid =>
          cases h
          rw [hid]
      · cases h
    · cases h
  · rintro rfl
    exact if_pos rfl

theorem action_of_edit? {e : Edit} (h : d.edit? id = some e) :
    (∃ t, d.action = .addString id t ∧ e = .attach t) ∨
      ∃ pos, d.action = .deleteString id pos ∧ e = .remove pos := by
  unfold edit? at h
  split at h
  · next r t _ =>
      split at h
      · next hid =>
          cases h
          exact .inl ⟨t, by rw [hid], rfl⟩
      · cases h
  · next r pos _ =>
      split at h
      · next hid =>
          cases h
          exact .inr ⟨pos, by rw [hid], rfl⟩
      · cases h
  · cases h

theorem removes_eq_true : d.removes id = true ↔ d.action = .delete id ∨ d.action = .clear := by
  obtain ⟨a, r⟩ := d
  cases a <;> simp [removes]

end Deed

/-! ## One deed -/

/-- The entry that an operation changes, or none if it is not for a single entry. -/
def Action.target? : Action → Option EntryId
  | .change r _ | .delete r | .addString r _ | .deleteString r _ => some r
  | _ => none

theorem Deed.not_concerns_of_target {a : Action} {id r : EntryId} (ha : a.target? = some r)
    (hid : id ≠ r) (result : Except StoreError Answer) : concerns id ⟨a, result⟩ = false := by
  have hne : r ≠ id := hid.symm
  cases a <;> cases ha <;> cases result <;>
    simp [concerns, creation?, removes, patch?, edit?, hne]

theorem act_of_refused {s : Store} {a : Action} (h : (s.answer a).isOk = false) : s.act a = s := by
  rw [answer] at h
  rw [act]
  cases hperform : s.perform a with
  | ok r => rw [hperform] at h; cases h
  | error e => rfl

section

variable {s : Store} {a : Action} {id : EntryId}

theorem find?_act_of_not_concerns (hsame : s.act a = s)
    (h : Deed.concerns id ⟨a, s.answer a⟩ = false) :
    (s.act a).find? id = Deed.on id (s.find? id) ⟨a, s.answer a⟩ := by
  rw [hsame, Deed.on_of_not_concerns h]

/-- Nothing comes of an operation that is refused, unless it is one that leaves no entry. -/
theorem find?_act_of_refused {e : StoreError} (h : s.answer a = .error e)
    (hr : Deed.removes id ⟨a, .error e⟩ = false) :
    (s.act a).find? id = Deed.on id (s.find? id) ⟨a, s.answer a⟩ := by
  refine find?_act_of_not_concerns (act_of_refused (by rw [h]; rfl)) ?_
  rw [h, Deed.concerns, hr]
  cases a <;> rfl

/-- A successful operation on an entry is one on no other. -/
theorem find?_act_put {r : EntryId} {old new : Stored} {v : Answer} (ha : a.target? = some r)
    (hfind : s.find? r = some old) (hact : s.act a = s.put r new) (hanswer : s.answer a = .ok v)
    (hself : Deed.on r (some old) ⟨a, .ok v⟩ = some new) :
    (s.act a).find? id = Deed.on id (s.find? id) ⟨a, s.answer a⟩ := by
  rw [hact, hanswer, find?_put_of_some hfind]
  split
  · next hid => rw [hid, hfind, hself]
  · next hid => rw [Deed.on_of_not_concerns (Deed.not_concerns_of_target ha hid _)]

end

/-- A deed makes of what was kept under an id what the history says of it. -/
theorem find?_act (s : Store) (a : Action) (id : EntryId) :
    (s.act a).find? id = Deed.on id (s.find? id) ⟨a, s.answer a⟩ := by
  cases a with
  | create fields =>
      by_cases h : fields.toFields.IsComplete
      · have hanswer : s.answer (.create fields) = .ok (.id s.nextId) := by
          simp only [answer, perform, create_eq, if_pos h, Except.map]
        rw [act_create h, find?_withRow, find?_advanced, hanswer]
        split
        · next hid => simp [Deed.on, Deed.removes, Deed.creation?, hid]
        · next hid =>
            rw [Deed.on_of_not_concerns]
            simp [Deed.concerns, Deed.creation?, Deed.removes, Deed.patch?, Deed.edit?,
              Ne.symm hid]
      · have hanswer : s.answer (.create fields) = .error (.incomplete fields.toFields.missing) := by
          simp only [answer, perform, create_eq, if_neg h, Except.map]
        exact find?_act_of_refused hanswer rfl
  | change r fields =>
      cases hfind : s.find? r with
      | none =>
          have hanswer : s.answer (.change r fields) = .error (.noEntry r) := by
            simp only [answer, perform, change_eq, get, hfind, Except.map]
          exact find?_act_of_refused hanswer rfl
      | some stored =>
          by_cases h : (fields.applyTo stored.fields).IsComplete
          · have hanswer : s.answer (.change r fields) = .ok (.id r) := by
              simp only [answer, perform, change_eq, get, hfind, if_pos h, Except.map]
            have hact : s.act (.change r fields) =
                s.put r { stored with fields := fields.applyTo stored.fields } := by
              simp only [act_change, hfind, if_pos h]
            refine find?_act_put rfl hfind hact hanswer ?_
            simp [Deed.on, Deed.removes, Deed.creation?, Deed.patch?, Deed.edit?]
          · have hanswer : s.answer (.change r fields) =
                .error (.incomplete (fields.applyTo stored.fields).missing) := by
              simp only [answer, perform, change_eq, get, hfind, if_neg h, Except.map]
            exact find?_act_of_refused hanswer rfl
  | delete r =>
      rw [act_delete, find?_without]
      split
      · next hid => simp [Deed.on, Deed.removes, hid]
      · next hid => rw [Deed.on_of_not_concerns (Deed.not_concerns_of_target rfl hid _)]
  | clear => rfl
  | addString r t =>
      cases hfind : s.find? r with
      | none =>
          have hanswer : s.answer (.addString r t) = .error (.noEntry r) := by
            simp only [answer, perform, addString_eq, get, hfind, Except.map]
          exact find?_act_of_refused hanswer rfl
      | some stored =>
          have hanswer : s.answer (.addString r t) = .ok (.number (stored.strings.length + 1)) := by
            simp only [answer, perform, addString_eq, get, hfind, Except.map]
          have hact : s.act (.addString r t) =
              s.put r { stored with strings := stored.strings ++ [t] } := by
            simp only [act_addString, hfind]
          refine find?_act_put rfl hfind hact hanswer ?_
          simp [Deed.on, Deed.removes, Deed.creation?, Deed.patch?, Deed.edit?, Edit.on]
  | deleteString r pos =>
      cases hfind : s.find? r with
      | none =>
          have hanswer : s.answer (.deleteString r pos) = .error (.noEntry r) := by
            simp only [answer, perform, deleteString_eq, get, hfind, Except.map]
          exact find?_act_of_refused hanswer rfl
      | some stored =>
          by_cases h : pos = 0 ∨ stored.strings.length < pos.toNat
          · have hanswer : s.answer (.deleteString r pos) = .error (.noString r pos) := by
              simp only [answer, perform, deleteString_eq, get, hfind, if_pos h, Except.map]
            exact find?_act_of_refused hanswer rfl
          · have hanswer : s.answer (.deleteString r pos) = .ok .done := by
              simp only [answer, perform, deleteString_eq, get, hfind, if_neg h, Except.map]
            have hact : s.act (.deleteString r pos) =
                s.put r { stored with strings := stored.strings.eraseIdx (pos.toNat - 1) } := by
              simp only [act_deleteString, hfind, if_neg h]
            refine find?_act_put rfl hfind hact hanswer ?_
            simp [Deed.on, Deed.removes, Deed.creation?, Deed.patch?, Deed.edit?, Edit.on]
  | search predicate => exact find?_act_of_not_concerns rfl rfl
  | list => exact find?_act_of_not_concerns rfl rfl
  | fetch r => exact find?_act_of_not_concerns (act_asking (s.fetch r) .record rfl) rfl
  | getString r pos => exact find?_act_of_not_concerns (act_asking (s.getString r pos) .text rfl) rfl
  | listStrings r => exact find?_act_of_not_concerns (act_asking (s.listStrings r) .texts rfl) rfl
  | countStrings r =>
      exact find?_act_of_not_concerns (act_asking (s.countStrings r) .number rfl) rfl

/-! ## Whole histories -/

/-- What is kept under an id is what the deeds have made of it, one after the other. -/
theorem find?_after (s : Store) (history : List Action) (id : EntryId) :
    (s.after history).find? id = (s.deeds history).foldl (Deed.on id) (s.find? id) := by
  induction history generalizing s with
  | nil => rfl
  | cons a history ih => rw [after_cons, ih, find?_act, deeds, List.foldl_cons]

/-- Only what has succeeded, and has to do with the id, counts. -/
theorem find?_after_concerning (s : Store) (history : List Action) (id : EntryId) :
    (s.after history).find? id =
      ((s.deeds history).filter fun d => d.result.isOk && d.concerns id).foldl (Deed.on id)
        (s.find? id) := by
  induction history generalizing s with
  | nil => rfl
  | cons a history ih =>
      rw [after_cons, ih, deeds]
      cases hok : (s.answer a).isOk with
      | false =>
          rw [List.filter_cons_of_neg (by simp [hok]), act_of_refused hok]
      | true =>
          cases hc : Deed.concerns id ⟨a, s.answer a⟩ with
          | false =>
              rw [List.filter_cons_of_neg (by simp [hc]), find?_act, Deed.on_of_not_concerns hc]
          | true =>
              rw [List.filter_cons_of_pos (by simp [hok, hc]), find?_act, List.foldl_cons]

/-! ## Lifetimes -/

/-- The last entry that was created under an id was created with `fields`, and it has not been
removed since. `later` is what was done since. -/
structure IsLifetime (id : EntryId) (deeds : List Deed) (fields : FieldSet) (later : List Deed) :
    Prop where
  created : ∃ before, deeds = before ++ ⟨.create fields, .ok (.id id)⟩ :: later
  notAgain : ∀ d ∈ later, ∀ other, d ≠ ⟨.create other, .ok (.id id)⟩
  notRemoved : ∀ d ∈ later, d.action ≠ .delete id ∧ d.action ≠ .clear

/-- The values that were laid over an entry, in order. -/
def patches (id : EntryId) (later : List Deed) : List FieldSet := later.filterMap (Deed.patch? id)

/-- The edits of the texts of an entry, in order. -/
def edits (id : EntryId) (later : List Deed) : List Edit := later.filterMap (Deed.edit? id)

/-- An entry that is neither created again nor removed is changed by its patches and its edits. -/
theorem foldl_on_some {id : EntryId} {later : List Deed}
    (h : ∀ d ∈ later, d.creation? id = none ∧ d.removes id = false) (s : Stored) :
    later.foldl (Deed.on id) (some s) =
      some ⟨s.fields.overlaid (patches id later), (edits id later).foldl Edit.on s.strings⟩ := by
  induction later generalizing s with
  | nil => rfl
  | cons d later ih =>
      obtain ⟨⟨hc, hr⟩, hlater⟩ := List.forall_mem_cons.mp h
      rw [List.foldl_cons, Deed.on_some hc hr, ih hlater, patches, patches, edits, edits,
        List.filterMap_cons, List.filterMap_cons]
      cases d.patch? id <;> cases d.edit? id <;> rfl

/-- Whatever there was before, an entry in its lifetime is kept as it was created and changed. -/
theorem IsLifetime.foldl_on {id : EntryId} {deeds later : List Deed} {fields : FieldSet}
    (h : IsLifetime id deeds fields later) (kept : Option Stored) :
    deeds.foldl (Deed.on id) kept =
      some ⟨fields.toFields.overlaid (patches id later), (edits id later).foldl Edit.on []⟩ := by
  obtain ⟨before, rfl⟩ := h.created
  have hcreate : ∀ kept, Deed.on id kept ⟨.create fields, .ok (.id id)⟩ =
      some ⟨fields.toFields, []⟩ := by
    intro kept
    simp [Deed.on, Deed.removes, Deed.creation?]
  rw [List.foldl_append, List.foldl_cons, hcreate, foldl_on_some]
  intro d hd
  refine ⟨?_, Bool.eq_false_iff.mpr fun hremoves => ?_⟩
  · refine Option.eq_none_iff_forall_ne_some.mpr fun other hother => ?_
    exact h.notAgain d hd other (Deed.creation?_eq_some.mp hother)
  · obtain ⟨hdelete, hclear⟩ := h.notRemoved d hd
    exact (Deed.removes_eq_true.mp hremoves).elim hdelete hclear

/-- What is kept has a lifetime. -/
theorem exists_isLifetime {id : EntryId} {deeds : List Deed} {stored : Stored}
    (h : deeds.foldl (Deed.on id) none = some stored) :
    ∃ fields later, IsLifetime id deeds fields later := by
  -- From the last deed backwards: it has created the entry, or the entry was there before it.
  induction deeds using List.reverseRecOn generalizing stored with
  | nil => cases h
  | append_singleton deeds d ih =>
      rw [List.foldl_append, List.foldl_cons, List.foldl_nil] at h
      have hremoves : d.removes id = false := by
        by_contra hremoves
        rw [Deed.on, if_pos (eq_true_of_ne_false hremoves)] at h
        cases h
      cases hc : d.creation? id with
      | some fields =>
          refine ⟨fields, [], ⟨deeds, ?_⟩, List.forall_mem_nil _, List.forall_mem_nil _⟩
          rw [Deed.creation?_eq_some.mp hc]
      | none =>
          cases hkept : deeds.foldl (Deed.on id) none with
          | none =>
              rw [hkept, Deed.on_none hc] at h
              cases h
          | some old =>
              obtain ⟨fields, later, ⟨before, rfl⟩, hagain, hremoved⟩ := ih hkept
              refine ⟨fields, later ++ [d], ⟨before, by simp⟩, ?_, ?_⟩
              · refine List.forall_mem_append.mpr ⟨hagain, List.forall_mem_singleton.mpr ?_⟩
                intro other hother
                rw [Deed.creation?_eq_some.mpr hother] at hc
                cases hc
              · refine List.forall_mem_append.mpr ⟨hremoved, List.forall_mem_singleton.mpr ?_⟩
                rw [← not_or, ← Deed.removes_eq_true, hremoves]
                exact Bool.false_ne_true

/-! ## Reading an entry -/

theorem list_eq (s : Store) : s.list = s.rows.map fun r => ⟨r.1, r.2.fields⟩ := by
  have hall : (s.rows.filter fun r => (∅ : FieldSet).accepts r.2.fields) = s.rows :=
    List.filter_eq_self.mpr fun r _ => FieldSet.accepts_empty r.2.fields
  rw [list, search, hall]

theorem fetch_id {s : Store} {id : EntryId} {r : EntryRecord} (h : s.fetch id = .ok r) :
    r.id = id := by
  rw [fetch_eq] at h
  obtain ⟨stored, -, rfl⟩ := Except.map_eq_ok.mp h
  rfl

theorem mem_list_iff {s : Store} {r : EntryRecord} : r ∈ s.list ↔ s.fetch r.id = .ok r := by
  rw [list_eq, fetch_eq]
  constructor
  · intro h
    obtain ⟨row, hrow, rfl⟩ := List.mem_map.mp h
    rw [get_eq_ok_iff.mpr (find?_of_mem hrow), Except.map]
  · intro h
    obtain ⟨stored, hget, hr⟩ := Except.map_eq_ok.mp h
    exact List.mem_map.mpr ⟨_, get_eq_ok hget, hr⟩

theorem list_pairwise (s : Store) : (s.list.map EntryRecord.id).Pairwise (· < ·) := by
  rw [list_eq, List.map_map]
  exact List.pairwise_map.mpr s.ordered

theorem length_list (s : Store) : s.list.length = s.size := by
  rw [list_eq, List.length_map, size]

/-- After any history from the empty store, an entry is found exactly in its lifetime. Its values
are those it was created with and those laid over them since, and its texts are those attached to it
since and not removed. Nothing counts but what has succeeded and has to do with its id. The entries
found are listed, each of them once, in the order of their ids. -/
theorem reads_after_empty (history : List Action) :
    let s := (∅ : Store).after history
    let deeds := (∅ : Store).deeds history
    (∀ id,
      ((∃ r, s.fetch id = .ok r) ↔ ∃ fields later, IsLifetime id deeds fields later) ∧
      (∀ fields later, IsLifetime id deeds fields later →
        let entry := fields.toFields.overlaid (patches id later)
        s.fetch id = .ok ⟨id, entry⟩ ∧
        s.listStrings id = .ok ((edits id later).foldl Edit.on []) ∧
        ∀ f,
          entry.text? f =
            ((patches id later).reverse.findSome? (·.text? f)).or (fields.toFields.text? f) ∧
          entry.number? f =
            ((patches id later).reverse.findSome? fun p => (p.number? f).filter (0 < ·)).or
              (fields.toFields.number? f)) ∧
      ∀ other,
        ((∅ : Store).deeds other).filter (fun d => d.result.isOk && d.concerns id) =
          deeds.filter (fun d => d.result.isOk && d.concerns id) →
        ((∅ : Store).after other).fetch id = s.fetch id ∧
          ((∅ : Store).after other).listStrings id = s.listStrings id) ∧
    (∀ id, id ∈ s.list.map EntryRecord.id ↔ ∃ fields later, IsLifetime id deeds fields later) ∧
    (∀ r ∈ s.list, s.fetch r.id = .ok r) ∧
    (s.list.map EntryRecord.id).Pairwise (· < ·) ∧
    s.size = s.list.length := by
  intro s deeds
  have hfind : ∀ id, s.find? id = deeds.foldl (Deed.on id) none := find?_after ∅ history
  have hlives : ∀ id, (∃ r, s.fetch id = .ok r) ↔
      ∃ fields later, IsLifetime id deeds fields later := by
    intro id
    rw [fetch_eq]
    constructor
    · rintro ⟨r, hr⟩
      obtain ⟨stored, hget, -⟩ := Except.map_eq_ok.mp hr
      rw [get_eq_ok_iff, hfind] at hget
      exact exists_isLifetime hget
    · rintro ⟨fields, later, h⟩
      rw [get_eq_ok_iff.mpr ((hfind id).trans (h.foldl_on none))]
      exact ⟨_, rfl⟩
  refine ⟨fun id => ⟨hlives id, fun fields later h => ?_, fun other hother => ?_⟩, fun id => ?_,
    fun r hr => mem_list_iff.mp hr, s.list_pairwise, s.length_list.symm⟩
  · rw [fetch_eq, listStrings_eq, get_eq_ok_iff.mpr ((hfind id).trans (h.foldl_on none))]
    exact ⟨rfl, rfl, fun f => ⟨EntryFields.text?_overlaid _ _ f, EntryFields.number?_overlaid _ _ f⟩⟩
  · have hsame : ((∅ : Store).after other).find? id = s.find? id := by
      rw [find?_after_concerning, find?_after_concerning, hother]
    have hget : ((∅ : Store).after other).get id = s.get id := by rw [get, get, hsame]
    rw [fetch_eq, fetch_eq, listStrings_eq, listStrings_eq, hget]
    exact ⟨rfl, rfl⟩
  · rw [← hlives, List.mem_map]
    constructor
    · rintro ⟨r, hr, rfl⟩
      exact ⟨r, mem_list_iff.mp hr⟩
    · rintro ⟨r, hr⟩
      have hid := fetch_id hr
      exact ⟨r, mem_list_iff.mpr (hid ▸ hr), hid⟩

/-- One entry loses a text, gets another site, and keeps its port, since the new one is no port. It
is not changed by what is refused, nor by what is done to an entry that has come and gone. -/
theorem reads_after_empty_changed :
    let fields : FieldSet := .ofFields
      { app := "a", site := "b", mach := "c", node := "d", port := 1, pid := 2, comp := "e",
        tag := "f" }
    let history : List Action :=
      [.create fields, .addString 1 "x", .create fields, .addString 1 "y",
        .change 2 { tag := some "g" }, .change 1 { site := some "z", port := some (-1) },
        .change 1 { app := some "" }, .deleteString 1 1, .deleteString 1 7, .delete 2, .delete 2]
    let later : List Deed :=
      [⟨.addString 1 "x", .ok (.number 1)⟩, ⟨.create fields, .ok (.id 2)⟩,
        ⟨.addString 1 "y", .ok (.number 2)⟩, ⟨.change 2 { tag := some "g" }, .ok (.id 2)⟩,
        ⟨.change 1 { site := some "z", port := some (-1) }, .ok (.id 1)⟩,
        ⟨.change 1 { app := some "" }, .error (.incomplete [.app])⟩,
        ⟨.deleteString 1 1, .ok .done⟩, ⟨.deleteString 1 7, .error (.noString 1 7)⟩,
        ⟨.delete 2, .ok (.id 2)⟩, ⟨.delete 2, .error (.noEntry 2)⟩]
    IsLifetime 1 ((∅ : Store).deeds history) fields later ∧
      ((∅ : Store).after history).fetch 1 = .ok ⟨1, { fields.toFields with site := "z" }⟩ ∧
      ((∅ : Store).after history).listStrings 1 = .ok ["y"] ∧
      ((∅ : Store).after history).list.map EntryRecord.id = [1] := by
  intro fields history later
  have hdeeds : (∅ : Store).deeds history = ⟨.create fields, .ok (.id 1)⟩ :: later := by
    decide +kernel
  have hagain : ∀ d ∈ later, d.creation? 1 = none := by decide
  have hremoved : ∀ d ∈ later, d.action ≠ .delete 1 ∧ d.action ≠ .clear := by decide
  have hlifetime : IsLifetime 1 ((∅ : Store).deeds history) fields later := by
    refine ⟨⟨[], hdeeds⟩, fun d hd other hother => ?_, hremoved⟩
    have hnone := hagain d hd
    rw [Deed.creation?_eq_some.mpr hother] at hnone
    cases hnone
  obtain ⟨hreads, -⟩ := reads_after_empty history
  obtain ⟨hfetch, hstrings, -⟩ := (hreads 1).2.1 fields later hlifetime
  refine ⟨hlifetime, hfetch.trans ?_, hstrings.trans ?_, ?_⟩
  · have hvalues : fields.toFields.overlaid (patches 1 later) =
        { fields.toFields with site := "z" } := by decide
    rw [hvalues]
  · have htexts : (edits 1 later).foldl Edit.on [] = ["y".toList] := by decide
    rw [htexts]
  · decide +kernel

end Store

end ToolRegistry
