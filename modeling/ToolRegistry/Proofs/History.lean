import ToolRegistry.Proofs.InPlace
import ToolRegistry.Proofs.Reachable

/-!
# Histories of a store

Everything that happens to a store is a list of its twelve operations, one after
the other. Which session asked for which of them does not matter to the store,
so a history (`Store.after`) stands for any number of sessions in any order, and
every store that sessions can reach has one (`Reachable.exists_history`).

Only one thing is said of the operations one by one: what a step does to the
counter of ids and to the ids in the table (`act_cases`). A step either creates
an entry under the number that the counter shows and moves the counter on, or it
leaves the counter alone and puts no id into the table. By induction the ids
given out are the numbers from the first one on, in 32 bits (`created_eq`), and
an id in the table has been given out (`find?_eq_none_or_mem_created`).

So an id is given out once and for all, as long as fewer than 2^32 entries have
been created; what is deleted in between makes no difference. With the 2^32nd
entry the counter comes round to 0, and the next one gets the id 1 again, whether
there still is an entry with that id or not.
-/

namespace ToolRegistry

namespace Store

/-- An operation with its arguments. -/
inductive Action where
  | create (fields : FieldSet)
  | change (id : EntryId) (fields : FieldSet)
  | delete (id : EntryId)
  | fetch (id : EntryId)
  | search (predicate : FieldSet)
  | list
  | clear
  | addString (id : EntryId) (t : Text)
  | getString (id : EntryId) (pos : UInt64)
  | deleteString (id : EntryId) (pos : UInt64)
  | listStrings (id : EntryId)
  | countStrings (id : EntryId)
deriving DecidableEq, Repr

/-- What an operation answers. -/
inductive Answer where
  | id (id : EntryId)
  | record (r : EntryRecord)
  | records (rs : List EntryRecord)
  | number (n : Nat)
  | text (t : Text)
  | texts (ts : List Text)
  | done
deriving DecidableEq, Repr

/-- The answer to an operation and the store after it, unless it is refused. -/
def perform (s : Store) : Action → Except StoreError (Answer × Store)
  | .create fields => (s.create fields).map fun r => (.id r.1, r.2)
  | .change id fields => (s.change id fields).map fun r => (.id r.1, r.2)
  | .delete id => (s.delete id).map fun r => (.id r.1, r.2)
  | .fetch id => (s.fetch id).map fun r => (.record r, s)
  | .search predicate => .ok (.records (s.search predicate), s)
  | .list => .ok (.records s.list, s)
  | .clear => .ok (.number s.clear.1, s.clear.2)
  | .addString id t => (s.addString id t).map fun r => (.number r.1, r.2)
  | .getString id pos => (s.getString id pos).map fun t => (.text t, s)
  | .deleteString id pos => (s.deleteString id pos).map fun next => (.done, next)
  | .listStrings id => (s.listStrings id).map fun ts => (.texts ts, s)
  | .countStrings id => (s.countStrings id).map fun n => (.number n, s)

/-- The store after an operation; one that is refused leaves it as it is. -/
def act (s : Store) (a : Action) : Store :=
  match s.perform a with
  | .ok (_, next) => next
  | .error _ => s

/-- The store after a history. -/
def after (s : Store) (history : List Action) : Store := history.foldl act s

/-- The id that an operation gives out. -/
def created? (s : Store) : Action → Option EntryId
  | .create fields =>
      match s.create fields with
      | .ok (id, _) => some id
      | .error _ => none
  | _ => none

/-- The ids that are given out in the course of a history, in order. -/
def created (s : Store) : List Action → List EntryId
  | [] => []
  | a :: history => (s.created? a).toList ++ (s.act a).created history

@[simp]
theorem after_nil (s : Store) : s.after [] = s := rfl

@[simp]
theorem after_cons (s : Store) (a : Action) (history : List Action) :
    s.after (a :: history) = (s.act a).after history := rfl

theorem after_append (s : Store) (before behind : List Action) :
    s.after (before ++ behind) = (s.after before).after behind := List.foldl_append

theorem created_append (s : Store) (before behind : List Action) :
    s.created (before ++ behind) = s.created before ++ (s.after before).created behind := by
  induction before generalizing s with
  | nil => rfl
  | cons a before ih => rw [List.cons_append, created, created, ih, List.append_assoc, after_cons]

/-! ## One step -/

theorem find?_empty (id : EntryId) : (∅ : Store).find? id = none := rfl

theorem act_create {s : Store} {fields : FieldSet} (h : fields.toFields.IsComplete) :
    s.act (.create fields) = s.advanced.withRow s.nextId ⟨fields.toFields, []⟩ := by
  simp only [act, perform, create_eq, if_pos h]
  rfl

theorem act_create_refused {s : Store} {fields : FieldSet} (h : ¬fields.toFields.IsComplete) :
    s.act (.create fields) = s := by
  simp only [act, perform, create_eq, if_neg h]
  rfl

theorem created?_create (s : Store) (fields : FieldSet) :
    s.created? (.create fields) =
      if fields.toFields.IsComplete then some s.nextId else none := by
  rw [created?, create_eq]
  by_cases h : fields.toFields.IsComplete
  · rw [if_pos h, if_pos h]
  · rw [if_neg h, if_neg h]

theorem act_change (s : Store) (id : EntryId) (fields : FieldSet) :
    s.act (.change id fields) =
      match s.find? id with
      | some stored =>
          if (fields.applyTo stored.fields).IsComplete then
            s.put id { stored with fields := fields.applyTo stored.fields }
          else s
      | none => s := by
  simp only [act, perform, change_eq, get]
  cases s.find? id with
  | none => rfl
  | some stored =>
      by_cases h : (fields.applyTo stored.fields).IsComplete
      · simp only [if_pos h, Except.map]
      · simp only [if_neg h, Except.map]

/-- What is not there need not be looked for before it is removed. -/
theorem act_delete (s : Store) (id : EntryId) : s.act (.delete id) = s.without id := by
  simp only [act, perform, delete_eq, get]
  cases h : s.find? id with
  | none => exact (without_of_find?_eq_none h).symm
  | some stored => rfl

theorem act_addString (s : Store) (id : EntryId) (t : Text) :
    s.act (.addString id t) =
      match s.find? id with
      | some stored => s.put id { stored with strings := stored.strings ++ [t] }
      | none => s := by
  simp only [act, perform, addString_eq, get]
  cases s.find? id <;> rfl

theorem act_deleteString (s : Store) (id : EntryId) (pos : UInt64) :
    s.act (.deleteString id pos) =
      match s.find? id with
      | some stored =>
          if pos = 0 ∨ stored.strings.length < pos.toNat then s
          else s.put id { stored with strings := stored.strings.eraseIdx (pos.toNat - 1) }
      | none => s := by
  simp only [act, perform, deleteString_eq, get]
  cases s.find? id with
  | none => rfl
  | some stored =>
      by_cases h : pos = 0 ∨ stored.strings.length < pos.toNat
      · simp only [if_pos h, Except.map]
      · simp only [if_neg h, Except.map]

/-- An operation that hands the store back as it is only asks. -/
theorem act_asking {α : Type} {s : Store} {a : Action} (r : Except StoreError α) (f : α → Answer)
    (h : s.perform a = r.map fun x => (f x, s)) : s.act a = s := by
  rw [act, h]
  cases r <;> rfl

/-! ## The ids in the table -/

/-- The counter stands where it stood, and no id has come into the table. -/
def AddsNoId (s next : Store) : Prop :=
  next.nextId = s.nextId ∧ ∀ id, s.find? id = none → next.find? id = none

theorem addsNoId_self (s : Store) : AddsNoId s s := ⟨rfl, fun _ h => h⟩

theorem addsNoId_put (s : Store) (id : EntryId) (stored : Stored) :
    AddsNoId s (s.put id stored) := by
  refine ⟨rfl, fun other hother => ?_⟩
  rw [find?_put]
  split
  · next heq => rw [← heq, hother, Option.map_none]
  · exact hother

theorem addsNoId_without (s : Store) (id : EntryId) : AddsNoId s (s.without id) := by
  refine ⟨rfl, fun other hother => ?_⟩
  rw [find?_without, hother, ite_self]

theorem addsNoId_clear (s : Store) : AddsNoId s s.clear.2 := ⟨rfl, fun _ _ => rfl⟩

/-- A step gives out the number that the counter shows and puts an entry there, or it adds no id. -/
theorem act_cases (s : Store) (a : Action) :
    (s.created? a = some s.nextId ∧ ∃ stored, s.act a = s.advanced.withRow s.nextId stored) ∨
      (s.created? a = none ∧ AddsNoId s (s.act a)) := by
  cases a with
  | create fields =>
      rw [created?_create]
      by_cases h : fields.toFields.IsComplete
      · exact .inl ⟨if_pos h, _, act_create h⟩
      · rw [act_create_refused h]
        exact .inr ⟨if_neg h, addsNoId_self s⟩
  | change id fields =>
      rw [act_change]
      split
      · split
        · exact .inr ⟨rfl, addsNoId_put s id _⟩
        · exact .inr ⟨rfl, addsNoId_self s⟩
      · exact .inr ⟨rfl, addsNoId_self s⟩
  | delete id =>
      rw [act_delete]
      exact .inr ⟨rfl, addsNoId_without s id⟩
  | clear => exact .inr ⟨rfl, addsNoId_clear s⟩
  | addString id t =>
      rw [act_addString]
      split
      · exact .inr ⟨rfl, addsNoId_put s id _⟩
      · exact .inr ⟨rfl, addsNoId_self s⟩
  | deleteString id pos =>
      rw [act_deleteString]
      split
      · split
        · exact .inr ⟨rfl, addsNoId_self s⟩
        · exact .inr ⟨rfl, addsNoId_put s id _⟩
      · exact .inr ⟨rfl, addsNoId_self s⟩
  | search predicate => exact .inr ⟨rfl, addsNoId_self s⟩
  | list => exact .inr ⟨rfl, addsNoId_self s⟩
  | fetch id =>
      rw [act_asking (s.fetch id) .record rfl]
      exact .inr ⟨rfl, addsNoId_self s⟩
  | getString id pos =>
      rw [act_asking (s.getString id pos) .text rfl]
      exact .inr ⟨rfl, addsNoId_self s⟩
  | listStrings id =>
      rw [act_asking (s.listStrings id) .texts rfl]
      exact .inr ⟨rfl, addsNoId_self s⟩
  | countStrings id =>
      rw [act_asking (s.countStrings id) .number rfl]
      exact .inr ⟨rfl, addsNoId_self s⟩

/-! ## Whole histories -/

theorem add_ofNat_succ (id : EntryId) (k : Nat) :
    id + UInt32.ofNat (k + 1) = id + 1 + UInt32.ofNat k := by
  rw [Nat.add_comm, UInt32.ofNat_add, UInt32.add_assoc]
  rfl

/-- The ids given out are the numbers from the one on that the counter shows, in 32 bits. -/
theorem created_eq (s : Store) (history : List Action) :
    s.created history =
        (List.range (s.created history).length).map (fun k => s.nextId + UInt32.ofNat k) ∧
      (s.after history).nextId = s.nextId + UInt32.ofNat (s.created history).length := by
  -- On the history, for every store, since the rest of it begins where the counter then stands.
  induction history generalizing s with
  | nil => simp [created]
  | cons a history ih =>
      obtain ⟨hids, hnext⟩ := ih (s.act a)
      rcases s.act_cases a with ⟨hid, stored, hact⟩ | ⟨hid, hkeep, -⟩
      · have hstep : (s.act a).nextId = s.nextId + 1 := by rw [hact, nextId_withRow, nextId_advanced]
        rw [hstep] at hids hnext
        rw [created, hid, after_cons, hnext, Option.toList_some, List.singleton_append,
          List.length_cons, List.range_succ_eq_map, List.map_cons, List.map_map, add_ofNat_succ]
        refine ⟨?_, rfl⟩
        have hfirst : s.nextId = s.nextId + UInt32.ofNat 0 := (UInt32.add_zero _).symm
        conv_lhs => rw [hids]
        rw [← hfirst]
        congr 1
        exact List.map_congr_left fun k _ => (add_ofNat_succ _ _).symm
      · rw [created, hid, after_cons, hnext, hkeep]
        rw [hkeep] at hids
        exact ⟨hids, rfl⟩

/-- An id that is in the table after a history was there before it or has been given out. -/
theorem find?_eq_none_or_mem_created {s : Store} {history : List Action} {id : EntryId}
    (h : s.find? id = none) :
    (s.after history).find? id = none ∨ id ∈ s.created history := by
  induction history generalizing s with
  | nil => exact .inl h
  | cons a history ih =>
      rcases s.act_cases a with ⟨hid, stored, hact⟩ | ⟨hid, -, hkeep⟩
      · by_cases hsame : id = s.nextId
        · refine .inr ?_
          rw [created, hid, hsame]
          exact List.mem_cons_self
        · have hfind : (s.act a).find? id = none := by
            rw [hact, find?_withRow, if_neg hsame, find?_advanced, h]
          rcases ih hfind with hnone | hmem
          · exact .inl hnone
          · exact .inr (List.mem_append_right _ hmem)
      · rcases ih (hkeep id h) with hnone | hmem
        · exact .inl hnone
        · exact .inr (List.mem_append_right _ hmem)

/-! ## From the empty store on

The empty store shows 1, so the `k`-th id is `k` in 32 bits, and all of them
differ as long as `k` is less than 2^32.
-/

theorem created_empty (history : List Action) :
    (∅ : Store).created history =
      (List.range ((∅ : Store).created history).length).map fun k => UInt32.ofNat (k + 1) := by
  obtain ⟨hids, -⟩ := created_eq ∅ history
  conv_lhs => rw [hids]
  exact List.map_congr_left fun k _ => by rw [Nat.add_comm, UInt32.ofNat_add]; rfl

theorem nextId_after_empty (history : List Action) :
    ((∅ : Store).after history).nextId =
      UInt32.ofNat (((∅ : Store).created history).length + 1) := by
  obtain ⟨-, hnext⟩ := created_eq ∅ history
  rw [hnext, Nat.add_comm, UInt32.ofNat_add]
  rfl

/-- In the course of a history from the empty store no id is given out that is 0, that is not
greater than the ones before, or under which there still is an entry. -/
structure NeverReuses (history : List Action) : Prop where
  positive : ∀ id ∈ (∅ : Store).created history, 1 ≤ id
  increasing : ((∅ : Store).created history).Pairwise (· < ·)
  vacant : ∀ before a behind, history = before ++ a :: behind →
    ∀ id, ((∅ : Store).after before).created? a = some id →
      ((∅ : Store).after before).find? id = none

theorem ofNat_lt_ofNat {m n : Nat} (h : m < n) (hn : n < 2 ^ 32) :
    UInt32.ofNat m < UInt32.ofNat n := by
  rw [UInt32.lt_iff_toNat_lt, UInt32.toNat_ofNat_of_lt' hn,
    UInt32.toNat_ofNat_of_lt' (Nat.lt_trans h hn)]
  exact h

/-- As long as the counter has not come round, what it shows is not in the table. -/
theorem find?_nextId {history : List Action}
    (h : ((∅ : Store).created history).length + 1 < 2 ^ 32) :
    ((∅ : Store).after history).find? ((∅ : Store).after history).nextId = none := by
  rcases find?_eq_none_or_mem_created (find?_empty _) with hnone | hmem
  · exact hnone
  · rw [created_empty, nextId_after_empty] at hmem
    obtain ⟨k, hk, heq⟩ := List.mem_map.mp hmem
    have hk := List.mem_range.mp hk
    have hlt := @ofNat_lt_ofNat (k + 1) _ (Nat.succ_lt_succ hk) h
    exact absurd heq (UInt32.ne_of_lt hlt)

theorem neverReuses_of_length_lt {history : List Action}
    (h : ((∅ : Store).created history).length < 2 ^ 32) : NeverReuses history where
  positive := by
    intro id hid
    rw [created_empty] at hid
    obtain ⟨k, hk, rfl⟩ := List.mem_map.mp hid
    have hk := List.mem_range.mp hk
    have hfit : k + 1 < 2 ^ 32 := by omega
    rw [UInt32.le_iff_toNat_le, UInt32.toNat_ofNat_of_lt' hfit]
    exact Nat.le_add_left 1 k
  increasing := by
    rw [created_empty, List.pairwise_map]
    refine List.pairwise_lt_range.imp_of_mem fun _ hn hlt => ?_
    have hn := List.mem_range.mp hn
    exact ofNat_lt_ofNat (Nat.succ_lt_succ hlt) (by omega)
  vacant := by
    intro before a behind heq id hid
    rcases ((∅ : Store).after before).act_cases a with ⟨hnext, -⟩ | ⟨hnone, -⟩
    · cases hnext.symm.trans hid
      refine find?_nextId ?_
      rw [heq, created_append, created, hid, List.length_append, List.length_append,
        Option.toList_some, List.length_singleton] at h
      omega
    · cases hnone.symm.trans hid

/-- The 2^32nd id that is given out is 0. -/
theorem zero_mem_created {history : List Action}
    (h : 2 ^ 32 ≤ ((∅ : Store).created history).length) : 0 ∈ (∅ : Store).created history := by
  rw [created_empty]
  refine List.mem_map.mpr ⟨2 ^ 32 - 1, List.mem_range.mpr (by omega), rfl⟩

/-- Whatever the history, the ids given out are 1, 2, 3 and so on, in 32 bits, and the counter shows
the next one. None of them is used again exactly if there are fewer than 2^32. -/
theorem neverReuses_iff (history : List Action) :
    let ids := (∅ : Store).created history
    ids = (List.range ids.length).map (fun k => UInt32.ofNat (k + 1)) ∧
      ((∅ : Store).after history).nextId = UInt32.ofNat (ids.length + 1) ∧
      (NeverReuses history ↔ ids.length < 2 ^ 32) := by
  intro ids
  refine ⟨created_empty history, nextId_after_empty history, fun h => ?_, neverReuses_of_length_lt⟩
  by_contra hmany
  have hzero := h.positive 0 (zero_mem_created (Nat.le_of_not_lt hmany))
  exact absurd hzero (by decide)

/-! ## The counter comes round

No table of 2^32 entries is needed to see it. One entry that stays is enough,
and another that is created and removed again and again.
-/

/-- Entries are created under the ids from 2 on, and each is removed before the next. -/
def churn (fields : FieldSet) (n : Nat) : List Action :=
  (List.range n).flatMap fun k => [.create fields, .delete (UInt32.ofNat (k + 2))]

theorem churn_succ (fields : FieldSet) (n : Nat) :
    churn fields (n + 1) =
      churn fields n ++ [.create fields, .delete (UInt32.ofNat (n + 2))] := by
  rw [churn, List.range_succ, List.flatMap_append, List.flatMap_singleton, ← churn]

theorem after_churn {s : Store} {fields : FieldSet} {first : Stored}
    (hfields : fields.toFields.IsComplete) (hfirst : s.find? 1 = some first) (hnext : s.nextId = 2)
    {n : Nat} (hn : n + 1 ≤ 2 ^ 32) :
    (s.after (churn fields n)).find? 1 = some first ∧
      (s.after (churn fields n)).nextId = UInt32.ofNat (n + 2) := by
  induction n with
  | zero => exact ⟨hfirst, hnext⟩
  | succ n ih =>
      obtain ⟨hfind, hcount⟩ := ih (by omega)
      -- The number is less than 2^32 or just that, which is 0 in 32 bits.
      have hother : 1 ≠ UInt32.ofNat (n + 2) := by
        intro heq
        have hval := congrArg UInt32.toNat heq
        rw [UInt32.toNat_ofNat', UInt32.toNat_one] at hval
        omega
      rw [churn_succ, after_append, after_cons, after_cons, after_nil, act_delete,
        act_create hfields, find?_without, if_neg hother, find?_withRow, hcount, if_neg hother,
        find?_advanced, nextId_without, nextId_withRow, nextId_advanced, hcount]
      exact ⟨hfind, (UInt32.ofNat_add (n + 2) 1).symm⟩

/-- A text is attached to the first entry. 2^32 - 1 others are created and removed, so that there
never are more than two. Then one more is created, and it takes the place of the first. -/
theorem neverReuses_false :
    let fields : FieldSet := .ofFields
      { app := "a", site := "b", mach := "c", node := "d", port := 1, pid := 2, comp := "e",
        tag := "f" }
    let before := [.create fields, .addString 1 "kept"] ++ churn fields (2 ^ 32 - 1)
    ((∅ : Store).after before).find? 1 = some ⟨fields.toFields, ["kept"]⟩ ∧
      ((∅ : Store).after before).created? (.create fields) = some 1 ∧
      ((∅ : Store).after (before ++ [.create fields])).find? 1 = some ⟨fields.toFields, []⟩ ∧
      ¬NeverReuses (before ++ [.create fields]) := by
  intro fields before
  have hfields : fields.toFields.IsComplete := by decide
  have hstart : ((∅ : Store).after [.create fields, .addString 1 "kept"]).find? 1 =
      some ⟨fields.toFields, ["kept"]⟩ := by decide
  obtain ⟨hfirst, hcount⟩ := @after_churn _ _ _ hfields hstart rfl (2 ^ 32 - 1) (by decide)
  have hround : UInt32.ofNat (2 ^ 32 - 1 + 2) = 1 := by decide
  rw [hround] at hcount
  have hkept : ((∅ : Store).after before).find? 1 = some ⟨fields.toFields, ["kept"]⟩ := by
    rw [after_append]
    exact hfirst
  have hnext : ((∅ : Store).after before).nextId = 1 := by
    rw [after_append]
    exact hcount
  have hcreated : ((∅ : Store).after before).created? (.create fields) = some 1 := by
    rw [created?_create, if_pos hfields, hnext]
  refine ⟨hkept, hcreated, ?_, fun h => ?_⟩
  · rw [after_append, after_cons, after_nil, act_create hfields, hnext, find?_withRow, if_pos rfl]
  · have hnone := h.vacant before (.create fields) [] rfl 1 hcreated
    rw [hkept] at hnone
    cases hnone

end Store

/-! ## What sessions do is a history -/

open Wire

/-- The operation that carries a command out. -/
def Wire.Command.action? : Command → Option Store.Action
  | .quit | .help => none
  | .create fields => some (.create fields)
  | .search predicate => some (.search predicate)
  | .change id fields => some (.change id fields)
  | .delete id => some (.delete id)
  | .list => some .list
  | .fetch id => some (.fetch id)
  | .clean => some .clear
  | .addString id t => some (.addString id t)
  | .getString id pos => some (.getString id pos)
  | .deleteString id pos => some (.deleteString id pos)
  | .listStrings id => some (.listStrings id)
  | .countStrings id => some (.countStrings id)

theorem Session.execute_after {s : Session} {c : Command} {store next : Store} {o : Outcome}
    (h : s.execute c store = .ok (o, next)) : next = store.after c.action?.toList := by
  cases c with
  | quit | help | search | list | clean =>
      cases h
      rfl
  | create | change | delete | addString =>
      obtain ⟨⟨r, after⟩, hop, h⟩ := Except.bind_eq_ok.mp h
      cases h
      simp only [Command.action?, Option.toList_some, Store.after_cons, Store.after_nil, Store.act,
        Store.perform, hop, Except.map]
  | deleteString =>
      obtain ⟨after, hop, h⟩ := Except.bind_eq_ok.mp h
      cases h
      simp only [Command.action?, Option.toList_some, Store.after_cons, Store.after_nil, Store.act,
        Store.perform, hop, Except.map]
  | fetch | getString | listStrings | countStrings =>
      obtain ⟨r, hop, h⟩ := Except.bind_eq_ok.mp h
      cases h
      simp only [Command.action?, Option.toList_some, Store.after_cons, Store.after_nil, Store.act,
        Store.perform, hop, Except.map]

/-- Every store that sessions can reach has come about by the operations of the store. -/
theorem Store.Reachable.exists_history {store : Store} (h : store.Reachable) :
    ∃ history, store = (∅ : Store).after history := by
  induction h with
  | start => exact ⟨[], rfl⟩
  | @answered store _ s _ line _ ih =>
      obtain ⟨history, rfl⟩ := ih
      rcases s.dispatch_cases line ((∅ : Store).after history) with
        ⟨_, hrefused⟩ | ⟨c, o, next, -, hexec, hdone⟩
      · exact ⟨history, by rw [hrefused]⟩
      · refine ⟨history ++ c.action?.toList, ?_⟩
        rw [hdone, Store.after_append, ← Session.execute_after hexec]

end ToolRegistry
