import ToolRegistry.Proofs.Answers
import ToolRegistry.Proofs.Lookup

/-!
# Nothing is half done

An operation of the store hands a new store back, and a refusal hands back none,
so the store from before is all that there is then. A server has one table,
though, and works on it in place. There it matters in which order things are
done: if the counter went on before an entry is looked at, or the values were
laid over an entry before they are found to be too few, a refused request would
leave its traces.

So the operations are carried out once more here, step by step on one store that
a failure does not give back (`InPlace`). Most of them look first and write then.
Removing an entry is the exception, since it finds out whether the entry was
there by removing it; but what is not there leaves no gap. That is why working in
place comes to the same as handing stores back (`Follows`), for every operation
and so for every request line.

What a request changes at most can then be told from the command alone: nothing
if it is refused or only asks, and nothing but one entry if it names one.
-/

namespace ToolRegistry

open Wire

/-- Work on the one store that there is: what is written stays, even if the work fails later. -/
abbrev InPlace : Type → Type := ExceptT StoreError (StateM Store)

namespace InPlace

variable {α β : Type}

/-- What the work comes to, and the store that it leaves, whether it fails or not. -/
def on (x : InPlace α) (store : Store) : Except StoreError α × Store := x.run.run store

@[simp]
theorem on_pure (a : α) (store : Store) : on (pure a) store = (.ok a, store) := rfl

@[simp]
theorem on_throw (e : StoreError) (store : Store) :
    on (throw e : InPlace α) store = (.error e, store) := rfl

@[simp]
theorem on_get (store : Store) : on (get : InPlace Store) store = (.ok store, store) := rfl

@[simp]
theorem on_modify (f : Store → Store) (store : Store) :
    on (modify f : InPlace PUnit) store = (.ok ⟨⟩, f store) := rfl

@[simp]
theorem on_bind (x : InPlace α) (f : α → InPlace β) (store : Store) :
    on (x >>= f) store =
      match on x store with
      | (.ok a, next) => on (f a) next
      | (.error e, next) => (.error e, next) := by
  simp only [on, ExceptT.run_bind, StateT.run_bind]
  generalize StateT.run (ExceptT.run x) store = r
  obtain ⟨a | e, next⟩ := r <;> rfl

@[simp]
theorem on_map (f : α → β) (x : InPlace α) (store : Store) :
    on (f <$> x) store = ((on x store).1.map f, (on x store).2) := by
  rw [← bind_pure_comp, on_bind]
  obtain ⟨a | e, next⟩ := on x store <;> rfl

/-! ## The operations, step by step -/

/-- What is kept under an id. -/
def find (id : EntryId) : InPlace Stored := do
  match (← get).find? id with
  | some stored => return stored
  | none => throw (.noEntry id)

/-- Looks at the values, moves the counter on and puts the entry into the table. -/
def create (fields : FieldSet) : InPlace EntryId := do
  let entry := fields.toFields
  if entry.missing ≠ [] then throw (.incomplete entry.missing)
  let id := (← get).nextId
  modify (·.advanced)
  modify (·.withRow id ⟨entry, []⟩)
  return id

/-- Finds the entry, lays the values over a copy of its own, looks at that and writes it back. -/
def change (id : EntryId) (fields : FieldSet) : InPlace EntryId := do
  let stored ← find id
  let entry := fields.applyTo stored.fields
  if entry.missing ≠ [] then throw (.incomplete entry.missing)
  modify (·.put id { stored with fields := entry })
  return id

/-- Takes the entry out and looks whether there was one. -/
def delete (id : EntryId) : InPlace EntryId := do
  let found := (← get).find? id
  modify (·.without id)
  match found with
  | some _ => return id
  | none => throw (.noEntry id)

/-- Counts the entries and takes all of them out. -/
def clear : InPlace Nat := do
  let count := (← get).size
  modify (·.clear.2)
  return count

/-- Finds the entry and attaches the text. -/
def addString (id : EntryId) (t : Text) : InPlace Nat := do
  let stored ← find id
  let strings := stored.strings ++ [t]
  modify (·.put id { stored with strings })
  return strings.length

/-- Finds the entry, looks at the position and removes the text there. -/
def deleteString (id : EntryId) (pos : UInt64) : InPlace Unit := do
  let stored ← find id
  if pos = 0 ∨ stored.strings.length < pos.toNat then throw (.noString id pos)
  modify (·.put id { stored with strings := stored.strings.eraseIdx (pos.toNat - 1) })

/-- Looks at the store without writing to it. -/
def look (f : Store → Except StoreError α) : InPlace α := do
  match f (← get) with
  | .ok a => return a
  | .error e => throw e

/-! ## Working in place and handing stores back -/

/-- Working in place comes to the same as an operation that hands the new store back, and a failure
leaves the store from before. -/
def Follows (x : InPlace α) (op : Store → Except StoreError (α × Store)) : Prop :=
  ∀ store, on x store =
    match op store with
    | .ok (a, next) => (.ok a, next)
    | .error e => (.error e, store)

theorem on_find (id : EntryId) (store : Store) : on (find id) store = (store.get id, store) := by
  simp only [find, Store.get, on_bind, on_get]
  cases store.find? id <;> rfl

theorem follows_create (fields : FieldSet) : (create fields).Follows (·.create fields) := by
  intro store
  simp only [create, Store.create_eq, EntryFields.IsComplete]
  by_cases h : fields.toFields.missing = []
  · simp [h, Except.map]
  · simp [h]

theorem follows_change (id : EntryId) (fields : FieldSet) :
    (change id fields).Follows (·.change id fields) := by
  intro store
  simp only [change, Store.change_eq, on_bind, on_find, EntryFields.IsComplete]
  cases store.get id with
  | error e => rfl
  | ok stored => by_cases h : (fields.applyTo stored.fields).missing = [] <;> simp [h, Except.map]

/-- Nothing is lost by removing what is not there. -/
theorem follows_delete (id : EntryId) : (delete id).Follows (·.delete id) := by
  intro store
  simp only [delete, Store.delete_eq, Store.get, on_bind, on_get, on_modify]
  cases h : store.find? id with
  | none => simp [Store.without_of_find?_eq_none h]
  | some stored => simp

theorem follows_clear : clear.Follows fun store => .ok store.clear := by
  intro store
  simp [clear, Store.clear, Except.map]

theorem follows_addString (id : EntryId) (t : Text) :
    (addString id t).Follows (·.addString id t) := by
  intro store
  simp only [addString, Store.addString_eq, on_bind, on_find]
  cases store.get id <;> simp

theorem follows_deleteString (id : EntryId) (pos : UInt64) :
    (deleteString id pos).Follows fun store => (store.deleteString id pos).map ((), ·) := by
  intro store
  simp only [deleteString, Store.deleteString_eq, on_bind, on_find]
  cases store.get id with
  | error e => rfl
  | ok stored =>
      by_cases h : pos = 0 ∨ stored.strings.length < pos.toNat <;> simp [h, Except.map]

theorem follows_look (f : Store → Except StoreError α) :
    (look f).Follows fun store => (f store).map (·, store) := by
  intro store
  simp only [look, on_bind, on_get]
  cases f store <;> rfl

/-- What is made of the answer does not touch the store. -/
theorem Follows.answer {x : InPlace α} {op : Store → Except StoreError (α × Store)}
    (h : x.Follows op) (f : α → β) :
    (do return f (← x) : InPlace β).Follows fun store => (op store).map fun r => (f r.1, r.2) := by
  intro store
  simp only [on_bind, h store]
  cases op store <;> rfl

theorem Follows.congr {x : InPlace α} {op op' : Store → Except StoreError (α × Store)}
    (h : x.Follows op) (heq : ∀ store, op store = op' store) : x.Follows op' := by
  intro store
  rw [h store, heq]

end InPlace

/-! ## Requests, step by step -/

namespace Wire.Command

/-- Whether a command only asks. -/
def isReading : Command → Bool
  | .quit | .help | .search _ | .list | .fetch _ | .getString _ _ | .listStrings _
  | .countStrings _ => true
  | .create _ | .change _ _ | .delete _ | .clean | .addString _ _ | .deleteString _ _ => false

/-- The entry that a command changes or removes, if it names one. -/
def target? : Command → Option EntryId
  | .change id _ | .delete id | .addString id _ | .deleteString id _ => some id
  | _ => none

end Wire.Command

namespace Session

/-- Carries out a command in place. -/
def executeInPlace (s : Session) : Command → InPlace Outcome
  | .create fields =>
      return .goOn (success Payload.created [idText (← InPlace.create fields)])
  | .change id fields => do
      return (fun _ => .goOn (success Payload.changed [idText id])) (← InPlace.change id fields)
  | .delete id => do
      return (fun _ => .goOn (success Payload.deleted [idText id])) (← InPlace.delete id)
  | .clean => return .goOn (success Payload.cleaned [natText (← InPlace.clear)])
  | .addString id text =>
      return .goOn (success Payload.stringAdded [natText (← InPlace.addString id text)])
  | .deleteString id pos => do
      return (fun _ => .goOn (success Payload.stringDeleted [posText pos, idText id]))
        (← InPlace.deleteString id pos)
  | command => InPlace.look fun store => (s.execute command store).map Prod.fst

/-- Answers one request line in place. -/
def dispatchInPlace (s : Session) (line : Text) : StateM Store Outcome := do
  match Command.parse line with
  | .error e => return .goOn (refusal e)
  | .ok command =>
      match ← (s.executeInPlace command).run with
      | .ok outcome => return outcome
      | .error e => return .goOn (failure command.kind e)

/-- A command that only asks leaves the store as it is. -/
theorem execute_reading {s : Session} {c : Command} (hc : c.isReading = true) {store next : Store}
    {o : Outcome} (h : s.execute c store = .ok (o, next)) : next = store := by
  cases c with
  | quit | help | search | list =>
      cases h
      rfl
  | fetch | getString | listStrings | countStrings =>
      obtain ⟨_, -, h⟩ := Except.bind_eq_ok.mp h
      cases h
      rfl
  | create | change | delete | clean | addString | deleteString => cases hc

theorem executeInPlace_reading (s : Session) {c : Command} (hc : c.isReading = true) :
    s.executeInPlace c = InPlace.look fun store => (s.execute c store).map Prod.fst := by
  cases c with
  | create | change | delete | clean | addString | deleteString => cases hc
  | _ => rfl

theorem follows_executeInPlace (s : Session) (c : Command) :
    (s.executeInPlace c).Follows (s.execute c) := by
  cases hc : c.isReading with
  | true =>
      rw [executeInPlace_reading s hc]
      refine (InPlace.follows_look _).congr fun store => ?_
      cases h : s.execute c store with
      | error e => rfl
      | ok answer => rw [Except.map, Except.map, ← execute_reading hc h]
  | false =>
      cases c with
      | create fields =>
          refine ((InPlace.follows_create fields).answer _).congr fun store => ?_
          simp only [execute]
          cases store.create fields <;> rfl
      | change id fields =>
          refine ((InPlace.follows_change id fields).answer _).congr fun store => ?_
          simp only [execute]
          cases store.change id fields <;> rfl
      | delete id =>
          refine ((InPlace.follows_delete id).answer _).congr fun store => ?_
          simp only [execute]
          cases store.delete id <;> rfl
      | clean => exact (InPlace.follows_clear.answer _).congr fun store => rfl
      | addString id t =>
          refine ((InPlace.follows_addString id t).answer _).congr fun store => ?_
          simp only [execute]
          cases store.addString id t <;> rfl
      | deleteString id pos =>
          refine ((InPlace.follows_deleteString id pos).answer _).congr fun store => ?_
          simp only [execute]
          cases store.deleteString id pos <;> rfl
      | quit | help | search | list | fetch | getString | listStrings | countStrings => cases hc

/-- A line is answered in place as it is answered with stores that are handed back. -/
theorem run_dispatchInPlace (s : Session) (line : Text) (store : Store) :
    (s.dispatchInPlace line).run store = s.dispatch line store := by
  simp only [dispatchInPlace, dispatch]
  cases Command.parse line with
  | error e => rfl
  | ok c =>
      have h := s.follows_executeInPlace c store
      simp only [InPlace.on] at h
      simp only [StateT.run_bind, h]
      cases s.execute c store <;> rfl

/-! ## What a request changes at most -/

/-- Another entry is found as before, and the counter of ids stands where it stood. -/
def IsFramed (id : EntryId) (store next : Store) : Prop :=
  next.nextId = store.nextId ∧ ∀ other, other ≠ id → next.find? other = store.find? other

theorem isFramed_put (store : Store) (id : EntryId) (stored : Stored) :
    IsFramed id store (store.put id stored) := by
  refine ⟨rfl, fun other hother => ?_⟩
  rw [Store.find?_put, if_neg hother]

theorem isFramed_without (store : Store) (id : EntryId) :
    IsFramed id store (store.without id) := by
  refine ⟨rfl, fun other hother => ?_⟩
  rw [Store.find?_without, if_neg hother]

/-- A command that names an entry changes no other. -/
theorem execute_target {s : Session} {c : Command} {id : EntryId} (hc : c.target? = some id)
    {store next : Store} {o : Outcome} (h : s.execute c store = .ok (o, next)) :
    IsFramed id store next := by
  cases c with
  | change _ fields =>
      cases hc
      obtain ⟨⟨r, after⟩, hop, h⟩ := Except.bind_eq_ok.mp h
      cases h
      obtain ⟨stored, -, -, -, rfl⟩ := Store.change_eq_ok hop
      exact isFramed_put _ _ _
  | delete =>
      cases hc
      obtain ⟨⟨r, after⟩, hop, h⟩ := Except.bind_eq_ok.mp h
      cases h
      obtain ⟨stored, -, -, rfl⟩ := Store.delete_eq_ok hop
      exact isFramed_without _ _
  | addString _ t =>
      cases hc
      obtain ⟨⟨n, after⟩, hop, h⟩ := Except.bind_eq_ok.mp h
      cases h
      obtain ⟨stored, -, -, rfl⟩ := Store.addString_eq_ok hop
      exact isFramed_put _ _ _
  | deleteString _ pos =>
      cases hc
      obtain ⟨after, hop, h⟩ := Except.bind_eq_ok.mp h
      cases h
      obtain ⟨stored, -, -, -, rfl⟩ := Store.deleteString_eq_ok hop
      exact isFramed_put _ _ _
  | quit | help | create | search | list | fetch | clean | getString | listStrings
  | countStrings => cases hc

theorem isOk_of_execute {s : Session} {c : Command} {store next : Store} {o : Outcome}
    (h : s.execute c store = .ok (o, next)) : o.reply.isOk = true := by
  obtain ⟨payload, hlines, -⟩ := execute_ok h
  rw [Reply.isOk, hlines]
  rfl

theorem refusal_isErr (e : CommandError) : ∃ payload, refusal e = .err payload := by
  cases e <;> exact ⟨_, rfl⟩

/-- A line is refused and the store stays as it is, or a command is carried out. -/
theorem dispatch_cases (s : Session) (line : Text) (store : Store) :
    (∃ payload, s.dispatch line store = (.goOn (.err payload), store)) ∨
      ∃ c o next, Command.parse line = .ok c ∧ s.execute c store = .ok (o, next) ∧
        s.dispatch line store = (o, next) := by
  simp only [dispatch]
  cases hparse : Command.parse line with
  | error e =>
      obtain ⟨payload, hreply⟩ := refusal_isErr e
      exact .inl ⟨payload, by simp only [hreply]⟩
  | ok c =>
      cases hexec : s.execute c store with
      | error e => exact .inl ⟨failurePayload c.kind e, by simp only [hexec, failure_eq]⟩
      | ok answer => exact .inr ⟨c, answer.1, answer.2, rfl, hexec, by simp only [hexec]⟩

/-- Whatever a line holds, and whatever the store is, either the line is refused and the store stays
exactly as it was, or a command is carried out. Then the store stays as it was if the command only
asks, and every entry but one does, and the counter of ids, if it names one. All this is so as well
when the line is answered step by step on one store. -/
theorem dispatch_frame (s : Session) (line : Text) (store : Store) :
    ∃ outcome next,
      s.dispatch line store = (outcome, next) ∧
      (s.dispatchInPlace line).run store = (outcome, next) ∧
      ((outcome.reply.isOk = false ∧ (∃ payload, outcome.reply = .err payload) ∧ next = store) ∨
        (outcome.reply.isOk = true ∧ ∃ c, Command.parse line = .ok c ∧
          (c.isReading = true → next = store) ∧
          ∀ id, c.target? = some id →
            next.nextId = store.nextId ∧
              ∀ other, other ≠ id → next.find? other = store.find? other)) := by
  have hrun := s.run_dispatchInPlace line store
  rcases s.dispatch_cases line store with ⟨payload, h⟩ | ⟨c, o, next, hparse, hexec, h⟩
  · rw [h] at hrun
    exact ⟨_, _, h, hrun, .inl ⟨rfl, ⟨payload, rfl⟩, rfl⟩⟩
  · rw [h] at hrun
    exact ⟨o, next, h, hrun, .inr ⟨isOk_of_execute hexec, c, hparse,
      fun hc => execute_reading hc hexec, fun id hc => execute_target hc hexec⟩⟩

end Session

end ToolRegistry
