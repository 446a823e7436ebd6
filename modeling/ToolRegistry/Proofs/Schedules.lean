import Mathlib.Data.List.Sort
import Mathlib.Data.Set.BooleanAlgebra
import Mathlib.Order.CompletePartialOrder
import ToolRegistry.Proofs.InPlace

/-!
# Requests in any order

What a server makes of several clients at once depends on the order in which it
gets to their lines, and that order is not theirs to choose. Here it is a list of
requests, each with the party that it comes from (a schedule). The store that a
request finds is the one that the requests before it have left, whoever sent
them.

Parties that keep to different entries do not notice each other. A request that
names an entry looks at nothing but what is kept under its id
(`Session.execute_congr`), and it leaves everything else alone (`Request.on_frame`).
So two stores that agree on the entries of a party give it the same answers and
go on agreeing on them (`Request.on_agree`), and what the others do in between
does not touch that. The rest is an induction on the schedule.

What is left in the end is settled as well. What is kept under an id is what its
party has left there, and no other request has written there. And a store is
nothing but what is found in it and the counter of ids (`Store.ext_find?`).
-/

namespace ToolRegistry

open Wire

/-- A store is what is found in it under every id, and the id that the next entry gets. -/
theorem Store.ext_find? {s t : Store} (hfind : ∀ id, s.find? id = t.find? id)
    (hnext : s.nextId = t.nextId) : s = t := by
  refine ext_rows ?_ hnext
  have : Std.Irrefl fun a b : EntryId × Stored => a.1 < b.1 := ⟨fun a => UInt32.lt_irrefl a.1⟩
  have : Std.Antisymm fun a b : EntryId × Stored => a.1 < b.1 :=
    ⟨fun a b hab hba => absurd (UInt32.lt_trans hab hba) (UInt32.lt_irrefl a.1)⟩
  refine List.Pairwise.eq_of_mem_iff s.ordered t.ordered fun row => ?_
  have hrow : ∀ u : Store, row ∈ u.rows ↔ u.find? row.1 = some row.2 :=
    fun u => ⟨find?_of_mem, mem_of_find?⟩
  rw [hrow, hrow, hfind]

/-! ## Requests -/

/-- A line that comes in on a session. -/
structure Request where
  /-- The session on which it comes in. -/
  session : Session
  /-- The line, without its line end. -/
  line : Text
deriving DecidableEq, Repr

namespace Request

/-- The answer to a request, and the store that it leaves. -/
def on (r : Request) (store : Store) : Outcome × Store := r.session.respond r.line store

/-- The command that a request asks for: none if the line is too long, or is not a command. -/
def command? (r : Request) : Option Command :=
  if r.session.limit.toNat < (Utf8.encode r.line).length then none
  else (Command.parse r.line).toOption

theorem on_none {r : Request} (h : r.command? = none) :
    ∃ payload, ∀ store, r.on store = (.goOn (.err payload), store) := by
  rw [command?] at h
  simp only [on, Session.respond]
  split at h
  · next hlong => exact ⟨_, fun store => if_pos hlong⟩
  · next hshort =>
      simp only [if_neg hshort, Session.dispatch]
      cases hparse : Command.parse r.line with
      | ok c => rw [hparse] at h; cases h
      | error e =>
          obtain ⟨payload, hpayload⟩ := Session.refusal_isErr e
          exact ⟨payload, fun store => by simp only [hpayload]⟩

theorem on_some {r : Request} {c : Command} (h : r.command? = some c) (store : Store) :
    r.on store =
      match r.session.execute c store with
      | .ok answer => answer
      | .error e => (.goOn (Session.failure c.kind e), store) := by
  rw [command?] at h
  rw [on, Session.respond]
  split at h
  · cases h
  · next hshort =>
      rw [if_neg hshort, Session.dispatch]
      cases hparse : Command.parse r.line with
      | ok c' => rw [hparse] at h; cases h; rfl
      | error e => rw [hparse] at h; cases h

/-- A request is refused and the store stays as it is, or a command is carried out. -/
theorem on_cases (r : Request) (store : Store) :
    (∃ payload, r.on store = (.goOn (.err payload), store)) ∨
      ∃ c o next, r.command? = some c ∧ r.session.execute c store = .ok (o, next) ∧
        r.on store = (o, next) := by
  cases h : r.command? with
  | none =>
      obtain ⟨payload, hon⟩ := on_none h
      exact .inl ⟨payload, hon store⟩
  | some c =>
      rw [on_some h]
      cases hexec : r.session.execute c store with
      | error e => exact .inl ⟨_, by simp only [Session.failure_eq]; rfl⟩
      | ok answer => exact .inr ⟨c, answer.1, answer.2, rfl, hexec, rfl⟩

end Request

namespace Store

/-- The answers to some requests, one after the other. -/
def answers (store : Store) : List Request → List Outcome
  | [] => []
  | r :: rest => (r.on store).1 :: (r.on store).2.answers rest

/-- The store that some requests leave, one after the other. -/
def served (store : Store) (requests : List Request) : Store :=
  requests.foldl (fun store r => (r.on store).2) store

@[simp]
theorem served_nil (store : Store) : store.served [] = store := rfl

@[simp]
theorem served_cons (store : Store) (r : Request) (rest : List Request) :
    store.served (r :: rest) = (r.on store).2.served rest := rfl

/-- Every request has a property in the store that it finds. -/
def Throughout (P : Store → Request → Prop) (store : Store) : List Request → Prop
  | [] => True
  | r :: rest => P store r ∧ (r.on store).2.Throughout P rest

theorem throughout_append {P : Store → Request → Prop} {store : Store}
    {before behind : List Request} :
    store.Throughout P (before ++ behind) ↔
      store.Throughout P before ∧ (store.served before).Throughout P behind := by
  induction before generalizing store with
  | nil => exact ⟨fun h => ⟨trivial, h⟩, And.right⟩
  | cons r before ih => rw [List.cons_append, Throughout, Throughout, ih, served_cons, and_assoc]

end Store

/-! ## Requests about one entry -/

/-- The entry that a command names, to ask about it or to change it. -/
def Wire.Command.entry? : Command → Option EntryId
  | .change id _ | .delete id | .fetch id | .addString id _ | .getString id _
  | .deleteString id _ | .listStrings id | .countStrings id => some id
  | .quit | .help | .create _ | .search _ | .list | .clean => none

theorem Wire.Command.isReading_or_target? {c : Command} {id : EntryId} (h : c.entry? = some id) :
    c.isReading = true ∨ c.target? = some id := by
  cases c <;> cases h <;> simp [isReading, target?]

/-- What is kept under an id does not change while a store is only asked. -/
theorem map_asking {α : Type} (x : Except StoreError α) (say : α → Outcome) (store : Store)
    (id : EntryId) :
    (x >>= fun v => pure (say v, store)).map (fun r => (r.1, r.2.find? id)) =
      x.map fun v => (say v, store.find? id) := by
  cases x <;> rfl

/-- What comes of a command that names an entry, and what it leaves there, depends on nothing but
what was kept there. -/
theorem Session.execute_congr {s : Session} {c : Command} {id : EntryId} (hc : c.entry? = some id)
    {a b : Store} (h : a.find? id = b.find? id) :
    (s.execute c a).map (fun r => (r.1, r.2.find? id)) =
      (s.execute c b).map (fun r => (r.1, r.2.find? id)) := by
  have hget : a.get id = b.get id := by rw [Store.get, Store.get, h]
  cases c with
  | quit | help | create | search | list | clean => cases hc
  | change _ fields =>
      cases hc
      simp only [execute, Store.change_eq, hget]
      cases b.get id with
      | error e => rfl
      | ok stored =>
          by_cases hcomplete : (fields.applyTo stored.fields).IsComplete
          · simp [hcomplete, bind, Except.bind, pure, Except.pure, Except.map, Store.find?_put, h]
          · simp [hcomplete, bind, Except.bind, Except.map]
  | delete =>
      cases hc
      simp only [execute, Store.delete_eq, hget]
      cases b.get id with
      | error e => rfl
      | ok stored => simp [bind, Except.bind, pure, Except.pure, Except.map, Store.find?_without]
  | addString _ t =>
      cases hc
      simp only [execute, Store.addString_eq, hget]
      cases b.get id with
      | error e => rfl
      | ok stored => simp [bind, Except.bind, pure, Except.pure, Except.map, Store.find?_put, h]
  | deleteString _ pos =>
      cases hc
      simp only [execute, Store.deleteString_eq, hget]
      cases b.get id with
      | error e => rfl
      | ok stored =>
          by_cases hpos : pos = 0 ∨ stored.strings.length < pos.toNat
          · simp [hpos, bind, Except.bind, Except.map]
          · simp [hpos, bind, Except.bind, pure, Except.pure, Except.map, Store.find?_put, h]
  | fetch =>
      cases hc
      simp only [execute, Store.fetch_eq, hget, map_asking, h]
  | getString _ pos =>
      cases hc
      simp only [execute, Store.getString_eq, hget, map_asking, h]
  | listStrings =>
      cases hc
      simp only [execute, Store.listStrings_eq, hget, map_asking, h]
  | countStrings =>
      cases hc
      simp only [execute, Store.countStrings_eq, hget, map_asking, h]

/-! ## Requests about some entries -/

/-- The same is kept under these ids. -/
def Store.AgreeOn (ids : Set EntryId) (a b : Store) : Prop := ∀ id ∈ ids, a.find? id = b.find? id

namespace Request

/-- A request that is no command, or asks for help, or names one of these entries. -/
def IsConfined (ids : Set EntryId) (r : Request) : Prop :=
  ∀ c, r.command? = some c → c = .help ∨ ∃ id ∈ ids, c.entry? = some id

variable {ids : Set EntryId} {r : Request}

theorem isConfined_of_none (hr : r.command? = none) : r.IsConfined ids := fun _ hcommand =>
  nomatch hr.symm.trans hcommand

theorem isConfined_of_some {c : Command} (hr : r.command? = some c)
    (hc : c = .help ∨ ∃ id ∈ ids, c.entry? = some id) : r.IsConfined ids :=
  fun _ hcommand => Option.some.inj (hr.symm.trans hcommand) ▸ hc

/-- What is kept under other ids is left alone, and so is the counter of ids. -/
theorem on_frame (hr : r.IsConfined ids) (store : Store) :
    (r.on store).2.nextId = store.nextId ∧
      ∀ id ∉ ids, (r.on store).2.find? id = store.find? id := by
  have hsame : ∀ next, next = store →
      next.nextId = store.nextId ∧ ∀ id ∉ ids, next.find? id = store.find? id := by
    rintro next rfl
    exact ⟨rfl, fun _ _ => rfl⟩
  rcases r.on_cases store with ⟨payload, hon⟩ | ⟨c, o, next, hcommand, hexec, hon⟩
  · rw [hon]
    exact hsame store rfl
  · rw [hon]
    rcases hr c hcommand with rfl | ⟨id, hid, hentry⟩
    · exact hsame next (Session.execute_reading rfl hexec)
    · rcases Command.isReading_or_target? hentry with hreading | htarget
      · exact hsame next (Session.execute_reading hreading hexec)
      · obtain ⟨hnext, hother⟩ := Session.execute_target htarget hexec
        exact ⟨hnext, fun other hnot => hother other fun heq => hnot (heq ▸ hid)⟩

/-- Stores that agree on the entries of a request answer it alike, and still agree on them. -/
theorem on_agree (hr : r.IsConfined ids) {a b : Store} (h : a.AgreeOn ids b) :
    (r.on a).1 = (r.on b).1 ∧ (r.on a).2.AgreeOn ids (r.on b).2 := by
  cases hcommand : r.command? with
  | none =>
      obtain ⟨payload, hon⟩ := on_none hcommand
      rw [hon, hon]
      exact ⟨rfl, h⟩
  | some c =>
      rcases hr c hcommand with rfl | ⟨id, hid, hentry⟩
      · rw [on_some hcommand, on_some hcommand]
        exact ⟨rfl, h⟩
      · obtain ⟨hanswer, hself⟩ : (r.on a).1 = (r.on b).1 ∧
            (r.on a).2.find? id = (r.on b).2.find? id := by
          have hcongr := @Session.execute_congr r.session c id hentry a b (h id hid)
          rw [on_some hcommand, on_some hcommand]
          cases ha : r.session.execute c a with
          | error e =>
              cases hb : r.session.execute c b with
              | error e' =>
                  rw [ha, hb] at hcongr
                  cases hcongr
                  exact ⟨rfl, h id hid⟩
              | ok answer => rw [ha, hb] at hcongr; cases hcongr
          | ok answer =>
              cases hb : r.session.execute c b with
              | error e => rw [ha, hb] at hcongr; cases hcongr
              | ok answer' =>
                  rw [ha, hb] at hcongr
                  exact Prod.mk.inj (Except.ok.inj hcongr)
        have hone : r.IsConfined {id} := isConfined_of_some hcommand (.inr ⟨id, rfl, hentry⟩)
        refine ⟨hanswer, fun other hother => ?_⟩
        by_cases heq : other = id
        · rw [heq, hself]
        · rw [(on_frame hone a).2 other heq, (on_frame hone b).2 other heq, h other hother]

end Request

/-! ## Schedules -/

variable {ι : Type} {ids : ι → Set EntryId}

/-- What belongs to no party is left alone by all of them. -/
theorem served_frame {schedule : List (ι × Request)}
    (hconfined : ∀ turn ∈ schedule, turn.2.IsConfined (ids turn.1)) (store : Store) :
    (store.served (schedule.map Prod.snd)).nextId = store.nextId ∧
      ∀ id, (∀ i, id ∉ ids i) →
        (store.served (schedule.map Prod.snd)).find? id = store.find? id := by
  induction schedule generalizing store with
  | nil => exact ⟨rfl, fun _ _ => rfl⟩
  | cons turn schedule ih =>
      obtain ⟨j, r⟩ := turn
      obtain ⟨hr, hrest⟩ := List.forall_mem_cons.mp hconfined
      obtain ⟨hnext, hfind⟩ := Request.on_frame hr store
      obtain ⟨hnexts, hfinds⟩ := ih hrest (r.on store).2
      rw [List.map_cons, Store.served_cons]
      exact ⟨hnexts.trans hnext, fun id hid => (hfinds id hid).trans (hfind id (hid j))⟩

variable [DecidableEq ι]

/-- The requests of one party, in order. -/
def requestsOf (i : ι) (schedule : List (ι × Request)) : List Request :=
  (schedule.filter (·.1 = i)).map Prod.snd

/-- The answers to one party, in order. -/
def Store.answersTo (i : ι) (store : Store) : List (ι × Request) → List Outcome
  | [] => []
  | (j, r) :: rest =>
      if j = i then (r.on store).1 :: (r.on store).2.answersTo i rest
      else (r.on store).2.answersTo i rest

theorem mem_requestsOf {i : ι} {r : Request} {schedule : List (ι × Request)} :
    r ∈ requestsOf i schedule ↔ (i, r) ∈ schedule := by
  simp only [requestsOf, List.mem_map, List.mem_filter, decide_eq_true_eq, Prod.exists,
    exists_eq_right]

theorem requestsOf_cons_self (i : ι) (r : Request) (schedule : List (ι × Request)) :
    requestsOf i ((i, r) :: schedule) = r :: requestsOf i schedule := by
  rw [requestsOf, List.filter_cons_of_pos (by simp), List.map_cons]
  rfl

theorem requestsOf_cons_ne {i j : ι} (h : j ≠ i) (r : Request) (schedule : List (ι × Request)) :
    requestsOf i ((j, r) :: schedule) = requestsOf i schedule := by
  rw [requestsOf, List.filter_cons_of_neg (by simpa using h)]
  rfl

/-- A party is answered as if the others were not there, and leaves what it would leave then. -/
theorem answersTo_eq (hdisjoint : Pairwise fun i j => Disjoint (ids i) (ids j))
    {schedule : List (ι × Request)}
    (hconfined : ∀ turn ∈ schedule, turn.2.IsConfined (ids turn.1)) (i : ι)
    {store alone : Store} (h : store.AgreeOn (ids i) alone) :
    store.answersTo i schedule = alone.answers (requestsOf i schedule) ∧
      (store.served (schedule.map Prod.snd)).AgreeOn (ids i)
        (alone.served (requestsOf i schedule)) := by
  induction schedule generalizing store alone with
  | nil => exact ⟨rfl, h⟩
  | cons turn schedule ih =>
      obtain ⟨j, r⟩ := turn
      obtain ⟨hr, hrest⟩ := List.forall_mem_cons.mp hconfined
      rw [Store.answersTo, List.map_cons, Store.served_cons]
      by_cases hji : j = i
      · subst hji
        obtain ⟨hanswer, hagree⟩ := Request.on_agree hr h
        obtain ⟨hanswers, hserved⟩ := ih hrest hagree
        rw [if_pos rfl, requestsOf_cons_self, Store.answers, Store.served_cons, hanswer, hanswers]
        exact ⟨rfl, hserved⟩
      · rw [if_neg hji, requestsOf_cons_ne hji]
        refine ih hrest fun id hid => ?_
        have hnot : id ∉ ids j := fun hj => Set.disjoint_left.mp (hdisjoint hji) hj hid
        rw [(Request.on_frame hr store).2 id hnot, h id hid]

/-- Parties that keep to entries of their own do not disturb each other. Whatever the order in which
their requests are answered, each of them gets the answers that it would get alone, and the same
store is left in the end. -/
theorem answersTo_disjoint (hdisjoint : Pairwise fun i j => Disjoint (ids i) (ids j))
    {schedule : List (ι × Request)}
    (hconfined : ∀ turn ∈ schedule, turn.2.IsConfined (ids turn.1)) (store : Store) :
    (∀ i, store.answersTo i schedule = store.answers (requestsOf i schedule)) ∧
      ∀ other : List (ι × Request), (∀ i, requestsOf i other = requestsOf i schedule) →
        store.served (other.map Prod.snd) = store.served (schedule.map Prod.snd) := by
  have hself : ∀ i, store.AgreeOn (ids i) store := fun i id _ => rfl
  refine ⟨fun i => (answersTo_eq hdisjoint hconfined i (hself i)).1, fun other hother => ?_⟩
  have hconfined' : ∀ turn ∈ other, turn.2.IsConfined (ids turn.1) := fun turn hturn =>
    hconfined turn (mem_requestsOf.mp (hother turn.1 ▸ mem_requestsOf.mpr hturn))
  obtain ⟨hnext, hframe⟩ := served_frame hconfined store
  obtain ⟨hnext', hframe'⟩ := served_frame hconfined' store
  refine Store.ext_find? (fun id => ?_) (hnext'.trans hnext.symm)
  by_cases howned : ∃ i, id ∈ ids i
  · obtain ⟨i, hid⟩ := howned
    have h := (answersTo_eq hdisjoint hconfined i (hself i)).2 id hid
    have h' := (answersTo_eq hdisjoint hconfined' i (hself i)).2 id hid
    rw [h, h', hother i]
  · have hnone := not_exists.mp howned
    rw [hframe id hnone, hframe' id hnone]

/-- Of two entries one is removed while a text is attached to the other and shown. The one party
asks for help and for what is no longer there, the other says something that nobody understands. -/
theorem answersTo_disjoint_removed :
    let e : EntryFields :=
      { app := "a", site := "b", mach := "c", node := "d", port := 1, pid := 2, comp := "e",
        tag := "f" }
    let store : Store := ⟨[(1, ⟨e, []⟩), (2, ⟨e, []⟩)], 3, by simp [IdOrdered]⟩
    let s : Session := ⟨"here", 7, 20⟩
    let ids : Bool → Set EntryId := fun i => if i then {1} else {2}
    let schedule : List (Bool × Request) :=
      [(true, ⟨s, "HELP"⟩), (false, ⟨s, "ADDSTR 2 x"⟩), (true, ⟨s, "delete 1"⟩),
        (false, ⟨s, "ADDSTR"⟩), (true, ⟨s, "SHOW 1"⟩), (false, ⟨s, "GETSTR 2 1"⟩)]
    let other : List (Bool × Request) :=
      [(false, ⟨s, "ADDSTR 2 x"⟩), (false, ⟨s, "ADDSTR"⟩), (false, ⟨s, "GETSTR 2 1"⟩),
        (true, ⟨s, "HELP"⟩), (true, ⟨s, "delete 1"⟩), (true, ⟨s, "SHOW 1"⟩)]
    (∀ turn ∈ schedule, turn.2.IsConfined (ids turn.1)) ∧
      store.answersTo false schedule =
        store.answers [⟨s, "ADDSTR 2 x"⟩, ⟨s, "ADDSTR"⟩, ⟨s, "GETSTR 2 1"⟩] ∧
      store.served (other.map Prod.snd) = store.served (schedule.map Prod.snd) := by
  intro e store s ids schedule other
  have hdisjoint : Pairwise fun i j => Disjoint (ids i) (ids j) := by
    intro i j hij
    cases i <;> cases j <;> simp [ids] at hij ⊢
  have hconfined : ∀ turn ∈ schedule, turn.2.IsConfined (ids turn.1) := by
    have hhelp : (⟨s, "HELP"⟩ : Request).command? = some .help := by decide +kernel
    have hdelete : (⟨s, "delete 1"⟩ : Request).command? = some (.delete 1) := by decide +kernel
    have hshow : (⟨s, "SHOW 1"⟩ : Request).command? = some (.fetch 1) := by decide +kernel
    have hadd : (⟨s, "ADDSTR 2 x"⟩ : Request).command? = some (.addString 2 "x") := by
      decide +kernel
    have hget : (⟨s, "GETSTR 2 1"⟩ : Request).command? = some (.getString 2 1) := by
      decide +kernel
    have hnone : (⟨s, "ADDSTR"⟩ : Request).command? = none := by decide +kernel
    simp only [schedule, List.forall_mem_cons]
    exact ⟨Request.isConfined_of_some hhelp (.inl rfl),
      Request.isConfined_of_some hadd (.inr ⟨2, rfl, rfl⟩),
      Request.isConfined_of_some hdelete (.inr ⟨1, rfl, rfl⟩), Request.isConfined_of_none hnone,
      Request.isConfined_of_some hshow (.inr ⟨1, rfl, rfl⟩),
      Request.isConfined_of_some hget (.inr ⟨2, rfl, rfl⟩), nofun⟩
  obtain ⟨hanswers, hserved⟩ := answersTo_disjoint hdisjoint hconfined store
  refine ⟨hconfined, hanswers false, hserved other fun i => ?_⟩
  cases i <;> rfl

end ToolRegistry
