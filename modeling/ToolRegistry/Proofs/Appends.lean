import ToolRegistry.Proofs.Lifetimes
import ToolRegistry.Proofs.Schedules

/-!
# Texts attached at the same time

Any number of sessions may attach texts to one entry. The order in which the
server gets to them is the order of the texts, and the position that it answers
is the place at which the text stands in the end. The condition is that nobody
removes a text, or the entry, or is given its id for another entry.

Then a request does one of two things to the texts of the entry
(`Request.find?_on_spares`): it puts a text behind them, or it leaves them alone.
So the texts after any part of the schedule are the old ones and those that have
been attached in it, and what has a position keeps it. The answers follow from
that: the position of a text is how many there were before it, and one more.
-/

namespace ToolRegistry

open Wire

/-! ## What a request makes of an entry -/

theorem Session.after_of_execute_error {s : Session} {c : Command} {store : Store} {e : StoreError}
    (h : s.execute c store = .error e) : store.after c.action?.toList = store := by
  cases c with
  | quit | help | search | list | clean => cases h
  | create | change | delete | addString | deleteString | fetch | getString | listStrings
  | countStrings =>
      rcases Except.bind_eq_error.mp h with hop | ⟨_, -, h⟩
      · simp only [Command.action?, Option.toList_some, Store.after_cons, Store.after_nil,
          Store.act, Store.perform, hop, Except.map]
      · cases h

/-- The command that asks for an operation. -/
def Store.Action.command : Store.Action → Command
  | .create fields => .create fields
  | .change id fields => .change id fields
  | .delete id => .delete id
  | .fetch id => .fetch id
  | .search predicate => .search predicate
  | .list => .list
  | .clear => .clean
  | .addString id t => .addString id t
  | .getString id pos => .getString id pos
  | .deleteString id pos => .deleteString id pos
  | .listStrings id => .listStrings id
  | .countStrings id => .countStrings id

theorem Wire.Command.action?_eq_some {c : Command} {a : Store.Action} :
    c.action? = some a ↔ c = a.command := by
  constructor
  · intro h
    cases c <;> cases h <;> rfl
  · rintro rfl
    cases a <;> rfl

namespace Request

/-- The operation that a request asks for. -/
def action? (r : Request) : Option Store.Action := r.command?.bind Command.action?

/-- What a request leaves is what its operation leaves. -/
theorem on_store (r : Request) (store : Store) :
    (r.on store).2 = store.after r.action?.toList := by
  rw [action?]
  cases hcommand : r.command? with
  | none =>
      obtain ⟨payload, hon⟩ := on_none hcommand
      rw [hon]
      rfl
  | some c =>
      rw [on_some hcommand, Option.bind_some]
      cases hexec : r.session.execute c store with
      | ok answer => exact Session.execute_after hexec
      | error e => exact (Session.after_of_execute_error hexec).symm

theorem find?_on_none {r : Request} (h : r.action? = none) (store : Store) (id : EntryId) :
    (r.on store).2.find? id = store.find? id := by
  rw [on_store, h]
  rfl

theorem find?_on_some {r : Request} {a : Store.Action} (h : r.action? = some a) (store : Store)
    (id : EntryId) :
    (r.on store).2.find? id = Store.Deed.on id (store.find? id) ⟨a, store.answer a⟩ := by
  rw [on_store, h]
  exact Store.find?_act store a id

theorem action?_eq_some {r : Request} {a : Store.Action} :
    r.action? = some a ↔ r.command? = some a.command := by
  rw [action?, Option.bind_eq_some_iff]
  constructor
  · rintro ⟨c, hcommand, hc⟩
    rw [hcommand, Command.action?_eq_some.mp hc]
  · exact fun hcommand => ⟨a.command, hcommand, Command.action?_eq_some.mpr rfl⟩

/-- An entry that is created is answered with its id. -/
theorem reply_create {r : Request} {fields given : FieldSet} {store : Store} {id : EntryId}
    (h : r.command? = some (.create fields))
    (hdeed : Store.Deed.creation? id ⟨.create fields, store.answer (.create fields)⟩ = some given) :
    (r.on store).1.reply = Session.success Payload.created [Session.idText id] := by
  have hanswer := congrArg Store.Deed.result (Store.Deed.creation?_eq_some.mp hdeed)
  obtain ⟨⟨v, next⟩, hperform, hv⟩ := Except.map_eq_ok.mp hanswer
  obtain ⟨⟨id', next'⟩, hcreate, heq⟩ := Except.map_eq_ok.mp hperform
  cases heq
  cases hv
  rw [on_some h, Session.execute, hcreate]
  rfl

/-! ## Requests that spare an entry -/

/-- The text that a request attaches to an entry. -/
def post? (id : EntryId) (r : Request) : Option Text :=
  match r.command? with
  | some (.addString other t) => if other = id then some t else none
  | _ => none

theorem post?_eq_some {id : EntryId} {r : Request} {t : Text} :
    r.post? id = some t ↔ r.command? = some (.addString id t) := by
  rw [post?]
  split
  · next other u h => rw [h]; simp
  · next h =>
      exact ⟨nofun, fun hcommand => absurd hcommand (h id t)⟩

/-- A request that is not given an id for a new entry. -/
def GivesNot (id : EntryId) (store : Store) (r : Request) : Prop :=
  ∀ fields, r.command? = some (.create fields) →
    (r.on store).1.reply ≠ Session.success Payload.created [Session.idText id]

/-- A request that removes neither an entry nor any of its texts, and is not given the id of the
entry for another one. -/
structure Spares (id : EntryId) (store : Store) (r : Request) : Prop where
  keepsEntry : r.command? ≠ some (.delete id)
  keepsTexts : ∀ pos, r.command? ≠ some (.deleteString id pos)
  keepsAll : r.command? ≠ some .clean
  keepsId : r.GivesNot id store

variable {id : EntryId} {store : Store} {r : Request} {stored : Stored} {t : Text}

theorem GivesNot.creation?_eq_none {a : Store.Action} (hr : r.GivesNot id store)
    (ha : r.action? = some a) : Store.Deed.creation? id ⟨a, store.answer a⟩ = none := by
  refine Option.eq_none_iff_forall_ne_some.mpr fun fields hfields => ?_
  cases congrArg Store.Deed.action (Store.Deed.creation?_eq_some.mp hfields)
  have hcommand := action?_eq_some.mp ha
  exact hr fields hcommand (reply_create hcommand hfields)

theorem Spares.removes_eq_false {a : Store.Action} (hr : r.Spares id store)
    (ha : r.action? = some a) : Store.Deed.removes id ⟨a, store.answer a⟩ = false := by
  refine Bool.eq_false_iff.mpr fun hremoves => ?_
  rcases Store.Deed.removes_eq_true.mp hremoves with h | h
  · cases h
    exact hr.keepsEntry (action?_eq_some.mp ha)
  · cases h
    exact hr.keepsAll (action?_eq_some.mp ha)

/-- The only texts of the entry that change are those that are attached. -/
theorem Spares.edit?_eq_none {a : Store.Action} (hr : r.Spares id store)
    (ha : r.action? = some a) (hpost : r.post? id = none) :
    Store.Deed.edit? id ⟨a, store.answer a⟩ = none := by
  refine Option.eq_none_iff_forall_ne_some.mpr fun e he => ?_
  rcases Store.Deed.action_of_edit? he with ⟨t, h, -⟩ | ⟨pos, h, -⟩
  · cases h
    rw [post?_eq_some.mpr (action?_eq_some.mp ha)] at hpost
    cases hpost
  · cases h
    exact hr.keepsTexts pos (action?_eq_some.mp ha)

/-- A request that only asks spares every entry, and so does one that attaches a text. -/
theorem spares_of_some {c : Command} (h : r.command? = some c)
    (hc : c.isReading = true ∨ ∃ other t, c = .addString other t) : r.Spares id store := by
  have hne : ∀ c' : Command, c'.isReading = false → (∀ other t, c' ≠ .addString other t) →
      r.command? ≠ some c' := by
    rintro c' hasking hadd heq
    cases h.symm.trans heq
    rcases hc with hc | ⟨other, t, rfl⟩
    · rw [hasking] at hc
      cases hc
    · exact hadd other t rfl
  exact ⟨hne _ rfl nofun, fun _ => hne _ rfl nofun, hne _ rfl nofun,
    fun fields heq => absurd heq (hne (.create fields) rfl nofun)⟩

/-- A text is attached behind those that are there, and the answer is its position. -/
theorem on_post (hpost : r.post? id = some t) (hfind : store.find? id = some stored) :
    r.on store =
      (.goOn (Session.success Payload.stringAdded [Session.natText (stored.strings.length + 1)]),
        store.put id { stored with strings := stored.strings ++ [t] }) := by
  have hadd : store.addString id t = .ok (stored.strings.length + 1,
      store.put id { stored with strings := stored.strings ++ [t] }) := by
    rw [Store.addString_eq, Store.get_eq_ok_iff.mpr hfind]
  rw [on_some (post?_eq_some.mp hpost), Session.execute, hadd]
  rfl

/-- A request that spares an entry puts a text behind those of the entry, or leaves them alone. -/
theorem find?_on_spares (hr : r.Spares id store) (hfind : store.find? id = some stored) :
    ∃ fields, (r.on store).2.find? id =
      some ⟨fields, stored.strings ++ (r.post? id).toList⟩ := by
  cases hpost : r.post? id with
  | some t =>
      refine ⟨stored.fields, ?_⟩
      rw [on_post hpost hfind, Store.find?_put_of_some hfind, if_pos rfl]
      rfl
  | none =>
      rw [Option.toList_none, List.append_nil]
      cases haction : r.action? with
      | none => exact ⟨stored.fields, by rw [find?_on_none haction, hfind]⟩
      | some a =>
          rw [find?_on_some haction, hfind,
            Store.Deed.on_some (hr.keepsId.creation?_eq_none haction) (hr.removes_eq_false haction),
            hr.edit?_eq_none haction hpost]
          exact ⟨_, rfl⟩

/-- A text is shown to whoever asks for its position. -/
theorem on_getString {pos : UInt64} (hget : r.command? = some (.getString id pos))
    (hfind : store.find? id = some stored) (hpos : pos ≠ 0)
    (ht : stored.strings[pos.toNat - 1]? = some t) :
    (r.on store).1 = .goOn ((Session.success Payload.stringFetched [Session.posText pos,
      Session.idText id, Session.natText (Utf8.encode t).length]).withLine t) := by
  have hok : store.getString id pos = .ok t := by
    rw [Store.getString_eq, Store.get_eq_ok_iff.mpr hfind]
    simp only [if_neg hpos, ht]
  rw [on_some hget, Session.execute, hok]
  rfl

end Request

/-! ## Schedules that spare an entry -/

variable {ι : Type}

/-- The texts that a schedule attaches to an entry, in order, each with the party that it is from. -/
def posts (id : EntryId) (schedule : List (ι × Request)) : List (ι × Text) :=
  schedule.filterMap fun turn => (turn.2.post? id).map (turn.1, ·)

theorem posts_cons (id : EntryId) (i : ι) (r : Request) (schedule : List (ι × Request)) :
    posts id ((i, r) :: schedule) = ((r.post? id).map (i, ·)).toList ++ posts id schedule := by
  rw [posts, List.filterMap_cons]
  cases r.post? id <;> rfl

theorem posts_append (id : EntryId) (before behind : List (ι × Request)) :
    posts id (before ++ behind) = posts id before ++ posts id behind := List.filterMap_append

/-- The texts of a party stand in the order in which it attaches them. -/
theorem posts_filter [DecidableEq ι] (id : EntryId) (schedule : List (ι × Request)) (i : ι) :
    ((posts id schedule).filter (·.1 = i)).map Prod.snd =
      (requestsOf i schedule).filterMap (·.post? id) := by
  induction schedule with
  | nil => rfl
  | cons turn schedule ih =>
      obtain ⟨j, r⟩ := turn
      rw [posts_cons, List.filter_append, List.map_append, ih]
      by_cases hji : j = i
      · subst hji
        rw [requestsOf_cons_self, List.filterMap_cons]
        cases r.post? id <;> simp
      · rw [requestsOf_cons_ne hji]
        cases r.post? id <;> simp [hji]

section

variable {id : EntryId} {store : Store} {stored : Stored} {schedule : List (ι × Request)}

/-- The texts in the end are those from before and those that were attached. -/
theorem find?_served (hfind : store.find? id = some stored)
    (hspared : store.Throughout (Request.Spares id) (schedule.map Prod.snd)) :
    ∃ fields, (store.served (schedule.map Prod.snd)).find? id =
      some ⟨fields, stored.strings ++ (posts id schedule).map Prod.snd⟩ := by
  induction schedule generalizing store stored with
  | nil => exact ⟨stored.fields, by simpa [posts] using hfind⟩
  | cons turn schedule ih =>
      obtain ⟨i, r⟩ := turn
      obtain ⟨hr, hrest⟩ := hspared
      obtain ⟨fields, hnext⟩ := Request.find?_on_spares hr hfind
      obtain ⟨last, hlast⟩ := ih hnext hrest
      refine ⟨last, ?_⟩
      rw [List.map_cons, Store.served_cons, hlast, posts_cons]
      cases r.post? id <;> simp

/-- A text stands at the place that those before it have left it. -/
theorem getElem?_posts {before behind : List (ι × Request)} {i : ι} {r : Request} {t : Text}
    (strings : List Text) (hpost : r.post? id = some t) :
    (strings ++ (posts id (before ++ (i, r) :: behind)).map Prod.snd)[
      strings.length + (posts id before).length]? = some t := by
  rw [posts_append, posts_cons, hpost]
  simp

/-- Texts that are attached to one entry at the same time are neither lost nor doubled. Each gets
the next position, whoever attaches it, and is found there from then on. In the end there are the
texts from before and the new ones, those of one party in its own order. -/
theorem attached_in_turn [DecidableEq ι] (hfind : store.find? id = some stored)
    (hspared : store.Throughout (Request.Spares id) (schedule.map Prod.snd)) :
    ∃ last, (store.served (schedule.map Prod.snd)).find? id = some last ∧
      last.strings = stored.strings ++ (posts id schedule).map Prod.snd ∧
      (∀ i, ((posts id schedule).filter (·.1 = i)).map Prod.snd =
        (requestsOf i schedule).filterMap (·.post? id)) ∧
      ∀ before i r t behind, schedule = before ++ (i, r) :: behind → r.post? id = some t →
        let pos := stored.strings.length + (posts id before).length + 1
        (r.on (store.served (before.map Prod.snd))).1 =
          .goOn (Session.success Payload.stringAdded [Session.natText pos]) ∧
        last.strings[pos - 1]? = some t ∧
        ∀ between j asking later asked, behind = between ++ (j, asking) :: later →
          asking.command? = some (.getString id asked) → asked.toNat = pos →
          (asking.on (store.served ((before ++ (i, r) :: between).map Prod.snd))).1 =
            .goOn ((Session.success Payload.stringFetched [Session.posText asked,
              Session.idText id, Session.natText (Utf8.encode t).length]).withLine t) := by
  obtain ⟨fields, hlast⟩ := find?_served hfind hspared
  refine ⟨_, hlast, rfl, posts_filter id schedule, ?_⟩
  rintro before i r t behind rfl hpost pos
  have hprefix : ∀ front rest, before ++ (i, r) :: behind = front ++ rest →
      ∃ fields, (store.served (front.map Prod.snd)).find? id =
        some ⟨fields, stored.strings ++ (posts id front).map Prod.snd⟩ := by
    intro front rest heq
    rw [heq, List.map_append] at hspared
    exact find?_served hfind (Store.throughout_append.mp hspared).1
  obtain ⟨fields', hbefore⟩ := hprefix before _ rfl
  refine ⟨?_, getElem?_posts stored.strings hpost, ?_⟩
  · rw [Request.on_post hpost hbefore, List.length_append, List.length_map]
  · rintro between j asking later asked rfl hasking hasked
    have hsplit : before ++ (i, r) :: (between ++ (j, asking) :: later) =
        (before ++ (i, r) :: between) ++ (j, asking) :: later := by
      rw [List.append_assoc, List.cons_append]
    obtain ⟨fields'', hbetween⟩ := hprefix _ _ hsplit
    have hzero : asked ≠ 0 := by
      rintro rfl
      exact absurd hasked (Nat.succ_ne_zero _).symm
    refine Request.on_getString hasking hbetween hzero ?_
    rw [hasked]
    exact getElem?_posts stored.strings hpost

end

/-- Two parties attach texts to an entry that has one. The last text is the fourth, and the third
is still there to be shown when another has come behind it. -/
theorem attached_in_turn_both :
    let e : EntryFields :=
      { app := "a", site := "b", mach := "c", node := "d", port := 1, pid := 2, comp := "e",
        tag := "f" }
    let store : Store := ⟨[(1, ⟨e, ["old"]⟩)], 2, by simp [IdOrdered]⟩
    let s : Session := ⟨"here", 7, 20⟩
    let before : List (Bool × Request) := [(true, ⟨s, "ADDSTR 1 x"⟩), (false, ⟨s, "LISTSTR 1"⟩)]
    let between : List (Bool × Request) := [(true, ⟨s, "ADDSTR 1 z"⟩)]
    let schedule := before ++ (false, ⟨s, "addstr 1 y"⟩) :: (between ++ [(true, ⟨s, "GETSTR 1 3"⟩)])
    store.find? 1 = some ⟨e, ["old"]⟩ ∧ store.Throughout (Request.Spares 1) (schedule.map Prod.snd) ∧
      ∃ last, (store.served (schedule.map Prod.snd)).find? 1 = some last ∧
        last.strings = ["old".toList, "x".toList, "y".toList, "z".toList] ∧
        last.strings[3 - 1]? = some "y".toList := by
  intro e store s before between schedule
  have hfind : store.find? 1 = some ⟨e, ["old"]⟩ := rfl
  have hx : (⟨s, "ADDSTR 1 x"⟩ : Request).command? = some (.addString 1 "x") := by decide +kernel
  have hy : (⟨s, "addstr 1 y"⟩ : Request).command? = some (.addString 1 "y") := by decide +kernel
  have hz : (⟨s, "ADDSTR 1 z"⟩ : Request).command? = some (.addString 1 "z") := by decide +kernel
  have hlist : (⟨s, "LISTSTR 1"⟩ : Request).command? = some (.listStrings 1) := by decide +kernel
  have hget : (⟨s, "GETSTR 1 3"⟩ : Request).command? = some (.getString 1 3) := by decide +kernel
  have hspared : store.Throughout (Request.Spares 1) (schedule.map Prod.snd) :=
    ⟨Request.spares_of_some hx (.inr ⟨_, _, rfl⟩), Request.spares_of_some hlist (.inl rfl),
      Request.spares_of_some hy (.inr ⟨_, _, rfl⟩), Request.spares_of_some hz (.inr ⟨_, _, rfl⟩),
      Request.spares_of_some hget (.inl rfl), trivial⟩
  obtain ⟨last, hlast, hstrings, -, hposts⟩ := attached_in_turn hfind hspared
  obtain ⟨-, hplace, -⟩ :=
    hposts before false _ "y" _ rfl (Request.post?_eq_some.mpr hy)
  have hposted : posts 1 schedule =
      [(true, "x".toList), (false, "y".toList), (true, "z".toList)] := by decide +kernel
  rw [hposted] at hstrings
  exact ⟨hfind, hspared, last, hlast, hstrings, hplace⟩

end ToolRegistry
