import ToolRegistry.Proofs.Appends
import ToolRegistry.Proofs.SharedPeer

/-!
# Texts fetched while others are at work

A service fetches the texts of an entry one by one. Each of them is what was at
its position when it was asked for, and in between others may have changed the
entry. If they take a text away, the later ones move down, and one of them is
passed over. So what the service gets may be a list that the entry never had.

It is no arbitrary list, though. The texts that are still to be asked for, those
behind a position, are only ever removed or followed by new ones
(`Request.find?_of_on`), and the position itself moves forward. So the service
gets some of the texts that were there when it asked for their number and some
that have been attached since, all of them in their order and none of them
twice. And if nobody takes one of the texts that were counted away, the texts in
front of that number stay what they are, and it gets exactly these.

An id may come round. Then the entry is another one with texts of its own, and
none of this holds.
-/

namespace ToolRegistry

open Wire

/-! ## What happens to the texts of an entry -/

namespace Request

variable {id : EntryId} {store : Store} {r : Request}

/-- As long as its id is not given to another one, an entry that is there was there before, and a
request has left its texts alone, attached one or removed one. -/
theorem find?_of_on (hr : r.GivesNot id store) {stored : Stored}
    (h : (r.on store).2.find? id = some stored) :
    ∃ old, store.find? id = some old ∧
      (stored.strings = old.strings ∨
        (∃ t, r.post? id = some t ∧ stored.strings = old.strings ++ [t]) ∨
        ∃ pos, r.command? = some (.deleteString id pos) ∧
          stored.strings = old.strings.eraseIdx (pos.toNat - 1)) := by
  cases haction : r.action? with
  | none =>
      rw [find?_on_none haction] at h
      exact ⟨stored, h, .inl rfl⟩
  | some a =>
      rw [find?_on_some haction, Store.Deed.on] at h
      split at h
      · cases h
      · rw [hr.creation?_eq_none haction] at h
        obtain ⟨old, hold, rfl⟩ := Option.map_eq_some_iff.mp h
        refine ⟨old, hold, ?_⟩
        cases hedit : Store.Deed.edit? id ⟨a, store.answer a⟩ with
        | none => exact .inl rfl
        | some e =>
            rcases Store.Deed.action_of_edit? hedit with ⟨t, hadd, rfl⟩ | ⟨pos, hremove, rfl⟩
            · cases hadd
              exact .inr (.inl ⟨t, post?_eq_some.mpr (action?_eq_some.mp haction), rfl⟩)
            · cases hremove
              exact .inr (.inr ⟨pos, action?_eq_some.mp haction, rfl⟩)

/-- A request that does not remove one of the first `n` texts of an entry. -/
def KeepsFirst (id : EntryId) (n : Nat) (r : Request) : Prop :=
  ∀ pos, r.command? = some (.deleteString id pos) → n < pos.toNat

end Request

namespace Store

variable {id : EntryId} {store : Store} {requests : List Request} {stored : Stored}

/-- Behind a position, texts are removed and new ones come at the end. -/
theorem drop_served (hnew : store.Throughout (Request.GivesNot id) requests)
    (h : (store.served requests).find? id = some stored) (n : Nat) :
    ∃ old, store.find? id = some old ∧
      (stored.strings.drop n).Sublist
        (old.strings.drop n ++ requests.filterMap (·.post? id)) := by
  induction requests generalizing store with
  | nil => exact ⟨stored, h, by simp⟩
  | cons r requests ih =>
      obtain ⟨hr, hrest⟩ := hnew
      obtain ⟨mid, hmid, hlater⟩ := ih hrest h
      obtain ⟨old, hold, hstep⟩ := Request.find?_of_on hr hmid
      refine ⟨old, hold, ?_⟩
      have hfirst : (mid.strings.drop n).Sublist (old.strings.drop n ++ (r.post? id).toList) := by
        rcases hstep with heq | ⟨t, hpost, heq⟩ | ⟨pos, -, heq⟩
        · rw [heq]
          exact List.sublist_append_left _ _
        · rw [heq, hpost, List.drop_append]
          exact (List.drop_sublist _ _).append_left _
        · rw [heq]
          exact ((List.eraseIdx_sublist _ _).drop n).trans (List.sublist_append_left _ _)
      have hposts : (r :: requests).filterMap (·.post? id) =
          (r.post? id).toList ++ requests.filterMap (·.post? id) := by
        rw [List.filterMap_cons]
        cases r.post? id <;> rfl
      rw [hposts, ← List.append_assoc]
      exact hlater.trans (hfirst.append_right _)

/-- In front of a position nothing changes if nothing is removed there. -/
theorem take_served {n : Nat} (hnew : store.Throughout (Request.GivesNot id) requests)
    (hkeeps : ∀ r ∈ requests, r.KeepsFirst id n)
    (h : (store.served requests).find? id = some stored) :
    ∃ old, store.find? id = some old ∧
      (n ≤ old.strings.length → stored.strings.take n = old.strings.take n) := by
  induction requests generalizing store with
  | nil => exact ⟨stored, h, fun _ => rfl⟩
  | cons r requests ih =>
      obtain ⟨hr, hrest⟩ := hnew
      obtain ⟨hkeep, hkeepRest⟩ := List.forall_mem_cons.mp hkeeps
      obtain ⟨mid, hmid, hlater⟩ := ih hrest hkeepRest h
      obtain ⟨old, hold, hstep⟩ := Request.find?_of_on hr hmid
      refine ⟨old, hold, fun hn => ?_⟩
      have hfirst : mid.strings.take n = old.strings.take n := by
        rcases hstep with heq | ⟨t, -, heq⟩ | ⟨pos, hcommand, heq⟩
        · rw [heq]
        · rw [heq, List.take_append_of_le_length hn]
        · have hpos := hkeep pos hcommand
          rw [heq, List.take_eraseIdx_eq_take_of_le _ _ _ (by omega)]
      have hlength := congrArg List.length hfirst
      rw [List.length_take, List.length_take] at hlength
      rw [hlater (by omega), hfirst]

end Store

/-! ## What a service gets -/

/-- The requests of others that are answered before `n` lines from the line `k` on. -/
def requestsBetween (others : Nat → List Request) (k n : Nat) : List Request :=
  (List.range' k n).flatMap others

theorem requestsBetween_succ (others : Nat → List Request) (k n : Nat) :
    requestsBetween others k (n + 1) = others k ++ requestsBetween others (k + 1) n := rfl

/-- The texts are those that an entry shows from a position on, one with each of the lines from `k`
on. -/
def ShownFrom (others : Nat → List Request) (store : Store) (id : EntryId) (k pos : Nat)
    (texts : List Text) : Prop :=
  ∀ j t, texts[j]? = some t → ∃ stored,
    (store.amid others (k + 1 + j)).find? id = some stored ∧ stored.strings[pos + j]? = some t

section

variable {others : Nat → List Request} {store : Store} {id : EntryId} {texts : List Text}
  {stored : Stored} {k pos : Nat}

theorem ShownFrom.tail {t : Text} (h : ShownFrom others store id k pos (t :: texts)) :
    ShownFrom others store id (k + 1) (pos + 1) texts := by
  intro j u hu
  obtain ⟨stored, hfind, hfound⟩ := h (j + 1) u hu
  refine ⟨stored, ?_, ?_⟩
  · rwa [Nat.add_right_comm k 1 1, Nat.add_assoc (k + 1), Nat.add_comm 1 j]
  · rwa [Nat.add_assoc, Nat.add_comm 1 j]

/-- Texts that are shown from a position on, one with each line, are those behind the position and
those that are attached in the meantime, in their order and without repetition. -/
theorem sublist_of_shown (hshown : ShownFrom others store id k pos texts)
    (hnew : (store.amid others k).Throughout (Request.GivesNot id)
      (requestsBetween others k texts.length))
    (hfind : (store.amid others k).find? id = some stored) :
    texts.Sublist (stored.strings.drop pos ++
      (requestsBetween others k texts.length).filterMap (·.post? id)) := by
  induction texts generalizing k pos stored with
  | nil => exact List.nil_sublist _
  | cons t texts ih =>
      rw [List.length_cons, requestsBetween_succ] at hnew ⊢
      obtain ⟨hfirst, hrest⟩ := Store.throughout_append.mp hnew
      obtain ⟨next, hnext, ht⟩ := hshown 0 t rfl
      obtain ⟨old, hold, hdrop⟩ := Store.drop_served hfirst hnext pos
      cases hfind.symm.trans hold
      have hbehind : next.strings.drop pos = t :: next.strings.drop (pos + 1) := by
        rw [List.drop_eq_getElem?_toList_append, ← Nat.add_zero pos, ht]
        rfl
      have htexts := ih hshown.tail hrest hnext
      rw [List.filterMap_append, ← List.append_assoc]
      refine List.Sublist.trans ?_ (hdrop.append_right _)
      rw [hbehind, List.cons_append]
      exact htexts.cons_cons t

/-- Texts that are shown from a position on are those that were there, if none of them has been
removed in the meantime. -/
theorem getElem?_of_shown {n : Nat} (hn : pos + texts.length ≤ n)
    (hshown : ShownFrom others store id k pos texts)
    (hnew : (store.amid others k).Throughout (Request.GivesNot id)
      (requestsBetween others k texts.length))
    (hkeeps : ∀ r ∈ requestsBetween others k texts.length, r.KeepsFirst id n)
    (hfind : (store.amid others k).find? id = some stored) (hlength : n ≤ stored.strings.length) :
    ∀ j t, texts[j]? = some t → stored.strings[pos + j]? = some t := by
  induction texts generalizing k pos stored with
  | nil => exact nofun
  | cons t texts ih =>
      rw [List.length_cons, requestsBetween_succ] at hnew hkeeps
      obtain ⟨hfirst, hrest⟩ := Store.throughout_append.mp hnew
      obtain ⟨hkeepFirst, hkeepRest⟩ := List.forall_mem_append.mp hkeeps
      obtain ⟨next, hnext, ht⟩ := hshown 0 t rfl
      obtain ⟨old, hold, htake⟩ := Store.take_served hfirst hkeepFirst hnext
      cases hfind.symm.trans hold
      have hsame : ∀ i < n, next.strings[i]? = stored.strings[i]? := by
        intro i hi
        rw [← List.getElem?_take_of_lt hi, htake hlength, List.getElem?_take_of_lt hi]
      have hnextLength : n ≤ next.strings.length := by
        have h := congrArg List.length (htake hlength)
        rw [List.length_take, List.length_take] at h
        omega
      rw [List.length_cons] at hn
      intro j u hu
      cases j with
      | zero =>
          cases hu
          rw [← hsame _ (by omega)]
          exact ht
      | succ j =>
          have hu : texts[j]? = some u := hu
          have hj : j < texts.length := (List.getElem?_eq_some_iff.mp hu).1
          have h := ih (by omega) hshown.tail hrest hkeepRest hnext hnextLength j u hu
          rwa [hsame _ (by omega), Nat.add_assoc, Nat.add_comm 1 j] at h

/-- How far the texts that a service has fetched are the texts of the entry. It has asked for their
number with the line `k`. -/
structure IsFaithful (others : Nat → List Request) (store : Store) (k : Nat) (id : EntryId)
    (texts : List Text) : Prop extends Fetched others store k id texts where
  /-- Unless the id is given to another entry in between, they are texts that were there or have been
  attached since, in their order and without repetition. -/
  sublist : ∀ stored, (store.amid others (k + 1)).find? id = some stored →
    (store.amid others (k + 1)).Throughout (Request.GivesNot id)
      (requestsBetween others (k + 1) texts.length) →
    texts.Sublist (stored.strings ++
      (requestsBetween others (k + 1) texts.length).filterMap (·.post? id))
  /-- They are those that were there, and no others, if none of these is removed in between
  either. -/
  whole : ∀ stored, (store.amid others (k + 1)).find? id = some stored →
    (store.amid others (k + 1)).Throughout (Request.GivesNot id)
      (requestsBetween others (k + 1) texts.length) →
    (∀ r ∈ requestsBetween others (k + 1) texts.length, r.KeepsFirst id texts.length) →
    texts = stored.strings

theorem Fetched.isFaithful (h : Fetched others store k id texts) :
    IsFaithful others store k id texts := by
  have hshown : ShownFrom others store id (k + 1) 0 texts := by
    intro j t ht
    rw [Nat.zero_add]
    exact h.shown j t ht
  refine ⟨h, fun stored hfind hnew => sublist_of_shown hshown hnew hfind,
    fun stored hfind hnew hkeeps => ?_⟩
  obtain ⟨counted, hcounted, hlength⟩ := h.counted
  cases hfind.symm.trans hcounted
  have hsame := getElem?_of_shown (Nat.zero_add _).le hshown hnew hkeeps hfind hlength.ge
  refine List.ext_getElem? fun j => ?_
  cases ht : texts[j]? with
  | some t => rw [← hsame j t ht, Nat.zero_add]
  | none =>
      rw [List.getElem?_eq_none_iff, ← hlength] at ht
      exact (List.getElem?_eq_none_iff.mpr ht).symm

/-- The texts that a service fetches of an entry are as many as the entry had when the service asked
for their number, and each of them was at its position when it was asked for. They may be texts that
the entry had at different times. But unless its id comes round, none of them comes twice or out of
order, and they are the texts that were counted if none of these is removed while they are
fetched. -/
theorem Service.texts_fetched {s : Session} {service : Service}
    (hwelcome : ∀ t ∈ s.welcome.lines, t.IsOneLine ∧ t.FitsInMemory)
    (hidle : service.IsIdle) (hsound : store.IsSound)
    (hothers : ∀ k, ∀ r ∈ others k, r.line.IsOneLine)
    (hfits : ∀ k, (store.amid others k).FitsInMemory) :
    let p := Peer.shared s others
    (∀ id d, (service.call p (Exchange.getEntry p id true) ⟨store, 0⟩).1 = .ok d →
      d.id = id ∧ (store.amid others 1).fetch id = .ok ⟨id, d.fields⟩ ∧
        IsFaithful others store 1 id d.strings) ∧
    (∀ predicate ds, (Command.search predicate).encode.FitsInMemory →
      (service.call p (Exchange.queryDetailed p predicate true) ⟨store, 0⟩).1 = .ok ds →
      ds.map (fun d => ⟨d.id, d.fields⟩) = (store.amid others 1).search predicate ∧
        ∀ before d behind, ds = before ++ d :: behind →
          IsFaithful others store (1 + Exchange.linesFor before) d.id d.strings) := by
  intro p
  have hstore : store.IsServable others := fun k => ⟨hsound.amid hothers k, hfits k⟩
  constructor
  · intro id d hcall
    obtain ⟨_, hid, hfetch, htexts⟩ :=
      service.call_shared (Exchange.getEntry_shared hstore id) hwelcome hidle hcall
    exact ⟨hid, hfetch, htexts.isFaithful⟩
  · intro predicate ds hrequest hcall
    obtain ⟨_, hsearch, htexts⟩ :=
      service.call_shared (Exchange.queryDetailed_shared hstore hrequest) hwelcome hidle hcall
    exact ⟨hsearch, fun before d behind heq => (htexts before d behind heq).isFaithful⟩

end

/-- While two texts are fetched, a third one is attached and removed again. -/
theorem Service.texts_fetched_undisturbed :
    let e : EntryFields :=
      { app := "a", site := "b", mach := "c", node := "d", port := 1, pid := 2, comp := "e",
        tag := "f" }
    let store : Store := ⟨[(1, ⟨e, ["x", "y"]⟩)], 2, List.pairwise_singleton _ _⟩
    let s : Session := ⟨"here", 7, 20⟩
    let others : Nat → List Request := fun k =>
      if k = 3 then [⟨s, "ADDSTR 1 z"⟩, ⟨s, "DELSTR 1 3"⟩] else []
    let p := Peer.shared s others
    let service : Service := { location := ⟨"here", 7⟩, attempts := 1 }
    ∃ d stored, (service.call p (Exchange.getEntry p 1 true) ⟨store, 0⟩).1 = .ok d ∧
      Fetched others store 1 1 d.strings ∧ (store.amid others 2).find? 1 = some stored ∧
      d.strings = stored.strings := by
  intro e store s others p service
  have hamid : ∀ k, store.amid others k = store := by
    intro k
    induction k with
    | zero => rfl
    | succ k ih =>
        rw [Store.amid, ih]
        by_cases hk : k = 3
        · rw [hk]
          decide +kernel
        · simp only [others, if_neg hk, Store.served_nil]
  have hsound : store.IsSound := by
    refine List.forall_mem_singleton.mpr ⟨by decide, by decide, by decide⟩
  have hothers : ∀ k, ∀ r ∈ others k, r.line.IsOneLine := by
    intro k
    by_cases hk : k = 3
    · rw [hk]
      decide
    · simp only [others, if_neg hk]
      exact List.forall_mem_nil _
  have hcall : (service.call p (Exchange.getEntry p 1 true) ⟨store, 0⟩).1 =
      .ok ⟨1, e, ["x", "y"]⟩ := by
    decide +kernel
  have hadd : (⟨s, "ADDSTR 1 z"⟩ : Request).command? = some (.addString 1 "z") := by decide +kernel
  have hremove : (⟨s, "DELSTR 1 3"⟩ : Request).command? = some (.deleteString 1 3) := by
    decide +kernel
  obtain ⟨hentry, -⟩ := @Service.texts_fetched others store s service (by decide) nofun hsound
    hothers fun k => by rw [hamid]; decide
  obtain ⟨-, -, hfaithful⟩ := hentry 1 _ hcall
  have hfind : (store.amid others 2).find? 1 = some ⟨e, ["x", "y"]⟩ := by
    rw [hamid]
    rfl
  have hnew : (store.amid others 2).Throughout (Request.GivesNot 1)
      (requestsBetween others 2 2) :=
    ⟨fun _ h => (nomatch hadd.symm.trans h), fun _ h => (nomatch hremove.symm.trans h), trivial⟩
  have hkeeps : ∀ r ∈ requestsBetween others 2 2, r.KeepsFirst 1 2 := by
    refine List.forall_mem_cons.mpr ⟨fun _ h => (nomatch hadd.symm.trans h),
      List.forall_mem_singleton.mpr fun pos h => ?_⟩
    cases hremove.symm.trans h
    decide
  exact ⟨_, _, hcall, hfaithful.toFetched, hfind, hfaithful.whole _ hfind hnew hkeeps⟩

/-- Four calls that end well and get texts that the entry has at no time. First, another session
removes one text and attaches another while three are fetched. Then an entry is created under the
same id while two are fetched. In the last two nobody else does anything, but a text that did not
come over a connection has a line end in it, or the host of the session has some, and what is left of
the greeting is taken for the replies. -/
theorem Service.texts_fetched_torn :
    let e : EntryFields :=
      { app := "a", site := "b", mach := "c", node := "d", port := 1, pid := 2, comp := "e",
        tag := "f" }
    let s : Session := ⟨"here", 7, 100⟩
    let service : Service := { location := ⟨"here", 7⟩, attempts := 1 }
    let gotFrom := fun (s : Session) (store : Store) (others : Nat → List Request) =>
      (service.call (Peer.shared s others) (Exchange.getEntry (Peer.shared s others) 1 true)
        ⟨store, 0⟩).1
    let got := gotFrom s
    let IsSeen := fun (store : Store) (others : Nat → List Request) (texts : List Text) =>
      ∃ passed ∈ (requestsBetween others 0 6).inits,
        ((store.served passed).find? 1).map Stored.strings = some texts
    let three : Store := ⟨[(1, ⟨e, ["x", "y", "z"]⟩)], 2, List.pairwise_singleton _ _⟩
    let moved : Nat → List Request := fun k =>
      if k = 3 then [⟨s, "DELSTR 1 1"⟩, ⟨s, "ADDSTR 1 u"⟩] else []
    let two : Store := ⟨[(1, ⟨e, ["x", "y"]⟩)], 1, List.pairwise_singleton _ _⟩
    let renewed : Nat → List Request := fun k =>
      if k = 3 then
        [⟨s, "CREATE app=a site=b mach=c node=d port=1 pid=2 comp=e tag=f"⟩, ⟨s, "ADDSTR 1 u"⟩,
          ⟨s, "ADDSTR 1 v"⟩]
      else []
    let broken : Store := ⟨[(1, ⟨e, ["x\ny"]⟩)], 2, List.pairwise_singleton _ _⟩
    let several : Session := { s with
      host := Text.join ['\n'] ["here", "+OK showing entry 1", formatEntryLine ⟨1, e⟩,
        "+OK 1 strings stored for entry 1", "+OK string 1 of entry 1 size 1", "w", ""] }
    (three.Reachable ∧ got three moved = .ok ⟨1, e, ["x", "z", "u"]⟩ ∧
        ¬IsSeen three moved ["x", "z", "u"]) ∧
      (got two renewed = .ok ⟨1, e, ["x", "v"]⟩ ∧ ¬IsSeen two renewed ["x", "v"]) ∧
      (got broken (fun _ => []) = .ok ⟨1, e, ["x"]⟩ ∧ ¬IsSeen broken (fun _ => []) ["x"]) ∧
      gotFrom several three (fun _ => []) = .ok ⟨1, e, ["w"]⟩ ∧
        ¬IsSeen three (fun _ => []) ["w"] := by
  intro e s service gotFrom got IsSeen three moved two renewed broken several
  have hcreated : Store.Reachable ⟨[(1, ⟨e, []⟩)], 2, List.pairwise_singleton _ _⟩ :=
    Store.Reachable.start.execute (s := s) (c := .create (.ofFields e)) (by decide) (by decide)
      (o := .goOn (Session.success Payload.created [Session.idText 1])) rfl
  have hattached : ∀ (texts : List Text) (t : Text), t ≠ [] → IsEncodable t →
      (Command.addString 1 t).encode.FitsInMemory →
      Store.Reachable ⟨[(1, ⟨e, texts⟩)], 2, List.pairwise_singleton _ _⟩ →
      Store.Reachable ⟨[(1, ⟨e, texts ++ [t]⟩)], 2, List.pairwise_singleton _ _⟩ := by
    intro texts t hne ht hfit hreach
    exact hreach.execute (s := s) (c := .addString 1 t) ⟨by decide, hne, ht⟩ hfit
      (o := .goOn (Session.success Payload.stringAdded [Session.natText (texts ++ [t]).length])) rfl
  have hreach : three.Reachable :=
    hattached ["x", "y"] "z" (by decide) (by decide) (by decide)
      (hattached ["x"] "y" (by decide) (by decide) (by decide)
        (hattached [] "x" (by decide) (by decide) (by decide) hcreated))
  refine ⟨⟨hreach, by decide +kernel, by decide +kernel⟩, ⟨by decide +kernel, by decide +kernel⟩,
    ⟨by decide +kernel, by decide +kernel⟩, by decide +kernel, by decide +kernel⟩

end ToolRegistry
