import ToolRegistry.Proofs.SharedPeer

/-!
# Texts one by one and all at once

The texts of an entry can be had in two ways: listed by one request, or first
counted and then asked for one after the other, as a service does. When nobody
else uses the registry the two agree, whatever the number of entries and texts.
They need not both be granted, though. A session has a limit for its lines, and
a request for a late position is longer than the one that lists.

So an exchange that changes nothing is described by the values that it can end
with (`Yields`): there is at most one, it is a matter of the store and of the
requests that the session grants, and where there is none the exchange fails.
Either way the connection is left as it was found. The law for a sequence gives
the rest by induction on the positions and on the entries.
-/

namespace ToolRegistry

open Wire Exchange

variable {α β : Type} {s : Session} {store : Store}

/-! ## What an exchange yields -/

namespace Exchange

/-- Nothing is waiting to be read on a connection that is listened to, and the registry has this
store. -/
def atRest (store : Store) : Standing Store := ⟨[], true, store⟩

/-- On a connection at rest, the exchange ends with the values that have the property, or fails if
there are none, and the connection is at rest again with the same store. -/
def Yields (x : Exchange Store α) (store : Store) (P : α → Prop) : Prop :=
  ∃ r, x.Leads (atRest store) r (atRest store) ∧ ∀ a, r = .ok a ↔ P a

namespace Yields

variable {x : Exchange Store α} {f : α → Exchange Store β} {P P' : α → Prop} {Q : α → β → Prop}

theorem congr (hx : x.Yields store P) (h : ∀ a, P a ↔ P' a) : x.Yields store P' := by
  obtain ⟨r, hleads, hr⟩ := hx
  exact ⟨r, hleads, fun a => (hr a).trans (h a)⟩

theorem pure (a : α) : (Pure.pure a : Exchange Store α).Yields store (a = ·) :=
  ⟨.ok a, Leads.pure a, fun _ => ⟨Except.ok.inj, congrArg Except.ok⟩⟩

theorem bind (hx : x.Yields store P) (hf : ∀ a, P a → (f a).Yields store (Q a)) :
    (x >>= f).Yields store fun b => ∃ a, P a ∧ Q a b := by
  obtain ⟨r, hleads, hr⟩ := hx
  cases r with
  | error e =>
      refine ⟨.error e, hleads.bind_error, fun b => ⟨nofun, ?_⟩⟩
      rintro ⟨a, ha, -⟩
      cases (hr a).mpr ha
  | ok a =>
      obtain ⟨r', hleads', hr'⟩ := hf a ((hr a).mp rfl)
      refine ⟨r', hleads.bind hleads', fun b => (hr' b).trans ⟨fun hb => ?_, ?_⟩⟩
      · exact ⟨a, (hr a).mp rfl, hb⟩
      · rintro ⟨a', ha', hb⟩
        cases (hr a').mpr ha'
        exact hb

end Yields

end Exchange

/-! ## One request -/

/-- A session does not find the request too long. -/
def Session.Admits (s : Session) (c : Command) : Prop :=
  (Utf8.encode c.encode).length ≤ s.limit.toNat

instance (s : Session) (c : Command) : Decidable (s.Admits c) := inferInstanceAs (Decidable (_ ≤ _))

theorem Session.ofSession_answer (s : Session) {c : Command} (hrequest : c.encode.FitsInMemory)
    (store : Store) (hsent : c.AllTexts IsEncodable) (target : Location) :
    (Peer.ofSession s).answer target c.encode store =
      ((lineBytes (s.respond c.encode store).1.reply.lines, !(s.respond c.encode store).1.close),
        (s.respond c.encode store).2) :=
  s.answer_eq (isOneLine_encodable hsent) hrequest store

namespace Operation

theorem reply_ne_err (op : Operation α) (v : α) (payload : Text) :
    op.reply store v ≠ .err payload := by
  intro h
  have hline := congrArg (fun r : Reply => r.lines.head?.bind Status.parse?) h
  simp only [reply, Reply.err, List.head?_cons, Option.bind_some, Status.parse?_line] at hline
  cases hline

/-- A session that carries out a request finds no fault with its arguments or its length. -/
theorem granted_of_respond {op : Operation α} (hop : op.command.AllTexts IsEncodable) {v : α}
    {next : Store} (h : s.respond op.command.encode store = (.goOn (op.reply store v), next)) :
    op.command.HasArguments IsEncodable ∧ s.Admits op.command := by
  have hreply : ∀ {payload : Text} {last : Store},
      s.respond op.command.encode store ≠ (.goOn (.err payload), last) := by
    intro payload last heq
    exact reply_ne_err op v payload (congrArg (·.1.reply) (h.symm.trans heq))
  rcases s.respond_cases (isOneLine_encodable hop) store with
    ⟨payload, hresp, -, -⟩ | ⟨c, o, next, hshort, hparse, -⟩
  · exact absurd hresp hreply
  · refine ⟨?_, hshort⟩
    by_contra hargs
    have hquotes : ¬op.command.HasArguments ('"' ∉ ·) := fun h => hargs (h.of_allTexts hop)
    obtain ⟨e, he⟩ := parse_encode_error (hop.mono fun _ ht => ht.1) hquotes
    cases he.symm.trans hparse

/-- What comes of a request for something that is only looked up. -/
theorem call_yields (hstore : store.IsSound) (hfits : store.FitsInMemory) (op : Operation α)
    (hlisted : ∀ id, op.command = .listStrings id →
      ∀ row ∈ store.rows, ∀ t ∈ row.2.strings, (stuff t).FitsInMemory)
    (hrequest : op.command.encode.FitsInMemory) {found : Except StoreError α}
    (hfound : op.perform store = found.map (·, store)) :
    (op.call (Peer.ofSession s)).Yields store fun v =>
      op.command.HasArguments IsEncodable ∧ s.Admits op.command ∧ found = .ok v := by
  rcases call_answered hstore hfits hlisted id (s.ofSession_answer hrequest store) with
    ⟨e, hcheck, hleads⟩ | ⟨e, payload, hrespond, hleads⟩ |
    ⟨v, next, r, hcheck, hv, hrespond, hleads, hr⟩
  · refine ⟨_, hleads, fun v => ⟨nofun, fun h => ?_⟩⟩
    cases hcheck.symm.trans (check_eq_ok.mpr h.1.allTexts)
  · refine ⟨_, hleads, fun v => ⟨nofun, fun ⟨hargs, hadmits, hv⟩ => ?_⟩⟩
    rw [Session.respond_command hargs, if_neg (Nat.not_lt.mpr hadmits), hfound, hv] at hrespond
    exact absurd (congrArg (·.1.reply) hrespond) (reply_ne_err op v payload)
  · obtain ⟨v', hv', hpair⟩ := Except.map_eq_ok.mp (hfound ▸ hv)
    cases hpair
    cases hr (counted_lt hv hfits.1)
    obtain ⟨hargs, hadmits⟩ := granted_of_respond (check_eq_ok.mp hcheck) hrespond
    refine ⟨_, hleads, fun v' => ⟨fun h => ?_, fun h => ?_⟩⟩
    · cases h
      exact ⟨hargs, hadmits, hv'⟩
    · exact congrArg Except.ok (Except.ok.inj (hv'.symm.trans h.2.2))

end Operation

/-! ## The requests of a service -/

/-- The requests with which the texts of an entry are fetched one by one, if there are `n`. -/
def textRequests (id : EntryId) (n : Nat) : List Command :=
  .countStrings id :: (List.range n).map fun j => .getString id (UInt64.ofNat (j + 1))

/-- An entry has these texts, and a session grants the requests with which they are fetched one by
one. -/
def Session.GrantsTexts (s : Session) (store : Store) (id : EntryId) (texts : List Text) : Prop :=
  store.listStrings id = .ok texts ∧ id ≠ 0 ∧ ∀ c ∈ textRequests id texts.length, s.Admits c

namespace Exchange

variable (hstore : store.IsSound) (hfits : store.FitsInMemory)

include hstore hfits

theorem fillEntry_yields (id : EntryId) :
    (Client.fillEntry (Peer.ofSession s) id).Yields store fun r =>
      id ≠ 0 ∧ s.Admits (.fetch id) ∧ store.fetch id = .ok r :=
  Operation.call_yields hstore hfits (.fillEntry id) nofun
    (Operation.fitsInMemory_command rfl nofun) rfl

theorem countStrings_yields (id : EntryId) :
    (Client.countStrings (Peer.ofSession s) id).Yields store fun n =>
      id ≠ 0 ∧ s.Admits (.countStrings id) ∧ store.countStrings id = .ok n :=
  Operation.call_yields hstore hfits (.countStrings id) nofun
    (Operation.fitsInMemory_command rfl nofun) rfl

theorem getStringAt_yields (id : EntryId) (pos : UInt64) :
    (Client.getStringAt (Peer.ofSession s) id pos).Yields store fun t =>
      (id ≠ 0 ∧ pos ≠ 0) ∧ s.Admits (.getString id pos) ∧ store.getString id pos = .ok t :=
  Operation.call_yields hstore hfits (.getStringAt id pos) nofun
    (Operation.fitsInMemory_command rfl nofun) rfl

theorem queryEntries_yields {predicate : FieldSet}
    (hrequest : (Command.search predicate).encode.FitsInMemory) :
    (Client.queryEntries (Peer.ofSession s) predicate).Yields store fun records =>
      predicate.AllTexts IsEncodable ∧ s.Admits (.search predicate) ∧
        (.ok (store.search predicate) : Except StoreError _) = .ok records :=
  Operation.call_yields hstore hfits (.queryEntries predicate) nofun hrequest rfl

theorem listStrings_yields
    (hlisted : ∀ row ∈ store.rows, ∀ t ∈ row.2.strings, (stuff t).FitsInMemory) (id : EntryId) :
    (Client.listStrings (Peer.ofSession s) id).Yields store fun ts =>
      id ≠ 0 ∧ s.Admits (.listStrings id) ∧ store.listStrings id = .ok ts := by
  have hid : id.toNat < 2 ^ 64 := by have := id.toNat_lt; omega
  exact Operation.call_yields hstore hfits (.listStrings id) (fun _ _ => hlisted)
    (Command.fitsInMemory_encode [id.toNat] rfl (by simp) (List.forall_mem_singleton.mpr hid)) rfl

theorem stringsFrom_yields (id : EntryId) (pos count : Nat) :
    (stringsFrom (Peer.ofSession s) id pos count).Yields store fun texts =>
      texts.length = count ∧ ∀ j t, texts[j]? = some t →
        (id ≠ 0 ∧ UInt64.ofNat (pos + j) ≠ 0) ∧
          s.Admits (.getString id (UInt64.ofNat (pos + j))) ∧
          store.getString id (UInt64.ofNat (pos + j)) = .ok t := by
  induction count generalizing pos with
  | zero =>
      refine (Yields.pure []).congr fun texts => ⟨?_, fun h => ?_⟩
      · rintro rfl
        exact ⟨rfl, nofun⟩
      · exact (List.length_eq_zero_iff.mp h.1).symm
  | succ count ih =>
      refine ((getStringAt_yields hstore hfits id (UInt64.ofNat pos)).bind fun t _ =>
        (ih (pos + 1)).bind fun rest _ => Yields.pure (t :: rest)).congr fun texts => ?_
      have hshift : ∀ j, pos + 1 + j = pos + (j + 1) := fun j => by omega
      simp only [hshift]
      constructor
      · rintro ⟨t, hfirst, rest, ⟨rfl, hrest⟩, rfl⟩
        refine ⟨rfl, fun j u hu => ?_⟩
        cases j with
        | zero =>
            cases hu
            exact hfirst
        | succ j => exact hrest j u hu
      · rintro ⟨hlength, hall⟩
        cases texts with
        | nil => cases hlength
        | cons t rest =>
            exact ⟨t, hall 0 t rfl, rest,
              ⟨Nat.succ.inj hlength, fun j u hu => hall (j + 1) u hu⟩, rfl⟩

/-- Fetched one by one are the texts that the entry has, if the requests for them are granted. -/
theorem fetchStrings_yields (id : EntryId) :
    (fetchStrings (Peer.ofSession s) id).Yields store (s.GrantsTexts store id) := by
  refine ((countStrings_yields hstore hfits id).bind fun n _ =>
    stringsFrom_yields hstore hfits id 1 n).congr fun texts => ?_
  -- As many texts as were counted, each at its position, are all texts of the entry.
  simp only [Nat.add_comm 1]
  constructor
  · rintro ⟨n, ⟨hid, hcount, hn⟩, rfl, hall⟩
    rw [Store.countStrings_eq] at hn
    obtain ⟨stored, hget, hlength⟩ := Except.map_eq_ok.mp hn
    have hsmall : stored.strings.length < 2 ^ 63 := hfits.1 _ (Store.get_eq_ok hget)
    have hin : ∀ {j t}, texts[j]? = some t → j < texts.length :=
      fun ht => (List.getElem?_eq_some_iff.mp ht).1
    have hsame : texts = stored.strings := by
      refine List.ext_getElem? fun j => ?_
      cases ht : texts[j]? with
      | some t =>
          have hj := hin ht
          exact ((Store.getString_position hget (by omega)).mp (hall j t ht).2.2).symm
      | none =>
          rw [List.getElem?_eq_none_iff, ← hlength] at ht
          exact (List.getElem?_eq_none_iff.mpr ht).symm
    refine ⟨by rw [Store.listStrings_eq, hget, hsame]; rfl, hid, ?_⟩
    refine List.forall_mem_cons.mpr ⟨hcount, fun c hc => ?_⟩
    obtain ⟨j, hj, rfl⟩ := List.mem_map.mp hc
    have ht := List.getElem?_eq_getElem (List.mem_range.mp hj)
    exact (hall j _ ht).2.1
  · rintro ⟨hlist, hid, hadmits⟩
    rw [Store.listStrings_eq] at hlist
    obtain ⟨stored, hget, rfl⟩ := Except.map_eq_ok.mp hlist
    have hsmall : stored.strings.length < 2 ^ 63 := hfits.1 _ (Store.get_eq_ok hget)
    obtain ⟨hcount, hpositions⟩ := List.forall_mem_cons.mp hadmits
    refine ⟨_, ⟨hid, hcount, by rw [Store.countStrings_eq, hget]; rfl⟩, rfl, fun j t ht => ?_⟩
    have hj := (List.getElem?_eq_some_iff.mp ht).1
    exact ⟨⟨hid, Store.position_ne_zero (by omega)⟩,
      hpositions _ (List.mem_map_of_mem (List.mem_range.mpr hj)),
      (Store.getString_position hget (by omega)).mpr ht⟩

theorem getEntry_yields (id : EntryId) :
    (getEntry (Peer.ofSession s) id true).Yields store fun d =>
      (id ≠ 0 ∧ s.Admits (.fetch id) ∧ store.fetch id = .ok ⟨d.id, d.fields⟩) ∧
        s.GrantsTexts store id d.strings := by
  refine ((fillEntry_yields hstore hfits id).bind fun r _ =>
    (fetchStrings_yields hstore hfits id).bind fun texts _ =>
      Yields.pure { DetailedEntry.ofRecord r with strings := texts }).congr fun d => ?_
  constructor
  · rintro ⟨r, hr, texts, htexts, rfl⟩
    exact ⟨hr, htexts⟩
  · rintro ⟨hr, htexts⟩
    exact ⟨_, hr, _, htexts, rfl⟩

theorem detailAll_yields (records : List EntryRecord) :
    (detailAll (Peer.ofSession s) true records).Yields store fun ds =>
      ds.map (fun d => ⟨d.id, d.fields⟩) = records ∧
        ∀ d ∈ ds, s.GrantsTexts store d.id d.strings := by
  induction records with
  | nil =>
      refine (Yields.pure []).congr fun ds => ⟨?_, fun h => (List.map_eq_nil_iff.mp h.1).symm⟩
      rintro rfl
      exact ⟨rfl, List.forall_mem_nil _⟩
  | cons r records ih =>
      have hdetail : (detail (Peer.ofSession s) true r).Yields store fun d =>
          (⟨d.id, d.fields⟩ : EntryRecord) = r ∧ s.GrantsTexts store d.id d.strings := by
        refine ((fetchStrings_yields hstore hfits r.id).bind fun texts _ =>
          Yields.pure { DetailedEntry.ofRecord r with strings := texts }).congr fun d => ?_
        constructor
        · rintro ⟨texts, htexts, rfl⟩
          exact ⟨rfl, htexts⟩
        · rintro ⟨rfl, htexts⟩
          exact ⟨_, htexts, rfl⟩
      refine (hdetail.bind fun d _ => ih.bind fun ds _ => Yields.pure (d :: ds)).congr fun ds => ?_
      constructor
      · rintro ⟨d, ⟨rfl, hd⟩, rest, ⟨rfl, hrest⟩, rfl⟩
        exact ⟨rfl, List.forall_mem_cons.mpr ⟨hd, hrest⟩⟩
      · rintro ⟨hrecords, hall⟩
        cases ds with
        | nil => cases hrecords
        | cons d ds =>
            obtain ⟨hd, hrest⟩ := List.forall_mem_cons.mp hall
            obtain ⟨hr, hrecords⟩ := List.cons.inj hrecords
            exact ⟨d, ⟨hr, hd⟩, ds, ⟨hrecords, hrest⟩, rfl⟩

theorem queryDetailed_yields {predicate : FieldSet}
    (hrequest : (Command.search predicate).encode.FitsInMemory) :
    (queryDetailed (Peer.ofSession s) predicate true).Yields store fun ds =>
      (predicate.AllTexts IsEncodable ∧ s.Admits (.search predicate)) ∧
        ds.map (fun d => ⟨d.id, d.fields⟩) = store.search predicate ∧
        ∀ d ∈ ds, s.GrantsTexts store d.id d.strings := by
  refine ((queryEntries_yields hstore hfits hrequest).bind fun records _ =>
    detailAll_yields hstore hfits records).congr fun ds => ?_
  constructor
  · rintro ⟨records, ⟨hpredicate, hadmits, hsearch⟩, hrecords, hall⟩
    cases hsearch
    exact ⟨⟨hpredicate, hadmits⟩, hrecords, hall⟩
  · rintro ⟨⟨hpredicate, hadmits⟩, hrecords, hall⟩
    exact ⟨_, ⟨hpredicate, hadmits, rfl⟩, hrecords, hall⟩

end Exchange

end ToolRegistry
