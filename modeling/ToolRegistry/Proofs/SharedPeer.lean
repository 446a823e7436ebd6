import ToolRegistry.Proofs.InStep
import ToolRegistry.Proofs.Schedules
import ToolRegistry.Proofs.Sizes
import ToolRegistry.Service

/-!
# A registry that others use as well

A client sees only what comes back for its own lines, but between two of them
the registry may answer any number of lines from others. Here these are a list of
requests for each line of the client, those that are answered right before it
(`Peer.shared`). The store that a line finds is then a matter of counting
(`Store.amid`), as long as the client changes nothing itself.

The operations with which a service fetches entries change nothing. So if one of
them ends well, its value is what the store of that moment answers, and the next
line finds what the others have made of that store (`Operation.call_shared`). It
may also fail, and what has come of a failure is nobody's concern here
(`Ensures`): a call of several operations that ends well has none that fails.
-/

namespace ToolRegistry

open Wire Exchange

/-! ## Exchanges that end well -/

namespace Exchange

variable {ω α β : Type} {x : Exchange ω α} {f : α → Exchange ω β} {s s' : Standing ω}
  {Q : α → Standing ω → Prop} {R : β → Standing ω → Prop}

/-- Begun where things stand as in `before`, on whatever link, the exchange fails, or it ends with a
value, and where things stand, as `Q` tells. -/
def Ensures (x : Exchange ω α) (before : Standing ω) (Q : α → Standing ω → Prop) : Prop :=
  ∀ l w, Link.standing l w = before →
    ∀ a l' w', x.carryOut l w = (.ok a, l', w') → Q a (Link.standing l' w')

theorem Leads.ensures {r : Except RegistryError α} (h : x.Leads s r s')
    (hq : ∀ a, r = .ok a → Q a s') : x.Ensures s Q := by
  intro l w hl a l' w' hrun
  obtain ⟨l1, w1, hrun1, hl1⟩ := h l w hl
  rw [hrun] at hrun1
  cases hrun1
  exact hl1 ▸ hq a rfl

theorem Leads.ensures_error {e : RegistryError} (h : x.Leads s (.error e) s') : x.Ensures s Q :=
  h.ensures nofun

namespace Ensures

theorem bind (hx : x.Ensures s Q) (hf : ∀ a s', Q a s' → (f a).Ensures s' R) :
    (x >>= f).Ensures s R := by
  intro l w hl b l' w' hrun
  rw [carryOut_bind] at hrun
  rcases hx1 : x.carryOut l w with ⟨e | a, l1, w1⟩
  · rw [hx1] at hrun
    cases hrun
  · rw [hx1] at hrun
    exact hf a _ (hx l w hl a l1 w1 hx1) l1 w1 rfl b l' w' hrun

theorem pure {a : α} (h : Q a s) : (Pure.pure a : Exchange ω α).Ensures s Q :=
  (Leads.pure a).ensures fun _ heq => Except.ok.inj heq ▸ h

theorem mono {Q' : α → Standing ω → Prop} (hx : x.Ensures s Q) (h : ∀ a s', Q a s' → Q' a s') :
    x.Ensures s Q' :=
  fun l w hl a l' w' hrun => h a _ (hx l w hl a l' w' hrun)

end Ensures

end Exchange

/-! ## The others -/

/-- What a registry that others use remembers. -/
structure Shared where
  store : Store
  /-- How many lines the client has sent. -/
  lines : Nat

/-- A registry that answers the requests `others k` of others right before the line of the client
with the number `k`, which counts from 0. -/
def Peer.shared (s : Session) (others : Nat → List Request) : Peer Shared where
  dial _ w := (.ok (replyBytes [s.welcome]), w)
  answer _ line w :=
    let (answer, next) := s.answer line (w.store.served (others w.lines))
    (answer, ⟨next, w.lines + 1⟩)

/-- The store after so many lines of a client that changes nothing. -/
def Store.amid (others : Nat → List Request) (store : Store) : Nat → Store
  | 0 => store
  | k + 1 => (store.amid others k).served (others k)

/-- What is remembered after so many lines of a client that changes nothing. -/
def Shared.after (others : Nat → List Request) (store : Store) (k : Nat) : Shared :=
  ⟨store.amid others k, k⟩

/-- Nothing is waiting to be read after so many lines. -/
def Standing.idle (others : Nat → List Request) (store : Store) (k : Nat) : Standing Shared :=
  ⟨[], true, .after others store k⟩

variable {others : Nat → List Request} {store : Store} {s : Session}

theorem Store.IsSound.served (hstore : store.IsSound) {requests : List Request}
    (hlines : ∀ r ∈ requests, r.line.IsOneLine) : (store.served requests).IsSound := by
  induction requests generalizing store with
  | nil => exact hstore
  | cons r requests ih =>
      obtain ⟨hline, hrest⟩ := List.forall_mem_cons.mp hlines
      exact ih (hstore.respond r.session hline) hrest

theorem Store.IsSound.amid (hstore : store.IsSound)
    (hothers : ∀ k, ∀ r ∈ others k, r.line.IsOneLine) (k : Nat) :
    (store.amid others k).IsSound := by
  induction k with
  | zero => exact hstore
  | succ k ih => exact ih.served (hothers k)

/-- The store can be served to the client whenever one of its lines comes. -/
def Store.IsServable (others : Nat → List Request) (store : Store) : Prop :=
  ∀ k, (store.amid others k).IsSound ∧ (store.amid others k).FitsInMemory

/-- What a client fetches is what the store answers that its line finds. -/
theorem Operation.call_shared {α : Type} (op : Operation α) (hop : op.isFetching = true)
    (hrequest : op.command.encode.FitsInMemory) (hstore : store.IsServable others) (k : Nat) :
    (op.call (Peer.shared s others)).Ensures (.idle others store k) fun v after =>
      op.perform (store.amid others (k + 1)) = .ok (v, store.amid others (k + 1)) ∧
        after = .idle others store (k + 1) := by
  obtain ⟨hsound, hfits⟩ := hstore (k + 1)
  have hlisted : ∀ id, op.command ≠ .listStrings id := by
    intro id heq
    cases op <;> cases heq
    cases hop
  have hanswer : op.command.AllTexts IsEncodable → ∀ target,
      (Peer.shared s others).answer target op.command.encode (.after others store k) =
        ((lineBytes (s.respond op.command.encode (store.amid others (k + 1))).1.reply.lines,
          !(s.respond op.command.encode (store.amid others (k + 1))).1.close),
          ⟨(s.respond op.command.encode (store.amid others (k + 1))).2, k + 1⟩) := by
    intro hsent target
    have h := s.answer_eq (isOneLine_encodable hsent) hrequest (store.amid others (k + 1))
    exact congrArg (fun r => (r.1, Shared.mk r.2 (k + 1))) h
  rcases call_answered hsound hfits (fun id heq => absurd heq (hlisted id)) (Shared.mk · (k + 1))
    hanswer with ⟨e, -, hleads⟩ | ⟨e, payload, -, hleads⟩ | ⟨v, next, r, -, hv, -, hleads, hr⟩
  · exact hleads.ensures_error
  · exact hleads.ensures_error
  · cases perform_fetching hop hv
    cases hr (counted_lt hv hfits.1)
    refine hleads.ensures fun a ha => ?_
    cases ha
    exact ⟨hv, rfl⟩

/-! ## Texts one by one -/

/-- Where the texts of an entry come from that a client has fetched one by one. With its line number
`k` it has asked for their number, and with the lines after that for the texts. -/
structure Fetched (others : Nat → List Request) (store : Store) (k : Nat) (id : EntryId)
    (texts : List Text) : Prop where
  /-- There are as many of them as the entry had when their number was asked for. -/
  counted : ∃ stored, (store.amid others (k + 1)).find? id = some stored ∧
    stored.strings.length = texts.length
  /-- Each was at its position when it was asked for. -/
  shown : ∀ j t, texts[j]? = some t → ∃ stored,
    (store.amid others (k + 2 + j)).find? id = some stored ∧ stored.strings[j]? = some t

namespace Exchange

theorem stringsFrom_shared (hstore : store.IsServable others) (id : EntryId) (count : Nat)
    (pos k : Nat) :
    (stringsFrom (Peer.shared s others) id pos count).Ensures (.idle others store k)
      fun texts after => texts.length = count ∧
        (∀ j t, texts[j]? = some t →
          (store.amid others (k + 1 + j)).getString id (UInt64.ofNat (pos + j)) = .ok t) ∧
        after = .idle others store (k + count) := by
  induction count generalizing pos k with
  | zero => exact Ensures.pure ⟨rfl, nofun, rfl⟩
  | succ count ih =>
      refine (Operation.call_shared (.getStringAt id (UInt64.ofNat pos)) rfl
        (Operation.fitsInMemory_command rfl nofun) hstore k).bind fun t after hfirst => ?_
      obtain ⟨hget, rfl⟩ := hfirst
      refine (ih (pos + 1) (k + 1)).bind fun rest after hrest => Ensures.pure ?_
      obtain ⟨hlength, hshown, rfl⟩ := hrest
      refine ⟨congrArg (· + 1) hlength, fun j u hu => ?_, by rw [Nat.add_right_comm]; rfl⟩
      cases j with
      | zero =>
          obtain ⟨u', hu', hpair⟩ := Except.map_eq_ok.mp hget
          cases hpair
          cases hu
          exact hu'
      | succ j =>
          have hnext := hshown j u hu
          rwa [Nat.add_right_comm k 1 1, Nat.add_assoc (k + 1), Nat.add_comm 1 j,
            Nat.add_assoc pos, Nat.add_comm 1 j] at hnext

theorem fetchStrings_shared (hstore : store.IsServable others) (id : EntryId) (k : Nat) :
    (fetchStrings (Peer.shared s others) id).Ensures (.idle others store k)
      fun texts after => Fetched others store k id texts ∧
        after = .idle others store (k + 1 + texts.length) := by
  refine (Operation.call_shared (.countStrings id) rfl
    (Operation.fitsInMemory_command rfl nofun) hstore k).bind fun count after hfirst => ?_
  obtain ⟨hcount, rfl⟩ := hfirst
  refine (stringsFrom_shared hstore id count 1 (k + 1)).mono fun texts after htexts => ?_
  obtain ⟨hlength, hshown, rfl⟩ := htexts
  obtain ⟨n, hn, hpair⟩ := Except.map_eq_ok.mp hcount
  cases hpair
  have hsmall := (hstore (k + 1)).2.1.countStrings hn
  rw [Store.countStrings_eq] at hn
  obtain ⟨stored, hget, hcounted⟩ := Except.map_eq_ok.mp hn
  refine ⟨⟨⟨stored, Store.get_eq_ok_iff.mp hget, hcounted.trans hlength.symm⟩, ?_⟩, by rw [hlength]⟩
  intro j t ht
  obtain ⟨shown, hfind, -, hfound⟩ := Store.getString_eq_ok (hshown j t ht)
  have hj : j < texts.length := (List.getElem?_eq_some_iff.mp ht).1
  have hpos : (UInt64.ofNat (1 + j)).toNat - 1 = j := by
    rw [Nat.add_comm, Store.toNat_position (by omega), Nat.add_sub_cancel]
  rw [hpos] at hfound
  exact ⟨shown, hfind, hfound⟩

theorem getEntry_shared (hstore : store.IsServable others) (id : EntryId) :
    (getEntry (Peer.shared s others) id true).Ensures (.idle others store 0)
      fun d _ => d.id = id ∧ (store.amid others 1).fetch id = .ok ⟨id, d.fields⟩ ∧
        Fetched others store 1 id d.strings := by
  refine (Operation.call_shared (.fillEntry id) rfl
    (Operation.fitsInMemory_command rfl nofun) hstore 0).bind fun r after hfirst => ?_
  obtain ⟨hfetch, rfl⟩ := hfirst
  obtain ⟨r', hr, hpair⟩ := Except.map_eq_ok.mp hfetch
  cases hpair
  refine (fetchStrings_shared hstore id 1).bind fun texts after htexts => Ensures.pure ?_
  have hid := hr
  rw [Store.fetch_eq] at hid
  obtain ⟨stored, -, rfl⟩ := Except.map_eq_ok.mp hid
  exact ⟨rfl, hr, htexts.1⟩

/-- How many lines a client sends for the texts of some entries. -/
def linesFor (ds : List DetailedEntry) : Nat := (ds.map (·.strings.length + 1)).sum

theorem detailAll_shared (hstore : store.IsServable others) (records : List EntryRecord) (k : Nat) :
    (detailAll (Peer.shared s others) true records).Ensures (.idle others store k)
      fun ds after => ds.map (fun d => ⟨d.id, d.fields⟩) = records ∧
        (∀ before d behind, ds = before ++ d :: behind →
          Fetched others store (k + linesFor before) d.id d.strings) ∧
        after = .idle others store (k + linesFor ds) := by
  induction records generalizing k with
  | nil => exact Ensures.pure ⟨rfl, by simp, rfl⟩
  | cons r records ih =>
      have hdetail : (detail (Peer.shared s others) true r).Ensures (.idle others store k)
          fun d after => (⟨d.id, d.fields⟩ : EntryRecord) = r ∧
            Fetched others store k d.id d.strings ∧
            after = .idle others store (k + (d.strings.length + 1)) := by
        refine (fetchStrings_shared hstore r.id k).bind fun texts after htexts => Ensures.pure ?_
        obtain ⟨hfetched, rfl⟩ := htexts
        exact ⟨rfl, hfetched, by rw [Nat.add_assoc, Nat.add_comm 1]⟩
      refine hdetail.bind fun d after hd => ?_
      obtain ⟨hrecord, hfetched, rfl⟩ := hd
      refine (ih _).bind fun ds after hds => Ensures.pure ?_
      obtain ⟨hrecords, hall, rfl⟩ := hds
      refine ⟨by rw [List.map_cons, hrecord, hrecords], fun before d' behind heq => ?_, ?_⟩
      · cases before with
        | nil =>
            cases heq
            exact hfetched
        | cons first before =>
            cases heq
            have hlater := hall before d' behind rfl
            rwa [Nat.add_assoc] at hlater
      · rw [Nat.add_assoc]
        rfl

theorem queryDetailed_shared (hstore : store.IsServable others) {predicate : FieldSet}
    (hrequest : (Command.search predicate).encode.FitsInMemory) :
    (queryDetailed (Peer.shared s others) predicate true).Ensures (.idle others store 0)
      fun ds _ => ds.map (fun d => ⟨d.id, d.fields⟩) = (store.amid others 1).search predicate ∧
        ∀ before d behind, ds = before ++ d :: behind →
          Fetched others store (1 + linesFor before) d.id d.strings := by
  refine (Operation.call_shared (.queryEntries predicate) rfl hrequest hstore 0).bind
    fun records after hfirst => ?_
  obtain ⟨hsearch, rfl⟩ := hfirst
  cases hsearch
  exact (detailAll_shared hstore _ 1).mono fun ds after hds => ⟨hds.1, hds.2.1⟩

end Exchange

/-! ## Calls of a service -/

namespace Service

/-- Nothing is waiting to be read on the connection that is kept, if one is kept, and it is still
listened to. -/
def IsIdle (service : Service) : Prop :=
  ∀ c ∈ service.client, c.link.inbox = [] ∧ c.link.listening = true

theorem dial_accepted {ω : Type} {p : Peer ω} {target : Location} {w w' : ω} {bytes : Bytes}
    (h : p.dial target w = (.ok bytes, w')) (attempts : Nat) :
    dial p target attempts w = (.ok { location := target, inbox := bytes }, w') := by
  have hagain : ∀ more, dialAgain p target more w = (.ok bytes, w') := by
    intro more
    cases more with
    | zero => exact h
    | succ more => simp only [dialAgain, h]
  rw [dial, hagain]

/-- A session that greets with one line is taken for a registry. The host that it shows may have
carriage returns in it, which a client does not see. -/
theorem openClient_greeted {ω : Type} {p : Peer ω} (service : Service) {w : ω}
    (hdial : p.dial service.location w = (.ok (replyBytes [s.welcome]), w))
    (hwelcome : ∀ t ∈ s.welcome.lines, '\n' ∉ t ∧ t.FitsInMemory) :
    ∃ c, service.openClient p w = (.ok c, service, w) ∧ c.link.inbox = [] ∧
      c.link.listening = true := by
  obtain ⟨hone, hfit⟩ := hwelcome _ List.mem_cons_self
  have hinbox : replyBytes [s.welcome] =
      Utf8.encode (Status.ok (Template.render Payload.welcome
        [s.host, s.portText, Payload.serverVersion, Payload.serverBuild])).line ++
        lineFeed :: [] := by
    rw [replyBytes_eq, List.flatMap_singleton]
    exact lineBytes_cons _ _
  have hreceive := @Link.receive_returns
    { location := service.location, inbox := replyBytes [s.welcome] } _ _ hone hfit hinbox
  have hvisible : ∀ payload : Text, (Status.ok payload).line.filter (· ≠ '\r') =
      (Status.ok (payload.filter (· ≠ '\r'))).line := by
    intro payload
    rw [Status.line, List.filter_append]
    rfl
  rw [hvisible] at hreceive
  simp only [openClient, dial_accepted hdial, Client.greet, hreceive, Status.parse?_line]
  exact ⟨_, rfl, rfl, rfl⟩

/-- A call that ends well does what its exchange does on a connection on which nothing is waiting to
be read. -/
theorem call_shared {α : Type} {x : Exchange Shared α} {Q : α → Standing Shared → Prop}
    (hx : x.Ensures (.idle others store 0) Q)
    (hwelcome : ∀ t ∈ s.welcome.lines, t.IsOneLine ∧ t.FitsInMemory) {service : Service}
    (hidle : service.IsIdle) {a : α}
    (h : (service.call (Peer.shared s others) x ⟨store, 0⟩).1 = .ok a) : ∃ after, Q a after := by
  have hrun : ∀ l : Link, l.inbox = [] ∧ l.listening = true → (x.carryOut l ⟨store, 0⟩).1 = .ok a →
      ∃ after, Q a after := by
    intro l hl hr
    rcases hcarry : x.carryOut l ⟨store, 0⟩ with ⟨r, l', w'⟩
    rw [hcarry] at hr
    cases hr
    have hstands : l.standing (⟨store, 0⟩ : Shared) = .idle others store 0 := by
      rw [Link.standing, hl.1, hl.2]
      rfl
    exact ⟨_, hx l _ hstands a l' w' hcarry⟩
  rw [call] at h
  cases hclient : service.client with
  | some c =>
      rw [hclient] at h
      exact hrun c.link (hidle c hclient) h
  | none =>
      obtain ⟨c, hopen, hl⟩ := service.openClient_greeted (p := Peer.shared s others)
        (w := ⟨store, 0⟩) rfl fun t ht => ⟨(hwelcome t ht).1.2, (hwelcome t ht).2⟩
      rw [hclient, hopen] at h
      exact hrun c.link hl h

end Service

end ToolRegistry
