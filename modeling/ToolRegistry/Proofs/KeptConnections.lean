import ToolRegistry.Proofs.TextByText

/-!
# Connections for one call and connections that are kept

A service opens a connection for every call, unless one is kept. On a kept
connection the replies to all calls follow each other, so a call that left a
part of its reply unread, or read too much, would spoil the calls after it. No
call does. Whatever comes of it, a refusal in the middle included, it leaves the
connection at rest (`Call.settles`), just as a connection is when its greeting
has been read and nothing has been sent on it. Which connection a call gets is
then of no account, and a script may keep one or not wherever it likes
(`run_callsOf`).

It all hangs on the greeting being one line. The host in it is not checked by
anybody, and if there is a line feed in it the rest of the greeting is taken for
the reply to the first request, and every reply for that to the next one.
-/

namespace ToolRegistry

open Wire Exchange

namespace Service

variable {ω : Type}

/-! ## Scripts -/

/-- What a service is called for. -/
inductive Call where
  | addEntry (e : EntryFields)
  | deleteEntry (id : EntryId)
  | changeEntry (id : EntryId) (fields : FieldSet)
  | addString (id : EntryId) (t : Text)
  /-- One entry, with its texts or without. -/
  | getEntry (id : EntryId) (withStrings : Bool)
  /-- The entries that agree with some values, with their texts or without. -/
  | queryEntries (predicate : FieldSet) (withStrings : Bool)
deriving DecidableEq, Repr

/-- What a call answers. -/
inductive Answer where
  | id (id : EntryId)
  | done
  | position (n : Nat)
  | entry (d : DetailedEntry)
  | entries (ds : List DetailedEntry)
deriving DecidableEq, Repr

namespace Call

/-- What a call does on the connection that it gets. -/
def exchange (p : Peer ω) : Call → Exchange ω Answer
  | addEntry e => .id <$> Client.createEntry p e
  | deleteEntry id => (fun _ => .done) <$> Client.deleteEntry p id
  | changeEntry id fields => (fun _ => .done) <$> Client.changeEntry p id fields
  | addString id t => .position <$> Client.storeString p id t
  | getEntry id withStrings => .entry <$> Exchange.getEntry p id withStrings
  | queryEntries predicate withStrings =>
      .entries <$> Exchange.queryDetailed p predicate withStrings

/-- The request that a call begins with. -/
def request : Call → Command
  | addEntry e => .create (.ofFields e)
  | deleteEntry id => .delete id
  | changeEntry id fields => .change id fields
  | addString id t => .addString id t
  | getEntry id _ => .fetch id
  | queryEntries predicate _ => .search predicate

end Call

/-- One step of a script. -/
inductive Step where
  /-- A connection is opened to be kept, unless one is kept. -/
  | connect
  /-- The connection that is kept is closed, if one is kept. -/
  | disconnect
  | call (c : Call)
deriving DecidableEq, Repr

/-- The calls of a script. -/
def callsOf (steps : List Step) : List Call :=
  steps.filterMap fun
    | .call c => some c
    | _ => none

/-- The results of the calls of a script, and what the peer remembers in the end. -/
def run (p : Peer ω) : List Step → Service → ω → List (Except RegistryError Answer) × ω
  | [], _, w => ([], w)
  | .connect :: steps, s, w =>
      let (_, s, w) := s.connect p w
      run p steps s w
  | .disconnect :: steps, s, w =>
      let (_, s, w) := s.disconnect p w
      run p steps s w
  | .call c :: steps, s, w =>
      let (r, s, w) := s.call p (c.exchange p) w
      let (rs, w) := run p steps s w
      (r :: rs, w)

end Service

variable {s : Session} {store : Store}

/-! ## What a call leaves -/

/-- An operation leaves the connection at rest, whatever comes of it. -/
theorem Operation.settles {α : Type} (op : Operation α) (hstore : store.IsSound)
    (hfits : store.FitsInMemory) (hlisted : ∀ id, op.command ≠ .listStrings id)
    (hrequest : op.command.encode.FitsInMemory) :
    ∃ r next, (op.call (Peer.ofSession s)).Leads (atRest store) r (atRest next) ∧
      next.IsSound := by
  rcases call_answered hstore hfits (fun id heq => absurd heq (hlisted id)) id
    (s.ofSession_answer hrequest store) with
    ⟨e, -, hleads⟩ | ⟨e, payload, -, hleads⟩ | ⟨v, next, r, hcheck, -, hrespond, hleads, -⟩
  · exact ⟨_, store, hleads, hstore⟩
  · exact ⟨_, store, hleads, hstore⟩
  · have hone : op.command.encode.IsOneLine := isOneLine_encodable (check_eq_ok.mp hcheck)
    have hnext := hstore.respond s hone
    rw [hrespond] at hnext
    exact ⟨r, next, hleads, hnext⟩

namespace Exchange

theorem detailAll_bare {ω : Type} (p : Peer ω) (records : List EntryRecord) :
    detailAll p false records = pure (records.map .ofRecord) := by
  induction records with
  | nil => rfl
  | cons r records ih =>
      simp only [detailAll, ih, detail, Bool.false_eq_true, if_false, pure_bind, List.map_cons]

theorem getEntry_bare {ω : Type} (p : Peer ω) (id : EntryId) :
    getEntry p id false = .ofRecord <$> Client.fillEntry p id := by
  simp only [getEntry, Bool.false_eq_true, if_false, map_eq_pure_bind]

theorem queryDetailed_bare {ω : Type} (p : Peer ω) (predicate : FieldSet) :
    queryDetailed p predicate false =
      (List.map .ofRecord) <$> Client.queryEntries p predicate := by
  simp only [queryDetailed, detailAll_bare, map_eq_pure_bind]

end Exchange

namespace Service

/-- So does a call, of however many requests. -/
theorem Call.settles (c : Call) (hstore : store.IsSound) (hfits : store.FitsInMemory)
    (hrequest : c.request.encode.FitsInMemory) :
    ∃ r next, (c.exchange (Peer.ofSession s)).Leads (atRest store) r (atRest next) ∧
      next.IsSound := by
  have hoperation : ∀ {α : Type} (op : Operation α) (f : α → Answer),
      op.command.encode.FitsInMemory → (∀ id, op.command ≠ .listStrings id) →
      ∃ r next, (f <$> op.call (Peer.ofSession s)).Leads (atRest store) r (atRest next) ∧
        next.IsSound := by
    intro α op f hop hlisted
    obtain ⟨r, next, hleads, hnext⟩ := op.settles hstore hfits hlisted hop
    exact ⟨_, next, hleads.map f, hnext⟩
  have hlooking : ∀ {α : Type} {x : Exchange Store α} {P : α → Prop} (f : α → Answer),
      x.Yields store P → ∃ r next, (f <$> x).Leads (atRest store) r (atRest next) ∧
        next.IsSound := by
    rintro α x P f ⟨r, hleads, -⟩
    exact ⟨_, store, hleads.map f, hstore⟩
  cases c with
  | addEntry e => exact hoperation (.createEntry e) _ hrequest nofun
  | deleteEntry id => exact hoperation (.deleteEntry id) _ hrequest nofun
  | changeEntry id fields => exact hoperation (.changeEntry id fields) _ hrequest nofun
  | addString id t => exact hoperation (.storeString id t) _ hrequest nofun
  | getEntry id withStrings =>
      cases withStrings with
      | true => exact hlooking _ (getEntry_yields hstore hfits id)
      | false =>
          rw [exchange, getEntry_bare, Functor.map_map]
          exact hlooking _ (fillEntry_yields hstore hfits id)
  | queryEntries predicate withStrings =>
      cases withStrings with
      | true => exact hlooking _ (queryDetailed_yields hstore hfits hrequest)
      | false =>
          rw [exchange, queryDetailed_bare, Functor.map_map]
          exact hlooking _ (queryEntries_yields hstore hfits hrequest)

end Service

/-! ## Closing -/

theorem Session.respond_quit (s : Session) (store : Store) :
    (s.respond Command.quit.encode store).2 = store := by
  rw [respond]
  split
  · rfl
  · have hparse : Command.parse Command.quit.encode = .ok .quit := parse_encodable trivial
    rw [dispatch, hparse]
    rfl

/-- However a connection is closed, the store is left alone. -/
theorem Client.close_keeps (s : Session) (c : Client) (store : Store) :
    ∃ r c', c.perform (Client.close (Peer.ofSession s)) store = (r, c', store) := by
  obtain ⟨l, hsend⟩ : ∃ l, c.link.send (Peer.ofSession s) Command.quit.encode store =
      (l, store) := by
    have hanswer : (s.answer Command.quit.encode store).2 = store := by
      rw [s.answer_eq (by decide) (by decide)]
      exact s.respond_quit store
    refine ⟨_, Prod.ext rfl ?_⟩
    rw [Link.send]
    split
    · exact hanswer
    · rfl
  have hask : (sendLine (Peer.ofSession s) Command.quit.encode).carryOut c.link store =
      (.ok (), l, store) := congrArg (Prod.mk (Except.ok ())) hsend
  obtain ⟨r, l', hread⟩ : ∃ r l',
      (tellsOk <$> Exchange.readLine : Exchange Store Bool).carryOut l store = (r, l', store) := by
    rw [map_eq_pure_bind, carryOut_bind]
    simp only [carryOut, ExceptT.run, Exchange.readLine, Exchange.reading, ExceptT.mk]
    rcases l.receive with ⟨e | t, l'⟩
    · exact ⟨_, _, rfl⟩
    · exact ⟨_, _, rfl⟩
  -- Whatever comes of reading the reply, the registry has answered before.
  rw [Client.perform, Client.close, carryOut_bind, hask]
  simp only [carryOut_tryCatch, hread]
  cases r with
  | ok confirmed => exact ⟨_, _, rfl⟩
  | error e => cases e <;> exact ⟨_, _, rfl⟩

/-! ## Steps of a script -/

namespace Service

theorem isIdle_forget (service : Service) (l : Link) : (service.forget l).IsIdle := nofun

section

variable (hwelcome : ∀ t ∈ s.welcome.lines, '\n' ∉ t ∧ t.FitsInMemory) {service : Service}
  (hidle : service.IsIdle)

include hwelcome hidle

/-- A call does what its exchange does on a connection at rest, and another call may follow. -/
theorem call_leads {α : Type} {x : Exchange Store α} {r : Except RegistryError α} {next : Store}
    (hx : x.Leads (atRest store) r (atRest next)) :
    ∃ service', service.call (Peer.ofSession s) x store = (r, service', next) ∧
      service'.IsIdle := by
  have hperform : ∀ c : Client, c.link.inbox = [] ∧ c.link.listening = true →
      ∃ c', c.perform x store = (r, c', next) ∧ c'.link.inbox = [] ∧ c'.link.listening = true := by
    intro c hc
    have hstands : c.link.standing store = atRest store := by
      rw [Link.standing, hc.1, hc.2, atRest]
    obtain ⟨l', w', hrun, hafter⟩ := hx c.link store hstands
    obtain ⟨hinbox, hlistening, rfl⟩ := Standing.mk.inj hafter
    exact ⟨{ c with link := l' }, by rw [Client.perform, hrun], hinbox, hlistening⟩
  rw [call]
  cases hclient : service.client with
  | some c =>
      obtain ⟨c', hc', hrest⟩ := hperform c (hidle c hclient)
      simp only [hc']
      refine ⟨_, rfl, ?_⟩
      split
      · exact isIdle_forget service c'.link
      · rintro c'' ⟨⟩
        exact hrest
  | none =>
      obtain ⟨c, hopen, hrest⟩ := service.openClient_greeted (p := Peer.ofSession s) (w := store)
        rfl hwelcome
      obtain ⟨c', hc', -⟩ := hperform c hrest
      obtain ⟨closed, c'', hclose⟩ := c'.close_keeps s next
      simp only [hopen, hc', hclose]
      exact ⟨_, rfl, isIdle_forget _ _⟩

/-- A call ends with what its exchange yields. -/
theorem call_eq_ok_iff {α : Type} {x : Exchange Store α} {P : α → Prop} (hx : x.Yields store P)
    (a : α) : (service.call (Peer.ofSession s) x store).1 = .ok a ↔ P a := by
  obtain ⟨r, hleads, hr⟩ := hx
  obtain ⟨service', hcall, -⟩ := call_leads hwelcome hidle hleads
  rw [hcall]
  exact hr a

theorem connect_keeps (store : Store) :
    ∃ r service', service.connect (Peer.ofSession s) store = (r, service', store) ∧
      service'.IsIdle := by
  rw [connect]
  split
  · exact ⟨_, _, rfl, hidle⟩
  · obtain ⟨c, hopen, hrest⟩ := service.openClient_greeted (p := Peer.ofSession s) (w := store)
        rfl hwelcome
    rw [hopen]
    refine ⟨_, _, rfl, ?_⟩
    rintro c' ⟨⟩
    exact hrest

omit hwelcome in
theorem disconnect_keeps (store : Store) :
    ∃ r service', service.disconnect (Peer.ofSession s) store = (r, service', store) ∧
      service'.IsIdle := by
  rw [disconnect]
  cases hclient : service.client with
  | none => exact ⟨_, _, rfl, hidle⟩
  | some c =>
      obtain ⟨r, c', hclose⟩ := c.close_keeps s store
      simp only [hclose]
      exact ⟨_, _, rfl, isIdle_forget _ _⟩

end

/-! ## Whole scripts -/

theorem run_callsOf_eq (hwelcome : ∀ t ∈ s.welcome.lines, '\n' ∉ t ∧ t.FitsInMemory)
    {steps : List Step} (hrequests : ∀ c ∈ callsOf steps, c.request.encode.FitsInMemory)
    (hstore : store.IsSound) {service alone : Service} (hidle : service.IsIdle)
    (halone : alone.IsIdle)
    (hfits : ∀ n, (run (Peer.ofSession s) (((callsOf steps).take n).map .call) alone
      store).2.FitsInMemory) :
    run (Peer.ofSession s) steps service store =
      run (Peer.ofSession s) ((callsOf steps).map .call) alone store := by
  -- Opening and closing put one idle service in the place of another, and that is all. So the
  -- induction is on the script, for any two services that are idle.
  induction steps generalizing store service alone with
  | nil => rfl
  | cons step steps ih =>
      cases step with
      | connect =>
          obtain ⟨r, service', hconnect, hidle'⟩ := connect_keeps hwelcome hidle store
          rw [run, hconnect]
          exact ih hrequests hstore hidle' halone hfits
      | disconnect =>
          obtain ⟨r, service', hdisconnect, hidle'⟩ := disconnect_keeps (s := s) hidle store
          rw [run, hdisconnect]
          exact ih hrequests hstore hidle' halone hfits
      | call c =>
          have hcalls : callsOf (.call c :: steps) = c :: callsOf steps := rfl
          rw [hcalls] at hrequests hfits ⊢
          obtain ⟨hrequest, hrequests⟩ := List.forall_mem_cons.mp hrequests
          obtain ⟨r, next, hleads, hnext⟩ := c.settles hstore (hfits 0) hrequest
          obtain ⟨service', hcall, hidle'⟩ := call_leads hwelcome hidle hleads
          obtain ⟨alone', hcallAlone, halone'⟩ := call_leads hwelcome halone hleads
          have hlater := ih hrequests hnext hidle' halone' fun n => by
            have hlast := hfits (n + 1)
            rw [List.take_succ_cons, List.map_cons, run, hcallAlone] at hlast
            exact hlast
          rw [List.map_cons, run, run, hcall, hcallAlone]
          simp only [hlater]

theorem newline_not_mem_welcome (h : '\n' ∉ s.host) : ∀ t ∈ s.welcome.lines, '\n' ∉ t := by
  have hvalues : ∀ v ∈ [s.host, s.portText, Payload.serverVersion, Payload.serverBuild],
      '\n' ∉ v := by
    simp only [List.forall_mem_cons]
    exact ⟨h, (isPlain_ofNat _).isOneLine.2, by decide, by decide, List.forall_mem_nil _⟩
  have htemplate : '\n' ∉ Payload.welcome := by decide
  have hpayload : ∀ c ∈ Template.render Payload.welcome
      [s.host, s.portText, Payload.serverVersion, Payload.serverBuild], c ≠ '\n' :=
    Template.forall_mem_render (fun c hc => ne_of_mem_of_not_mem hc htemplate)
      fun v hv c hc => ne_of_mem_of_not_mem hc (hvalues v hv)
  refine List.forall_mem_singleton.mpr fun hn => ?_
  rcases List.mem_append.mp hn with hmark | hn
  · exact absurd hmark (by decide)
  · rcases List.mem_cons.mp hn with hspace | hn
    · cases hspace
    · exact hpayload _ hn rfl

/-- It makes no difference to the calls of a service, nor to the store, where between them
connections are opened to be kept or closed, as long as the host that the session shows is no more
than one line. And a service that fetches the texts of entries one by one gets an entry with its
texts just when the entry is shown and these texts are listed, by a session that finds none of the
requests too long. -/
theorem run_callsOf {s : Session} (hhost : '\n' ∉ s.host)
    (hgreeting : ∀ t ∈ s.welcome.lines, t.FitsInMemory) {store : Store} (hstore : store.Reachable)
    {service : Service} (hidle : service.IsIdle) {calls : List Call}
    (hrequests : ∀ c ∈ calls, c.request.encode.FitsInMemory)
    (hfits : ∀ n,
      (run (Peer.ofSession s) ((calls.take n).map .call) service store).2.FitsInMemory)
    (hlisted : ∀ row ∈ store.rows, ∀ t ∈ row.2.strings, (stuff t).FitsInMemory) :
    let p := Peer.ofSession s
    (∀ steps, callsOf steps = calls →
      run p steps service store = run p (calls.map .call) service store) ∧
    (∀ id d, (∀ c ∈ .listStrings id :: textRequests id d.strings.length, s.Admits c) →
      ((service.call p (Exchange.getEntry p id true) store).1 = .ok d ↔
        (service.call p (Client.fillEntry p id) store).1 = .ok ⟨d.id, d.fields⟩ ∧
          (service.call p (Client.listStrings p id) store).1 = .ok d.strings)) ∧
    ∀ predicate ds, (Command.search predicate).encode.FitsInMemory →
      (∀ d ∈ ds, ∀ c ∈ .listStrings d.id :: textRequests d.id d.strings.length, s.Admits c) →
      ((service.call p (Exchange.queryDetailed p predicate true) store).1 = .ok ds ↔
        (service.call p (Client.queryEntries p predicate) store).1 =
            .ok (ds.map fun d => ⟨d.id, d.fields⟩) ∧
          ∀ d ∈ ds, (service.call p (Client.listStrings p d.id) store).1 = .ok d.strings) := by
  intro p
  have hwelcome : ∀ t ∈ s.welcome.lines, '\n' ∉ t ∧ t.FitsInMemory :=
    fun t ht => ⟨newline_not_mem_welcome hhost t ht, hgreeting t ht⟩
  have hsound := hstore.isSound
  have hfit : store.FitsInMemory := hfits 0
  have hlist := fun id ts =>
    call_eq_ok_iff hwelcome hidle (listStrings_yields (s := s) hsound hfit hlisted id) ts
  refine ⟨?_, fun id d hadmits => ?_, fun predicate ds hrequest hadmits => ?_⟩
  · rintro steps rfl
    exact run_callsOf_eq hwelcome hrequests hsound hidle hidle hfits
  · obtain ⟨hadmitsList, hadmits⟩ := List.forall_mem_cons.mp hadmits
    rw [call_eq_ok_iff hwelcome hidle (getEntry_yields hsound hfit id),
      call_eq_ok_iff hwelcome hidle (fillEntry_yields hsound hfit id), hlist]
    refine and_congr_right fun _ => ⟨fun ⟨htexts, hid, _⟩ => ⟨hid, hadmitsList, htexts⟩, ?_⟩
    rintro ⟨hid, -, htexts⟩
    exact ⟨htexts, hid, hadmits⟩
  · rw [call_eq_ok_iff hwelcome hidle (queryDetailed_yields hsound hfit hrequest),
      call_eq_ok_iff hwelcome hidle (queryEntries_yields hsound hfit hrequest)]
    simp only [Except.ok.injEq, and_assoc]
    refine and_congr_right fun _ => and_congr_right fun _ => and_congr eq_comm ?_
    refine forall₂_congr fun d hd => ?_
    obtain ⟨hadmitsList, hadmits⟩ := List.forall_mem_cons.mp (hadmits d hd)
    rw [hlist]
    refine ⟨fun ⟨htexts, hid, _⟩ => ⟨hid, hadmitsList, htexts⟩, ?_⟩
    rintro ⟨hid, -, htexts⟩
    exact ⟨htexts, hid, hadmits⟩

/-- On a connection that is kept a text is attached, a request is refused, and an entry is not even
sent; then it is closed, and the next call opens its own. The entry has a text that is a single dot,
and the host has a carriage return in it. -/
theorem run_callsOf_dot :
    let e : EntryFields :=
      { app := "a", site := "b", mach := "c", node := "d", port := 1, pid := 2, comp := "e",
        tag := "f" }
    let store : Store := ⟨[(1, ⟨e, ["."]⟩)], 2, List.pairwise_singleton _ _⟩
    let s : Session := ⟨"a\rb", 7, 100⟩
    let p := Peer.ofSession s
    let service : Service := { location := ⟨"here", 7⟩, attempts := 1 }
    let calls : List Call :=
      [.addString 1 "y", .deleteEntry 9, .addEntry { e with tag := "\n" }, .getEntry 1 true]
    let steps : List Step :=
      [.connect, .connect, .call (.addString 1 "y"), .call (.deleteEntry 9),
        .call (.addEntry { e with tag := "\n" }), .disconnect, .call (.getEntry 1 true)]
    '\n' ∉ s.host ∧ store.Reachable ∧ service.IsIdle ∧ callsOf steps = calls ∧
      run p steps service store = run p (calls.map .call) service store ∧
      (run p steps service store).1.getLast? = some (.ok (.entry ⟨1, e, [".", "y"]⟩)) ∧
      (service.call p (Exchange.getEntry p 1 true) store).1 = .ok ⟨1, e, ["."]⟩ ∧
      (service.call p (Client.listStrings p 1) store).1 = .ok ["."] := by
  intro e store s p service calls steps
  have hhost : '\n' ∉ s.host := by decide
  have hcreated : Store.Reachable ⟨[(1, ⟨e, []⟩)], 2, List.pairwise_singleton _ _⟩ :=
    Store.Reachable.start.execute (s := s) (c := .create (.ofFields e)) (by decide) (by decide)
      (o := .goOn (Session.success Payload.created [Session.idText 1])) rfl
  have hstore : store.Reachable :=
    hcreated.execute (s := s) (c := .addString 1 ".") (by decide) (by decide)
      (o := .goOn (Session.success Payload.stringAdded [Session.natText 1])) rfl
  have hidle : service.IsIdle := nofun
  have hfits : ∀ n, (run p ((calls.take n).map .call) service store).2.FitsInMemory := by
    have hfirst : ∀ n ≤ 4, (run p ((calls.take n).map .call) service store).2.FitsInMemory := by
      decide +kernel
    intro n
    rcases Nat.le_total n 4 with hn | hn
    · exact hfirst n hn
    · rw [List.take_of_length_le (show calls.length ≤ n from hn)]
      exact hfirst 4 (Nat.le_refl 4)
  have hlisted : ∀ row ∈ store.rows, ∀ t ∈ row.2.strings, (stuff t).FitsInMemory := by decide
  obtain ⟨hscript, hentry, -⟩ :=
    run_callsOf hhost (by decide) hstore hidle (by decide : ∀ c ∈ calls, _) hfits hlisted
  have hsame := hscript steps rfl
  have hget : (service.call p (Exchange.getEntry p 1 true) store).1 = .ok ⟨1, e, ["."]⟩ := by
    decide +kernel
  refine ⟨hhost, hstore, hidle, rfl, hsame, ?_, hget, ((hentry 1 _ (by decide)).mp hget).2⟩
  rw [hsame]
  decide +kernel

/-- The host has a line feed in it. What is left of the greeting is taken for the reply to the first
request, on every connection. If the connection is kept, the second call gets the reply to the first
one. -/
theorem run_callsOf_ne :
    let e : EntryFields :=
      { app := "a", site := "b", mach := "c", node := "d", port := 1, pid := 2, comp := "e",
        tag := "f" }
    let s : Session := ⟨"a\nb", 7, 100⟩
    let p := Peer.ofSession s
    let service : Service := { location := ⟨"here", 7⟩, attempts := 1 }
    let calls : List Call := [.addEntry e, .addEntry e]
    let rest : Text := "b:7 PERISCOPE registry server ver. 0.1.0 (-)"
    (∅ : Store).Reachable ∧ service.IsIdle ∧ (∀ c ∈ calls, s.Admits c.request) ∧
      (run p (calls.map .call) service ∅).1 = [.error (.protocol rest), .error (.protocol rest)] ∧
      (run p (.connect :: calls.map .call) service ∅).1 =
        [.error (.protocol rest), .ok (.id 1)] := by
  intro e s p service calls rest
  refine ⟨Store.Reachable.start, nofun, by decide, ?_, ?_⟩
  · decide +kernel
  · decide +kernel

end Service

end ToolRegistry
