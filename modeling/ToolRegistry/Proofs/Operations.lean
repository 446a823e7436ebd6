import ToolRegistry.Proofs.Answers

/-!
# Operations, on the wire and in the store

A client has one function for each thing that it can ask for. Here these
functions are values (`Operation`), each with the type of its answer, so that
one can speak of all of them at once: what a client does (`call`), the command
that it sends, and what the store does when it is asked directly (`perform`).

A call has three parts. The client checks its arguments, then it sends the
command and reads a status line, and at last it collects the answer from the
payload and from what follows (`call_eq`). The registry has only one part in
this, to carry out the command. Its reply tells the value that the store has
answered (`execute_command`), and the client collects exactly that value from it
(`collect_sent`).
-/

namespace ToolRegistry

open Wire Exchange

/-- Something that a client can ask for, with the type of the answer. -/
inductive Operation : Type → Type where
  | createEntry (e : EntryFields) : Operation EntryId
  | changeEntry (id : EntryId) (s : FieldSet) : Operation EntryId
  | deleteEntry (id : EntryId) : Operation EntryId
  | queryEntries (s : FieldSet) : Operation (List EntryRecord)
  /-- The first entry that agrees with some values. -/
  | openEntry (s : FieldSet) : Operation (Option EntryId)
  | listEntries : Operation (List EntryRecord)
  | fillEntry (id : EntryId) : Operation EntryRecord
  | clean : Operation Nat
  | storeString (id : EntryId) (t : Text) : Operation Nat
  | countStrings (id : EntryId) : Operation Nat
  | getStringAt (id : EntryId) (pos : UInt64) : Operation Text
  | deleteString (id : EntryId) (pos : UInt64) : Operation Unit
  | listStrings (id : EntryId) : Operation (List Text)
  /-- The commands, as the registry describes them. -/
  | help : Operation (List Text)

namespace Operation

variable {ω α : Type}

/-- What a client does. -/
def call (p : Peer ω) : Operation α → Exchange ω α
  | createEntry e => Client.createEntry p e
  | changeEntry id s => Client.changeEntry p id s
  | deleteEntry id => Client.deleteEntry p id
  | queryEntries s => Client.queryEntries p s
  | openEntry s => Client.openEntry p s
  | listEntries => Client.listEntries p
  | fillEntry id => Client.fillEntry p id
  | clean => Client.clean p
  | storeString id t => Client.storeString p id t
  | countStrings id => Client.countStrings p id
  | getStringAt id pos => Client.getStringAt p id pos
  | deleteString id pos => Client.deleteString p id pos
  | listStrings id => Client.listStrings p id
  | help => Client.help p

/-- The command that a client sends. -/
def command : Operation α → Command
  | createEntry e => .create (.ofFields e)
  | changeEntry id s => .change id s
  | deleteEntry id => .delete id
  | queryEntries s | openEntry s => .search s
  | listEntries => .list
  | fillEntry id => .fetch id
  | clean => .clean
  | storeString id t => .addString id t
  | countStrings id => .countStrings id
  | getStringAt id pos => .getString id pos
  | deleteString id pos => .deleteString id pos
  | listStrings id => .listStrings id
  | help => .help

/-- What the store does when it is asked directly: the answer and the store afterwards. -/
def perform (store : Store) : Operation α → Except StoreError (α × Store)
  | createEntry e => store.create (.ofFields e)
  | changeEntry id s => store.change id s
  | deleteEntry id => store.delete id
  | queryEntries s => .ok (store.search s, store)
  | openEntry s => .ok ((store.search s).head?.map EntryRecord.id, store)
  | listEntries => .ok (store.list, store)
  | fillEntry id => (store.fetch id).map (·, store)
  | clean => .ok store.clear
  | storeString id t => store.addString id t
  | countStrings id => (store.countStrings id).map (·, store)
  | getStringAt id pos => (store.getString id pos).map (·, store)
  | deleteString id pos => (store.deleteString id pos).map ((), ·)
  | listStrings id => (store.listStrings id).map (·, store)
  | help => .ok (CommandKind.all.map Session.helpLine, store)

/-! ## The three parts of a call -/

/-- What a client checks before it sends anything. -/
def check : Operation α → Except RegistryError Unit
  | createEntry e => Client.checkSet (.ofFields e)
  | changeEntry _ s | queryEntries s | openEntry s => Client.checkSet s
  | storeString _ t =>
      if t = [] then .error (.badFormat .emptyString) else Client.checkText "string" t
  | _ => .ok ()

/-- How a client gets the answer from a successful reply with this payload. -/
def collect (payload : Text) : Operation α → Exchange ω α
  | createEntry _ => do return UInt32.ofNat (← liftM (firstNumber 32 Payload.created payload))
  | changeEntry _ _ => do return UInt32.ofNat (← liftM (firstNumber 32 Payload.changed payload))
  | deleteEntry _ => do return UInt32.ofNat (← liftM (firstNumber 32 Payload.deleted payload))
  | queryEntries _ | listEntries => readEntries
  | openEntry _ => do return (← readEntries).head?.map EntryRecord.id
  | fillEntry _ => do liftM (entryOf (← readLine))
  | clean => liftM (firstNumber 64 Payload.cleaned payload)
  | storeString _ _ => liftM (firstNumber 64 Payload.stringAdded payload)
  | countStrings _ => liftM (firstNumber 64 Payload.stringsCounted payload)
  | getStringAt _ _ => readLine
  | deleteString _ _ => return ()
  | listStrings _ | help => readBody

/-- A call checks, asks and collects. -/
theorem call_eq (p : Peer ω) (op : Operation α) :
    op.call p = (liftM op.check >>= fun _ => request p op.command >>= (op.collect ·)) := by
  cases op with
  | openEntry s =>
      simp only [call, Client.openEntry, Client.queryEntries, bind_assoc]
      rfl
  | storeString id t =>
      simp only [call, Client.storeString, check]
      split <;> rfl
  | _ => rfl

theorem call_leads {p : Peer ω} {op : Operation α} (hcheck : op.check = .ok ())
    {s s' s'' : Standing ω} {payload : Text} {r : Except RegistryError α}
    (hask : (request p op.command).Leads s (.ok payload) s')
    (hcollect : (op.collect payload : Exchange ω α).Leads s' r s'') :
    (op.call p).Leads s r s'' := by
  rw [call_eq, hcheck]
  exact (Leads.lift (.ok ())).bind (hask.bind hcollect)

theorem call_leads_error {p : Peer ω} {op : Operation α} (hcheck : op.check = .ok ())
    {s s' : Standing ω} {e : RegistryError}
    (hask : (request p op.command).Leads s (.error e) s') : (op.call p).Leads s (.error e) s' := by
  rw [call_eq, hcheck]
  exact (Leads.lift (.ok ())).bind hask.bind_error

/-! ## The registry's part -/

/-- The payload of the reply that tells an answer. -/
def payload : Operation α → α → Text
  | createEntry _, id => Template.render Payload.created [Session.idText id]
  | changeEntry id _, _ => Template.render Payload.changed [Session.idText id]
  | deleteEntry id, _ => Template.render Payload.deleted [Session.idText id]
  | queryEntries _, _ | openEntry _, _ => Payload.found
  | listEntries, records => Template.render Payload.listed [Session.natText records.length]
  | fillEntry id, _ => Template.render Payload.fetched [Session.idText id]
  | clean, n => Template.render Payload.cleaned [Session.natText n]
  | storeString _ _, n => Template.render Payload.stringAdded [Session.natText n]
  | countStrings id, n =>
      Template.render Payload.stringsCounted [Session.natText n, Session.idText id]
  | getStringAt id pos, t =>
      Template.render Payload.stringFetched
        [Session.posText pos, Session.idText id, Session.natText (Utf8.encode t).length]
  | deleteString id pos, _ =>
      Template.render Payload.stringDeleted [Session.posText pos, Session.idText id]
  | listStrings id, ts =>
      Template.render Payload.stringsListed [Session.natText ts.length, Session.idText id]
  | help, _ => Payload.help

/-- The number of texts that an answer tells of, which is the position of a new one. -/
def counted : Operation α → α → Nat
  | storeString _ _, n | countStrings _, n => n
  | _, _ => 0

theorem isPlain_payload (op : Operation α) (v : α) : (op.payload v).IsPlain := by
  have hrender : ∀ {template : Text} (ns : List Nat), template.IsPlain →
      Text.IsPlain (Template.render template (ns.map Decimal.ofNat)) := by
    intro template ns ht
    refine Template.forall_mem_render ht fun t hmem => ?_
    obtain ⟨n, -, rfl⟩ := List.mem_map.mp hmem
    exact isPlain_ofNat n
  cases op with rw [payload]
  | queryEntries | openEntry | help => decide
  | createEntry | changeEntry | deleteEntry | listEntries | fillEntry | clean | storeString =>
      exact hrender [_] (by decide)
  | countStrings | deleteString | listStrings => exact hrender [_, _] (by decide)
  | getStringAt => exact hrender [_, _, _] (by decide)

/-- The reply that tells an answer: the status line and what follows it. -/
def reply (store : Store) (op : Operation α) (v : α) : Reply :=
  ⟨(Status.ok (op.payload v)).line :: (Session.following store op.command).sent⟩

/-- A session does what the store does, and tells what the store answers. -/
theorem execute_command (s : Session) (store : Store) (op : Operation α) :
    s.execute op.command store =
      (op.perform store).map fun answer => (.goOn (op.reply store answer.1), answer.2) := by
  cases op with
  | queryEntries | openEntry | listEntries | clean | help => rfl
  | createEntry e =>
      simp only [Session.execute, command, perform]
      cases store.create (.ofFields e) <;> rfl
  | changeEntry id fields =>
      simp only [Session.execute, command, perform]
      cases store.change id fields <;> rfl
  | deleteEntry id =>
      simp only [Session.execute, command, perform]
      cases store.delete id <;> rfl
  | storeString id t =>
      simp only [Session.execute, command, perform]
      cases store.addString id t <;> rfl
  | countStrings id =>
      simp only [Session.execute, command, perform]
      cases store.countStrings id <;> rfl
  | deleteString id pos =>
      simp only [Session.execute, command, perform]
      cases store.deleteString id pos <;> rfl
  | fillEntry id =>
      simp only [Session.execute, command, perform, reply, Session.following]
      cases store.fetch id <;> rfl
  | getStringAt id pos =>
      simp only [Session.execute, command, perform, reply, Session.following]
      cases store.getString id pos <;> rfl
  | listStrings id =>
      simp only [Session.execute, command, perform, reply, Session.following]
      cases store.listStrings id <;> rfl

end Operation

/-! ## The client's part -/

/-- No entry has more texts than a signed number of 64 bits can count, which is what positions and
counts are read as. -/
def Store.CountsStrings (s : Store) : Prop := ∀ row ∈ s.rows, row.2.strings.length < 2 ^ 63

instance (s : Store) : Decidable s.CountsStrings :=
  inferInstanceAs (Decidable (∀ row ∈ s.rows, _))

theorem Store.mem_put_self {s : Store} {id : EntryId} {old : Stored} (h : (id, old) ∈ s.rows)
    (new : Stored) : (id, new) ∈ (s.put id new).rows :=
  List.mem_map.mpr ⟨(id, old), h, if_pos rfl⟩

theorem Store.CountsStrings.addString {s s' : Store} {id : EntryId} {t : Text} {n : Nat}
    (h : s'.CountsStrings) (ha : s.addString id t = .ok (n, s')) : n < 2 ^ 63 := by
  obtain ⟨stored, hfind, rfl, rfl⟩ := Store.addString_eq_ok ha
  have hcount := h _ (Store.mem_put_self (Store.mem_of_find? hfind) _)
  rwa [List.length_append] at hcount

theorem Store.CountsStrings.countStrings {s : Store} {id : EntryId} {n : Nat}
    (h : s.CountsStrings) (hc : s.countStrings id = .ok n) : n < 2 ^ 63 := by
  obtain ⟨stored, hget, hc⟩ := Except.bind_eq_ok.mp hc
  cases hc
  exact h _ (Store.get_eq_ok hget)

theorem Store.change_id {s s' : Store} {id r : EntryId} {fields : FieldSet}
    (h : s.change id fields = .ok (r, s')) : r = id := by
  obtain ⟨_, -, -, hid, -⟩ := Store.change_eq_ok h
  exact hid

theorem Store.delete_id {s s' : Store} {id r : EntryId} (h : s.delete id = .ok (r, s')) :
    r = id := by
  obtain ⟨_, -, hid, -⟩ := Store.delete_eq_ok h
  exact hid

namespace Exchange

variable {ω : Type} {s s' : Standing ω}

theorem Leads.lift_ok {α : Type} {r : Except RegistryError α} {a : α} (h : r = .ok a) :
    (liftM r : Exchange ω α).Leads s (.ok a) s := h ▸ Leads.lift r

/-- The lines of some entries are read as these entries. -/
theorem mapM_entryOf {records : List EntryRecord}
    (h : ∀ r ∈ records, r.fields.AllTexts ('"' ∉ ·)) :
    (records.map formatEntryLine).mapM entryOf = .ok records := by
  induction records with
  | nil => rfl
  | cons r records ih =>
      obtain ⟨hr, hrest⟩ := List.forall_mem_cons.mp h
      have hentry : entryOf (formatEntryLine r) = .ok r := by
        simp only [entryOf, parse_formatEntryLine hr]
      rw [List.map_cons, List.mapM_cons, hentry, ih hrest]
      rfl

theorem Leads.readEntries {records : List EntryRecord}
    (h : ∀ r ∈ records, r.fields.AllTexts IsEncodable)
    (hfit : ∀ t ∈ bodyLines (records.map formatEntryLine), t.FitsInMemory) {rest : Bytes}
    {listening : Bool} {w : ω} :
    (Exchange.readEntries : Exchange ω (List EntryRecord)).Leads
      ⟨lineBytes (bodyLines (records.map formatEntryLine)) ++ rest, listening, w⟩ (.ok records)
      ⟨rest, listening, w⟩ := by
  refine Leads.bind (Leads.readBody (fun t ht => ?_) hfit)
    (Leads.lift_ok (mapM_entryOf fun r hr => (h r hr).mono fun _ hu => hu.1))
  obtain ⟨r, hr, rfl⟩ := List.mem_map.mp ht
  exact isOneLine_formatEntryLine ((h r hr).mono fun _ hu => hu.2)

end Exchange

namespace Operation

variable {ω α : Type}

/-- An answer tells of as many texts as some entry has. -/
theorem counted_lt {store next : Store} {op : Operation α} {v : α}
    (hv : op.perform store = .ok (v, next)) (hcount : next.CountsStrings) :
    op.counted v < 2 ^ 63 := by
  cases op with
  | storeString id t => exact hcount.addString hv
  | countStrings id =>
      obtain ⟨n, hn, hv⟩ := Except.map_eq_ok.mp hv
      cases hv
      exact hcount.countStrings hn
  | _ => exact Nat.two_pow_pos 63

/-- A client collects the answer that a reply tells, and nothing behind the reply. -/
theorem collect_sent {store next : Store} (hstore : store.IsSound) {op : Operation α} {v : α}
    (hv : op.perform store = .ok (v, next)) (hcount : op.counted v < 2 ^ 63)
    (hfit : ∀ t ∈ (Session.following store op.command).sent, t.FitsInMemory) {rest : Bytes}
    {listening : Bool} {w : ω} :
    (op.collect (op.payload v) : Exchange ω α).Leads
      ⟨lineBytes (Session.following store op.command).sent ++ rest, listening, w⟩ (.ok v)
      ⟨rest, listening, w⟩ := by
  have hid : ∀ id : EntryId, id.toNat < 2 ^ 32 ∧ id.toNat < 2 ^ 63 := by
    intro id
    have := id.toNat_lt
    omega
  cases op with
  | createEntry e =>
      have hnumber := Template.firstNumber_single Template.pieces_created (by decide)
        (hid v).2 (hid v).1
      refine (Leads.lift_ok hnumber).bind ?_
      rw [UInt32.ofNat_toNat]
      exact Leads.pure v
  | changeEntry id fields =>
      have hnumber := Template.firstNumber_single Template.pieces_changed (by decide)
        (hid id).2 (hid id).1
      refine (Leads.lift_ok hnumber).bind ?_
      rw [UInt32.ofNat_toNat, Store.change_id hv]
      exact Leads.pure id
  | deleteEntry id =>
      have hnumber := Template.firstNumber_single Template.pieces_deleted (by decide)
        (hid id).2 (hid id).1
      refine (Leads.lift_ok hnumber).bind ?_
      rw [UInt32.ofNat_toNat, Store.delete_id hv]
      exact Leads.pure id
  | clean =>
      have hsize : v < 2 ^ 63 := by
        cases hv
        exact Nat.lt_of_le_of_lt store.size_le (by decide)
      exact Leads.lift_ok (Template.firstNumber_single Template.pieces_cleaned (by decide)
        hsize (by omega))
  | storeString id t =>
      have hn : v < 2 ^ 63 := hcount
      exact Leads.lift_ok (Template.firstNumber_single Template.pieces_stringAdded (by decide)
        hn (by omega))
  | countStrings id =>
      have hn : v < 2 ^ 63 := hcount
      refine Leads.lift_ok (Template.firstNumber_render Template.pieces_stringsCounted
        (by decide) v [id.toNat] rfl ?_ (by omega))
      exact List.forall_mem_cons.mpr ⟨hn, List.forall_mem_singleton.mpr (hid id).2⟩
  | queryEntries fields =>
      cases hv
      exact Leads.readEntries (fun r hr => (hstore.search hr).2) hfit
  | listEntries =>
      cases hv
      exact Leads.readEntries (fun r hr => (hstore.search hr).2) hfit
  | openEntry fields =>
      cases hv
      exact (Leads.readEntries (fun r hr => (hstore.search hr).2) hfit).bind (Leads.pure _)
  | fillEntry id =>
      obtain ⟨r, hr, hv⟩ := Except.map_eq_ok.mp hv
      cases hv
      simp only [command, Session.following, hr] at hfit ⊢
      have htexts := (hstore.fetch hr).2
      have hread : entryOf (formatEntryLine v) = .ok v := by
        simp only [entryOf, parse_formatEntryLine (htexts.mono fun _ hu => hu.1)]
      rw [Following.sent, lineBytes_cons, lineBytes_nil, List.append_assoc]
      exact (Leads.readLine_line (isOneLine_formatEntryLine (htexts.mono fun _ hu => hu.2))
        (hfit _ List.mem_cons_self)).bind (Leads.lift_ok hread)
  | getStringAt id pos =>
      obtain ⟨t, ht, hv⟩ := Except.map_eq_ok.mp hv
      cases hv
      simp only [command, Session.following, ht] at hfit ⊢
      rw [Following.sent, lineBytes_cons, lineBytes_nil, List.append_assoc]
      exact Leads.readLine_line (hstore.getString ht).2 (hfit _ List.mem_cons_self)
  | deleteString id pos => exact Leads.pure ()
  | listStrings id =>
      obtain ⟨ts, hts, hv⟩ := Except.map_eq_ok.mp hv
      cases hv
      simp only [command, Session.following, hts] at hfit ⊢
      exact Leads.readBody (fun t ht => (hstore.listStrings hts t ht).2) hfit
  | help =>
      cases hv
      exact Leads.readBody (Session.isOneLine_following hstore .help) hfit

end Operation

end ToolRegistry
