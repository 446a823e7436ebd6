import ToolRegistry.Proofs.KeptConnections

/-!
# What a call says on its connection

A call on a service is a conversation of one request or many. What it asks for
next may depend on what it has been told, so there is no list of its requests
beforehand. There is a plan (`Plan`): an operation, and for each value of it the
plan for the rest. A call does what its plan says (`Call.exchange_eq`), and a plan
ends in one of three ways. It is done, an operation is refused on the spot because
of its arguments, or an operation fails once it has been sent.

`asked` is the list of requests that have been sent by then, and it is read off
the plan: what has been refused on the spot is not in it, and nothing is behind
the first that fails. The one thing to prove is that the link has sent those lines
and no others (`Plan.sends`). That is so against any peer, because sending is what
an operation does in one place only. Whatever comes back, all the rest of it
reads (`collect_silent`).
-/

namespace ToolRegistry

open Wire

variable {ω α β : Type}

/-! ## What happens to a link and to a peer -/

/-- The lines that are sent in these events. -/
def Event.sentIn (events : List Event) : List Text :=
  events.filterMap fun
    | .sent line => some line
    | _ => none

/-- The lines that have been sent on a link, oldest first. -/
def Link.sentLines (l : Link) : List Text := Event.sentIn l.events

namespace Link

theorem sentLines_note_sent (l : Link) (line : Text) :
    (l.note (.sent line)).sentLines = l.sentLines ++ [line] := by
  simp [sentLines, Event.sentIn, note]

theorem sentLines_receive (l : Link) : l.receive.2.sentLines = l.sentLines := by
  rw [receive]
  split <;> simp [sentLines, Event.sentIn, note]

theorem sentLines_send (p : Peer ω) (line : Text) (l : Link) (w : ω) :
    (l.send p line w).1.sentLines = l.sentLines ++ [line] := by
  rw [← sentLines_note_sent, send]
  split <;> rfl

end Link

/-- From one moment to another the peer has accepted so many connections. It may have been dialled
in vain besides, and lines may have come to it. -/
inductive Peer.Accepts (p : Peer ω) : Nat → ω → ω → Prop where
  | still (w : ω) : p.Accepts 0 w w
  | answered {n : Nat} {w w' : ω} (h : p.Accepts n w w') (target : Location) (line : Text) :
      p.Accepts n w (p.answer target line w').2
  | refused {n : Nat} {w w' w'' : ω} (h : p.Accepts n w w') {target : Location} {e : SystemError}
      (hdial : p.dial target w' = (.error e, w'')) : p.Accepts n w w''
  | accepted {n : Nat} {w w' w'' : ω} (h : p.Accepts n w w') {target : Location} {bytes : Bytes}
      (hdial : p.dial target w' = (.ok bytes, w'')) : p.Accepts (n + 1) w w''

theorem Peer.Accepts.trans {p : Peer ω} {n m : Nat} {w w' w'' : ω} (h : p.Accepts n w w')
    (h' : p.Accepts m w' w'') : p.Accepts (n + m) w w'' := by
  induction h' with
  | still => exact h
  | answered _ target line ih => exact (ih h).answered target line
  | refused _ hdial ih => exact (ih h).refused hdial
  | accepted _ hdial ih => exact (ih h).accepted hdial

theorem Link.accepts_send (p : Peer ω) (line : Text) (l : Link) (w : ω) :
    p.Accepts 0 w (l.send p line w).2 := by
  rw [send]
  split
  · exact (Peer.Accepts.still w).answered _ _
  · exact .still w

namespace Exchange

/-! ## Saying some lines -/

/-- Whatever comes of the exchange, these lines are sent and no others, on the connection that it is
given. -/
def Sends (p : Peer ω) (x : Exchange ω α) (l : Link) (w : ω) (lines : List Text) : Prop :=
  ∃ r l' w', x.carryOut l w = (r, l', w') ∧ l'.sentLines = l.sentLines ++ lines ∧
    p.Accepts 0 w w'

/-- The exchange sends nothing. -/
def IsSilent (p : Peer ω) (x : Exchange ω α) : Prop := ∀ l w, x.Sends p l w []

variable {p : Peer ω} {x : Exchange ω α} {f : α → Exchange ω β}

namespace IsSilent

theorem pure (a : α) : (Pure.pure a : Exchange ω α).IsSilent p :=
  fun l w => ⟨_, l, w, rfl, (List.append_nil _).symm, .still w⟩

theorem lift (r : Except RegistryError α) : (liftM r : Exchange ω α).IsSilent p :=
  fun l w => ⟨r, l, w, rfl, (List.append_nil _).symm, .still w⟩

theorem reading {g : Link → Except RegistryError α × Link}
    (hg : ∀ l, (g l).2.sentLines = l.sentLines) : (Exchange.reading g : Exchange ω α).IsSilent p :=
  fun l w => ⟨_, _, w, rfl, (hg l).trans (List.append_nil _).symm, .still w⟩

end IsSilent

/-- What has been sent before a failure has been sent. The rest is sent only behind a value. -/
theorem Sends.bind {l : Link} {w : ω} {lines more : List Text} (hx : x.Sends p l w lines)
    (hok : ∀ a l' w', x.carryOut l w = (.ok a, l', w') → (f a).Sends p l' w' more)
    (herror : ∀ e l' w', x.carryOut l w = (.error e, l', w') → more = []) :
    (x >>= f).Sends p l w (lines ++ more) := by
  obtain ⟨r, l', w', hrun, hsent, hpeer⟩ := hx
  cases r with
  | error e =>
      rw [herror e l' w' hrun, List.append_nil]
      exact ⟨.error e, l', w', by rw [carryOut_bind, hrun], hsent, hpeer⟩
  | ok a =>
      obtain ⟨r, l'', w'', hrun', hsent', hpeer'⟩ := hok a l' w' hrun
      refine ⟨r, l'', w'', by rw [carryOut_bind, hrun]; exact hrun', ?_, hpeer.trans hpeer'⟩
      rw [hsent', hsent, List.append_assoc]

theorem Sends.bind_silent {l : Link} {w : ω} {lines : List Text} (hx : x.Sends p l w lines)
    (hf : ∀ a, (f a).IsSilent p) : (x >>= f).Sends p l w lines := by
  rw [← List.append_nil lines]
  exact hx.bind (fun a l' w' _ => hf a l' w') fun _ _ _ _ => rfl

namespace IsSilent

theorem bind (hx : x.IsSilent p) (hf : ∀ a, (f a).IsSilent p) : (x >>= f).IsSilent p :=
  fun l w => (hx l w).bind_silent hf

theorem map (hx : x.IsSilent p) (g : α → β) : (g <$> x).IsSilent p := by
  rw [map_eq_pure_bind]
  exact hx.bind fun a => pure (g a)

theorem tryCatch {handler : RegistryError → Exchange ω α} (hx : x.IsSilent p)
    (hhandler : ∀ e, (handler e).IsSilent p) :
    (MonadExcept.tryCatch x handler : Exchange ω α).IsSilent p := by
  intro l w
  obtain ⟨r, l', w', hrun, hsent, hpeer⟩ := hx l w
  cases r with
  | ok a => exact ⟨.ok a, l', w', by rw [carryOut_tryCatch, hrun], hsent, hpeer⟩
  | error e =>
      obtain ⟨r, l'', w'', hrun', hsent', hpeer'⟩ := hhandler e l' w'
      refine ⟨r, l'', w'', by rw [carryOut_tryCatch, hrun]; exact hrun', ?_, hpeer.trans hpeer'⟩
      rw [hsent', hsent, List.append_nil]

end IsSilent

theorem readLine_silent : (Exchange.readLine : Exchange ω Text).IsSilent p :=
  .reading Link.sentLines_receive

theorem sentLines_takeBody (l : Link) : (takeBody l).2.sentLines = l.sentLines := by
  have hread : ∀ {l l' : Link} {r : Except RegistryError Text}, l.receive = (r, l') →
      l'.sentLines = l.sentLines := by
    intro l l' r h
    rw [← l.sentLines_receive, h]
  -- By the lines of the body: each is read on its own, up to the terminator or to a failure.
  fun_induction takeBody l with
  | case1 l e l' h => exact hread h
  | case2 l l' h => exact hread h
  | case3 l line l' h _ e l'' hrest ih =>
      rw [hrest] at ih
      exact ih.trans (hread h)
  | case4 l line l' h _ lines l'' hrest ih =>
      rw [hrest] at ih
      exact ih.trans (hread h)

theorem readBody_silent : (readBody : Exchange ω (List Text)).IsSilent p :=
  .reading sentLines_takeBody

theorem readEntries_silent : (readEntries : Exchange ω (List EntryRecord)).IsSilent p :=
  readBody_silent.bind fun _ => .lift _

theorem sends_sendLine (p : Peer ω) (line : Text) (l : Link) (w : ω) :
    (sendLine p line).Sends p l w [line] :=
  ⟨.ok (), _, _, rfl, l.sentLines_send p line w, l.accepts_send p line w⟩

theorem sends_request (p : Peer ω) (c : Command) (l : Link) (w : ω) :
    (request p c).Sends p l w [c.encode] := by
  refine (sends_sendLine p c.encode l w).bind_silent fun _ => readLine_silent.bind fun line => ?_
  split
  · exact .pure _
  · exact .lift (.error _)
  · exact .lift (.error _)

/-- To close a connection is to send one line, whatever is answered. -/
theorem sends_close (p : Peer ω) (l : Link) (w : ω) :
    (Client.close p).Sends p l w [Command.quit.encode] := by
  refine (sends_sendLine p _ l w).bind_silent fun _ => (readLine_silent.map _).tryCatch fun e => ?_
  cases e with
  | disconnected => exact .pure false
  | _ => exact .lift (.error _)

end Exchange

/-! ## Operations -/

namespace Operation

open Exchange

variable {p : Peer ω}

theorem collect_silent (op : Operation α) (payload : Text) :
    (op.collect payload : Exchange ω α).IsSilent p := by
  cases op with
  | createEntry | changeEntry | deleteEntry => exact (IsSilent.lift _).bind fun _ => .pure _
  | queryEntries | listEntries => exact readEntries_silent
  | openEntry => exact readEntries_silent.bind fun _ => .pure _
  | fillEntry => exact readLine_silent.bind fun _ => .lift _
  | clean | storeString | countStrings => exact .lift _
  | getStringAt => exact readLine_silent
  | deleteString => exact .pure _
  | listStrings | help => exact readBody_silent

/-- An operation that is not refused on the spot sends its command, whatever is answered. -/
theorem call_sends {op : Operation α} (hcheck : op.check = .ok ()) (p : Peer ω) (l : Link) (w : ω) :
    (op.call p).Sends p l w [op.command.encode] := by
  rw [call_eq, hcheck]
  exact (sends_request p op.command l w).bind_silent op.collect_silent

theorem call_rejected {op : Operation α} {e : RegistryError} (hcheck : op.check = .error e)
    (p : Peer ω) (l : Link) (w : ω) : (op.call p).carryOut l w = (.error e, l, w) := by
  rw [call_eq, hcheck]
  rfl

theorem command_ne_quit (op : Operation α) : op.command.kind ≠ .quit := by cases op <;> nofun

end Operation

/-! ## Plans -/

/-- Operations one after the other, each chosen by what the ones before have answered. -/
inductive Plan (α : Type) : Type 1 where
  | done (a : α)
  | ask {β : Type} (op : Operation β) (next : β → Plan α)

namespace Plan

/-- A plan, and then the one that its value leads to. -/
def bind : Plan α → (α → Plan β) → Plan β
  | done a, f => f a
  | ask op next, f => ask op fun b => (next b).bind f

instance : Monad Plan where
  pure := done
  bind := bind

/-- A single operation. -/
def single (op : Operation α) : Plan α := ask op done

/-- What a client does that carries out a plan. -/
def exchange (p : Peer ω) : Plan α → Exchange ω α
  | done a => pure a
  | ask op next => op.call p >>= fun b => (next b).exchange p

/-- The requests that are sent. An operation whose arguments are refused sends none, and behind one
that fails there are none. -/
def asked (p : Peer ω) : Plan α → Link → ω → List Command
  | done _, _, _ => []
  | ask op next, l, w =>
      match op.check with
      | .error _ => []
      | .ok () =>
          match (op.call p).carryOut l w with
          | (.error _, _, _) => [op.command]
          | (.ok b, l, w) => op.command :: (next b).asked p l w

variable {p : Peer ω}

theorem exchange_pure (a : α) : (pure a : Plan α).exchange p = pure a := rfl

theorem exchange_single (op : Operation α) : (single op).exchange p = op.call p := bind_pure _

theorem exchange_bind (x : Plan α) (f : α → Plan β) :
    (x >>= f).exchange p = x.exchange p >>= fun a => (f a).exchange p := by
  show (x.bind f).exchange p = _
  induction x with
  | done a => rw [exchange, pure_bind, bind]
  | ask op next ih => simp only [exchange, bind, bind_assoc, ih]

theorem exchange_map (f : α → β) (x : Plan α) : (f <$> x).exchange p = f <$> x.exchange p := by
  show (x >>= fun a => pure (f a)).exchange p = _
  rw [exchange_bind, map_eq_pure_bind]
  rfl

/-- The requests that are sent are one line each, and none of them ends the session. -/
theorem asked_sound (x : Plan α) (l : Link) (w : ω) :
    ∀ c ∈ x.asked p l w, c.encode.IsOneLine ∧ c.kind ≠ .quit := by
  induction x generalizing l w with
  | done a => exact List.forall_mem_nil _
  | ask op next ih =>
      rw [asked]
      split
      · exact List.forall_mem_nil _
      · next hcheck =>
          have hop : op.command.encode.IsOneLine ∧ op.command.kind ≠ .quit :=
            ⟨isOneLine_encodable (Operation.check_eq_ok.mp hcheck), op.command_ne_quit⟩
          split
          · exact List.forall_mem_singleton.mpr hop
          · exact List.forall_mem_cons.mpr ⟨hop, ih _ _ _⟩

/-- Against any peer, the lines of a plan are those of the requests that are sent. -/
theorem sends (x : Plan α) (l : Link) (w : ω) :
    (x.exchange p).Sends p l w ((x.asked p l w).map Command.encode) := by
  -- The rest of a plan begins where the operation has left the link and the peer.
  induction x generalizing l w with
  | done a => exact Exchange.IsSilent.pure a l w
  | ask op next ih =>
      simp only [asked, exchange]
      cases hcheck : op.check with
      | error e =>
          -- Refused on the spot: nothing has happened to the link.
          refine ⟨.error e, l, w, ?_, (List.append_nil _).symm, .still w⟩
          rw [Exchange.carryOut_bind, Operation.call_rejected hcheck]
      | ok =>
          have hcall := Operation.call_sends hcheck p l w
          rcases hrun : (op.call p).carryOut l w with ⟨e | b, l', w'⟩
          · refine hcall.bind (fun b l₁ w₁ h => ?_) fun _ _ _ _ => rfl
            cases hrun.symm.trans h
          · refine hcall.bind (fun b' l₁ w₁ h => ?_) fun e l₁ w₁ h => ?_
            · cases hrun.symm.trans h
              exact ih b l' w'
            · cases hrun.symm.trans h

/-! ## The plans of a service -/

/-- The texts at `count` positions from `pos` on. -/
def stringsFrom (id : EntryId) : Nat → Nat → Plan (List Text)
  | _, 0 => return []
  | pos, count + 1 => do
      let t ← single (.getStringAt id (UInt64.ofNat pos))
      let rest ← stringsFrom id (pos + 1) count
      return t :: rest

/-- The number of texts of an entry, and then each of them. -/
def fetchStrings (id : EntryId) : Plan (List Text) := do
  let count ← single (.countStrings id)
  stringsFrom id 1 count

/-- An entry with its texts, if they are asked for. -/
def detail (withStrings : Bool) (id : EntryId) (r : EntryRecord) : Plan DetailedEntry := do
  if withStrings then
    let strings ← fetchStrings id
    return { DetailedEntry.ofRecord r with strings }
  else return .ofRecord r

/-- Entries one after the other, with their texts, if they are asked for. -/
def detailAll (withStrings : Bool) : List EntryRecord → Plan (List DetailedEntry)
  | [] => return []
  | r :: rest => do
      let d ← detail withStrings r.id r
      let ds ← detailAll withStrings rest
      return d :: ds

theorem exchange_stringsFrom (id : EntryId) (pos count : Nat) :
    (stringsFrom id pos count).exchange p = Exchange.stringsFrom p id pos count := by
  induction count generalizing pos with
  | zero => rfl
  | succ count ih =>
      simp only [stringsFrom, Exchange.stringsFrom, exchange_bind, exchange_single, ih,
        exchange_pure]
      rfl

theorem exchange_fetchStrings (id : EntryId) :
    (fetchStrings id).exchange p = Exchange.fetchStrings p id := by
  simp only [fetchStrings, Exchange.fetchStrings, exchange_bind, exchange_single,
    exchange_stringsFrom]
  rfl

theorem exchange_detail (withStrings : Bool) (id : EntryId) (r : EntryRecord) :
    (detail withStrings id r).exchange p =
      if withStrings then do
        let strings ← Exchange.fetchStrings p id
        return { DetailedEntry.ofRecord r with strings }
      else return .ofRecord r := by
  cases withStrings with
  | false => rfl
  | true =>
      simp only [detail, if_true, exchange_bind, exchange_fetchStrings]
      rfl

theorem exchange_detailAll (withStrings : Bool) (records : List EntryRecord) :
    (detailAll withStrings records).exchange p = Exchange.detailAll p withStrings records := by
  induction records with
  | nil => rfl
  | cons r rest ih =>
      simp only [detailAll, Exchange.detailAll, exchange_bind, exchange_detail, ih]
      rfl

end Plan

namespace Service.Call

/-- What a call asks for. -/
def plan : Call → Plan Answer
  | addEntry e => .id <$> Plan.single (.createEntry e)
  | deleteEntry id => (fun _ => .done) <$> Plan.single (.deleteEntry id)
  | changeEntry id fields => (fun _ => .done) <$> Plan.single (.changeEntry id fields)
  | addString id t => .position <$> Plan.single (.storeString id t)
  | getEntry id withStrings =>
      .entry <$> (Plan.single (.fillEntry id) >>= Plan.detail withStrings id)
  | queryEntries predicate withStrings =>
      .entries <$> (Plan.single (.queryEntries predicate) >>= Plan.detailAll withStrings)

/-- A call does what its plan says. -/
theorem exchange_eq (c : Call) (p : Peer ω) : c.exchange p = c.plan.exchange p := by
  cases c with
  | addEntry | deleteEntry | changeEntry | addString =>
      simp only [exchange, plan, Plan.exchange_map, Plan.exchange_single]
      rfl
  | getEntry id withStrings =>
      simp only [exchange, plan, Plan.exchange_map, Plan.exchange_bind, Plan.exchange_single,
        Plan.exchange_detail]
      rfl
  | queryEntries predicate withStrings =>
      simp only [exchange, plan, Plan.exchange_map, Plan.exchange_bind, Plan.exchange_single,
        Plan.exchange_detailAll]
      rfl

end Service.Call

end ToolRegistry
