import ToolRegistry.Proofs.ServiceSessions
import ToolRegistry.Proofs.Streams

/-!
# Every call comes to an end

A client waits for its peer, and it waits in loops. It reads a body up to a line
that may never come, and it asks for as many texts as it was told that there
are, entry by entry. What ends all of this is the stream. A peer that closes the
connection has sent some bytes and no more, every read takes a line of them, and
the first read behind the last line fails with a failure that no loop goes on
after.

It does not matter when the bytes come, because a client that waits for them
gets the same ones. So a peer is looked at here that has all of its bytes ready
when the connection is opened (`Peer.IsPrepared`). On such a connection the lines
that have been received and the lines that are left are together always the
lines of the stream (`Link.Takes`). To count the reads of a call is then to count
those that find the end (`Exchange.Ends`), and it is one for an operation and one
more for the request to quit behind it.
-/

namespace ToolRegistry

open Wire

variable {ω α β : Type}

/-- All that the peer will ever send on a connection is there when it is opened. -/
def Peer.IsPrepared (p : Peer ω) : Prop := ∀ target line w, (p.answer target line w).1.1 = []

theorem Peer.isPrepared_scripted : Peer.scripted.IsPrepared := fun _ _ _ => rfl

/-! ## The lines of a stream -/

namespace Wire

/-- The lines that a client makes of some bytes. -/
def linesOf (bytes : Bytes) : List Text := (itemsOf Link.noLimit bytes).filterMap LineRead.text?

theorem linesOf_nil : linesOf [] = [] := by
  rw [linesOf, itemsOf_nil]
  rfl

/-- A client takes every line as it is: the greatest limit is as great as the window. -/
theorem readLine_noLimit {bytes : Bytes} (hne : bytes ≠ []) :
    ∃ t, (readLine Link.noLimit bytes).1 = .line t ∨
      (readLine Link.noLimit bytes).1 = .unterminated t := by
  have hwindow : window Link.noLimit = 2 ^ 64 - 1 := rfl
  generalize hkept : bytes.take (extent (window Link.noLimit) bytes) = kept
  have hlen : kept.length ≤ 2 ^ 64 - 1 := by
    rw [← hkept, List.length_take, extent, hwindow]
    omega
  have hpos : kept ≠ [] := by
    rw [← hkept]
    intro hnil
    have := extent_pos (window_pos Link.noLimit) bytes
    rcases List.take_eq_nil_iff.mp hnil with h | h
    · omega
    · exact hne h
  have hshort : ¬Link.noLimit.toNat <
      (dropFinalByte carriageReturn (dropFinalByte lineFeed kept)).length := by
    have h1 := length_dropFinalByte_le carriageReturn (dropFinalByte lineFeed kept)
    have h2 := length_dropFinalByte_le lineFeed kept
    rw [Link.noLimit_toNat]
    omega
  have hwhole : kept.getLast? = some lineFeed ∨
      kept.length ≤ saturatingAdd Link.noLimit 1 := .inr hlen
  simp only [readLine, hkept, classify_segment hpos hwhole, itemOf, if_neg hshort]
  split
  · exact ⟨_, .inl rfl⟩
  · exact ⟨_, .inr rfl⟩

theorem itemOf_noLimit {segment : Bytes} (hfit : segment.length < 2 ^ 64) :
    (itemOf Link.noLimit segment).text? = some (decodeLine segment) := by
  have h1 := length_dropFinalByte_le carriageReturn (dropFinalByte lineFeed segment)
  have h2 := length_dropFinalByte_le lineFeed segment
  rw [itemOf, if_neg (by rw [Link.noLimit_toNat]; omega)]
  split <;> rfl

/-- If every line can be held, the lines are those that the line feeds make. -/
theorem linesOf_segments {bytes : Bytes}
    (hfit : ∀ segment ∈ segments bytes, segment.length < 2 ^ 64) :
    linesOf bytes = (segments bytes).map decodeLine := by
  induction hseg : segments bytes generalizing bytes with
  | nil =>
      rw [eq_nil_of_segments hseg]
      exact linesOf_nil
  | cons segment more ih =>
      obtain ⟨hne, hbytes, hmore⟩ := segments_eq_cons hseg
      rw [hseg] at hfit
      obtain ⟨hsegment, hrest⟩ := List.forall_mem_cons.mp hfit
      have hbytes : bytes ≠ [] := by
        rw [hbytes]
        exact List.append_ne_nil_of_left_ne_nil hne _
      have ih := ih (by rwa [hmore]) hmore
      rw [linesOf, itemsOf_eq_cons hbytes, readLine_segment hsegment hseg,
        List.filterMap_cons_some (itemOf_noLimit hsegment), List.map_cons, ← ih]
      rfl

end Wire

/-! ## What happens on a link -/

namespace Event

/-- The lines that have been received. -/
def receivedIn (events : List Event) : List Text :=
  events.filterMap fun
    | .received line => some line
    | _ => none

/-- How often the end of the stream has been found. -/
def endsIn (events : List Event) : Nat := events.count .ended

/-- How often a line has been asked for. -/
def readsIn (events : List Event) : Nat := (receivedIn events).length + endsIn events

variable (a b : List Event)

theorem sentIn_append : sentIn (a ++ b) = sentIn a ++ sentIn b := List.filterMap_append

theorem receivedIn_append : receivedIn (a ++ b) = receivedIn a ++ receivedIn b :=
  List.filterMap_append

theorem endsIn_append : endsIn (a ++ b) = endsIn a + endsIn b := List.count_append

theorem readsIn_append : readsIn (a ++ b) = readsIn a + readsIn b := by
  rw [readsIn, readsIn, readsIn, receivedIn_append, endsIn_append, List.length_append]
  omega

end Event

open Event

/-- From one moment to another this has happened on a link on which no bytes have come in. The lines
that were left are those that have been received and those that are left now, and the end has been
found only where none are. -/
structure Link.Takes (l : Link) (happened : List Event) (l' : Link) : Prop where
  events : l'.events = l.events ++ happened
  lines : linesOf l.inbox = receivedIn happened ++ linesOf l'.inbox
  drained : 0 < endsIn happened → linesOf l'.inbox = []

namespace Link

variable {l l' l'' : Link} {happened more : List Event}

/-- What has happened has come to an end: no more lines have been sent than asked for, and the end
has been found so many times at most. -/
structure Spends (l : Link) (most : Nat) (happened : List Event) (l' : Link) : Prop
    extends l.Takes happened l' where
  paced : (sentIn happened).length ≤ readsIn happened
  ends : endsIn happened ≤ most

theorem Takes.refl (l : Link) : l.Takes [] l := ⟨(List.append_nil _).symm, rfl, fun h => by cases h⟩

theorem Takes.trans (h : l.Takes happened l') (h' : l'.Takes more l'') :
    l.Takes (happened ++ more) l'' where
  events := by rw [h'.events, h.events, List.append_assoc]
  lines := by rw [h.lines, h'.lines, receivedIn_append, List.append_assoc]
  drained := by
    intro hends
    rw [endsIn_append] at hends
    rcases Nat.eq_zero_or_pos (endsIn more) with hmore | hmore
    · -- The end has been found before, and behind the end there is nothing.
      have hnil := h.drained (by omega)
      rw [h'.lines] at hnil
      exact (List.append_eq_nil_iff.mp hnil).2
    · exact h'.drained hmore

/-- No line is read twice. -/
theorem Spends.reads_le {n : Nat} (h : l.Spends n happened l') :
    readsIn happened ≤ (linesOf l.inbox).length + n := by
  have hends := h.ends
  rw [readsIn, h.lines, List.length_append]
  omega

theorem Spends.trans {n m : Nat} (h : l.Spends n happened l') (h' : l'.Spends m more l'') :
    l.Spends (n + m) (happened ++ more) l'' where
  toTakes := h.toTakes.trans h'.toTakes
  paced := by
    rw [sentIn_append, readsIn_append, List.length_append]
    exact Nat.add_le_add h.paced h'.paced
  ends := by
    rw [endsIn_append]
    exact Nat.add_le_add h.ends h'.ends

theorem Spends.mono {n m : Nat} (h : l.Spends n happened l') (hm : n ≤ m) :
    l.Spends m happened l' :=
  ⟨h.toTakes, h.paced, Nat.le_trans h.ends hm⟩

/-- On a connection that has just been opened, everything that has happened is the link's. -/
theorem Spends.of_fresh {n m : Nat} (h : l.Spends n happened l') (hl : l.events = []) (hm : n ≤ m) :
    l.Spends m l'.events l' := by
  have hevents : l'.events = happened := by rw [h.events, hl, List.nil_append]
  rw [hevents]
  exact h.mono hm

/-- A read takes the next line, or there is none and it finds the end. -/
theorem receive_cases (l : Link) :
    (∃ l', l.receive = (.error .disconnected, l') ∧ l.Takes [.ended] l') ∨
      ∃ t l', l.receive = (.ok t, l') ∧ l.Takes [.received t] l' := by
  by_cases hne : l.inbox = []
  · left
    refine ⟨_, receive_end hne, rfl, rfl, fun _ => ?_⟩
    show linesOf l.inbox = []
    rw [hne, linesOf_nil]
  · right
    obtain ⟨t, hread⟩ := readLine_noLimit hne
    have hlines : linesOf l.inbox = t :: linesOf (readLine noLimit l.inbox).2 := by
      rw [linesOf, itemsOf_eq_cons hne]
      rcases hread with h | h <;> (rw [h]; rfl)
    rcases hitem : readLine noLimit l.inbox with ⟨item, rest⟩
    rw [hitem] at hread hlines
    refine ⟨t, { l with inbox := rest }.note (.received t), ?_, ?_⟩
    · rw [receive, hitem]
      rcases hread with rfl | rfl <;> rfl
    · exact ⟨rfl, hlines, fun h => by simp [endsIn] at h⟩

theorem takes_send {p : Peer ω} (hp : p.IsPrepared) (line : Text) (l : Link) (w : ω) :
    l.Takes [.sent line] (l.send p line w).1 := by
  have hinbox : (l.send p line w).1.inbox = l.inbox ∧
      (l.send p line w).1.events = l.events ++ [.sent line] := by
    rw [send]
    split
    · have hnothing := hp l.location line w
      rcases hanswer : p.answer l.location line w with ⟨⟨bytes, listening⟩, w'⟩
      rw [hanswer] at hnothing
      cases hnothing
      simp [note, hanswer]
    · exact ⟨rfl, rfl⟩
  refine ⟨hinbox.2, by rw [hinbox.1]; rfl, fun h => ?_⟩
  simp [endsIn] at h

end Link

/-! ## How exchanges end -/

/-- How an exchange has gone from which `r` has come. It has read so many lines more than it has
sent, and once the end has been found there was nothing else to be done. -/
structure Exchange.Ended (spare : Nat) (l : Link) (happened : List Event)
    (r : Except RegistryError α) (l' : Link) : Prop where
  takes : l.Takes happened l'
  paced : (sentIn happened).length + spare ≤ readsIn happened
  once : endsIn happened ≤ 1
  lost : 0 < endsIn happened → r = .error .disconnected

/-- However the exchange is begun, it ends. -/
def Exchange.Ends (spare : Nat) (x : Exchange ω α) : Prop :=
  ∀ l w, ∃ happened r l' w', x.carryOut l w = (r, l', w') ∧ Ended spare l happened r l'

namespace Exchange

variable {x : Exchange ω α} {f : α → Exchange ω β} {p : Peer ω}

namespace Ended

variable {n m : Nat} {l l' l'' : Link} {happened more : List Event} {r : Except RegistryError α}

theorem refl (r : Except RegistryError α) (l : Link) : Ended 0 l [] r l :=
  ⟨.refl l, Nat.le_refl _, Nat.zero_le _, fun h => by cases h⟩

theorem spends (h : Ended n l happened r l') : l.Spends 1 happened l' :=
  ⟨h.takes, Nat.le_trans (Nat.le_add_right _ n) h.paced, h.once⟩

theorem mono (h : Ended n l happened r l') (hm : m ≤ n) : Ended m l happened r l' := by
  have hpaced := h.paced
  exact ⟨h.takes, by omega, h.once, h.lost⟩

/-- What is made of the result does not matter, as long as the failure stays. -/
theorem result (h : Ended n l happened r l') {r' : Except RegistryError β}
    (hr : r = .error .disconnected → r' = .error .disconnected) : Ended n l happened r' l' :=
  ⟨h.takes, h.paced, h.once, fun hends => hr (h.lost hends)⟩

theorem error {e : RegistryError} (h : Ended n l happened (.error e : Except RegistryError α) l') :
    Ended n l happened (.error e : Except RegistryError β) l' :=
  h.result fun he => by cases he; rfl

theorem lost_of_mem (h : Ended n l happened r l') (hends : .ended ∈ happened) :
    r = .error .disconnected := h.lost (List.count_pos_iff.mpr hends)

/-- Behind a value the end has not been found yet. -/
theorem endsIn_eq_zero {a : α} (h : Ended n l happened (.ok a) l') : endsIn happened = 0 :=
  Nat.eq_zero_of_not_pos fun hends => by cases h.lost hends

theorem spends_ok {a : α} (h : Ended n l happened (.ok a) l') : l.Spends 0 happened l' :=
  { h.spends with ends := Nat.le_of_eq h.endsIn_eq_zero }

theorem trans {a : α} {r : Except RegistryError β} (h : Ended n l happened (.ok a) l')
    (h' : Ended m l' more r l'') : Ended (n + m) l (happened ++ more) r l'' := by
  have hnone := h.endsIn_eq_zero
  have hends : endsIn (happened ++ more) = endsIn more := by
    rw [endsIn_append, hnone, Nat.zero_add]
  refine ⟨h.takes.trans h'.takes, ?_, ?_, ?_⟩
  · have hpaced := h.paced
    have hpaced' := h'.paced
    rw [sentIn_append, readsIn_append, List.length_append]
    omega
  · rw [hends]
    exact h'.once
  · rw [hends]
    exact h'.lost

end Ended

namespace Ends

theorem mono {n m : Nat} (hx : x.Ends n) (h : m ≤ n) : x.Ends m := by
  intro l w
  obtain ⟨happened, r, l', w', hrun, hended⟩ := hx l w
  exact ⟨happened, r, l', w', hrun, hended.mono h⟩

theorem lift (r : Except RegistryError α) : (liftM r : Exchange ω α).Ends 0 :=
  fun l w => ⟨[], r, l, w, rfl, .refl r l⟩

theorem pure (a : α) : (Pure.pure a : Exchange ω α).Ends 0 := lift (.ok a)

theorem bind {n : Nat} (hx : x.Ends n) (hf : ∀ a, (f a).Ends 0) : (x >>= f).Ends n := by
  intro l w
  obtain ⟨happened, r, l', w', hrun, hended⟩ := hx l w
  cases r with
  | error e => exact ⟨happened, .error e, l', w', by rw [carryOut_bind, hrun], hended.error⟩
  | ok a =>
      obtain ⟨more, r, l'', w'', hrun', hended'⟩ := hf a l' w'
      exact ⟨happened ++ more, r, l'', w'', by rw [carryOut_bind, hrun]; exact hrun',
        hended.trans hended'⟩

theorem map {n : Nat} (hx : x.Ends n) (g : α → β) : (g <$> x).Ends n := by
  rw [map_eq_pure_bind]
  exact hx.bind fun a => pure (g a)

theorem reading {n : Nat} {g : Link → Except RegistryError α × Link}
    (hg : ∀ l, ∃ happened, Ended n l happened (g l).1 (g l).2) :
    (Exchange.reading g : Exchange ω α).Ends n := by
  intro l w
  obtain ⟨happened, hended⟩ := hg l
  exact ⟨happened, _, _, w, rfl, hended⟩

end Ends

/-- One line has been asked for. -/
theorem ended_receive (l : Link) : ∃ happened, Ended 1 l happened l.receive.1 l.receive.2 := by
  rcases l.receive_cases with ⟨l', hreceive, htakes⟩ | ⟨t, l', hreceive, htakes⟩
  · rw [hreceive]
    exact ⟨[.ended], htakes, by decide, by decide, fun _ => rfl⟩
  · rw [hreceive]
    refine ⟨[.received t], htakes, ?_, ?_, fun h => ?_⟩
    · exact Nat.le_refl 1
    · exact Nat.zero_le 1
    · cases h

/-- A body has been read up to its terminator, or the stream has ended before. -/
theorem ended_takeBody (l : Link) :
    ∃ happened, Ended 1 l happened (takeBody l).1 (takeBody l).2 := by
  have hread : ∀ {l l' : Link} {r : Except RegistryError Text}, l.receive = (r, l') →
      ∃ happened, Ended 1 l happened r l' := by
    intro l l' r h
    have hended := ended_receive l
    rwa [h] at hended
  -- By the lines of the body. After each of them the rest is a body again.
  fun_induction takeBody l with
  | case1 l e l' h =>
      obtain ⟨happened, hended⟩ := hread h
      exact ⟨happened, hended.error⟩
  | case2 l l' h =>
      obtain ⟨happened, hended⟩ := hread h
      exact ⟨_, hended.trans (.refl (.ok []) l')⟩
  | case3 l line l' h _ e l'' hrest ih =>
      obtain ⟨happened, hended⟩ := hread h
      obtain ⟨more, hended'⟩ := ih
      rw [hrest] at hended'
      exact ⟨_, (hended.trans hended').mono (by decide)⟩
  | case4 l line l' h _ lines l'' hrest ih =>
      obtain ⟨happened, hended⟩ := hread h
      obtain ⟨more, hended'⟩ := ih
      rw [hrest] at hended'
      exact ⟨_, ((hended.trans hended').mono (by decide)).result fun he => by cases he⟩

namespace Ends

theorem readLine : (Exchange.readLine : Exchange ω Text).Ends 1 := reading ended_receive

theorem readBody : (Exchange.readBody : Exchange ω (List Text)).Ends 1 := reading ended_takeBody

theorem readEntries : (Exchange.readEntries : Exchange ω (List EntryRecord)).Ends 1 :=
  readBody.bind fun _ => lift _

/-- A line is sent only to be answered: what comes behind it reads. -/
theorem sendLine (hp : p.IsPrepared) (line : Text) {x : Exchange ω α} (hx : x.Ends 1) :
    (Exchange.sendLine p line >>= fun _ => x).Ends 0 := by
  intro l w
  have htakes := l.takes_send hp line w
  rcases hsend : l.send p line w with ⟨l', w'⟩
  rw [hsend] at htakes
  obtain ⟨happened, r, l'', w'', hrun, hended⟩ := hx l' w'
  have hends : endsIn (.sent line :: happened) = endsIn happened := List.count_cons_of_ne (by simp)
  refine ⟨.sent line :: happened, r, l'', w'', ?_, htakes.trans hended.takes, ?_, ?_, ?_⟩
  · rw [carryOut_bind]
    show (match (Except.ok (), l.send p line w) with
      | (.ok _, l', w') => x.carryOut l' w'
      | (.error e, l', w') => (.error e, l', w')) = _
    rw [hsend]
    exact hrun
  · have hpaced : (sentIn happened).length + 1 ≤ (receivedIn happened).length + endsIn happened :=
      hended.paced
    show (sentIn happened).length + 1 ≤
      (receivedIn happened).length + endsIn (.sent line :: happened)
    rwa [hends]
  · rw [hends]
    exact hended.once
  · rw [hends]
    exact hended.lost

theorem request (hp : p.IsPrepared) (c : Command) : (Exchange.request p c).Ends 0 := by
  refine sendLine hp c.encode (readLine.bind fun line => ?_)
  split
  · exact pure _
  · exact lift (.error _)
  · exact lift (.error _)

end Ends

end Exchange

/-! ## Operations, raw lines and plans -/

namespace Operation

open Exchange

variable {p : Peer ω}

theorem ends_collect (op : Operation α) (payload : Text) :
    (op.collect payload : Exchange ω α).Ends 0 := by
  cases op with
  | createEntry | changeEntry | deleteEntry => exact (Ends.lift _).bind fun _ => .pure _
  | queryEntries | listEntries => exact Ends.readEntries.mono (by decide)
  | openEntry => exact (Ends.readEntries.mono (by decide)).bind fun _ => .pure _
  | fillEntry => exact (Ends.readLine.mono (by decide)).bind fun _ => .lift _
  | clean | storeString | countStrings => exact .lift _
  | getStringAt => exact Ends.readLine.mono (by decide)
  | deleteString => exact .pure _
  | listStrings | help => exact Ends.readBody.mono (by decide)

theorem ends_call (hp : p.IsPrepared) (op : Operation α) : (op.call p).Ends 0 := by
  rw [call_eq]
  exact (Ends.lift _).bind fun _ => (Ends.request hp _).bind op.ends_collect

end Operation

theorem Plan.ends {p : Peer ω} (hp : p.IsPrepared) (x : Plan α) : (x.exchange p).Ends 0 := by
  induction x with
  | done a => exact .pure a
  | ask op next ih => exact (op.ends_call hp).bind ih

namespace Client

open Exchange

variable {p : Peer ω}

theorem ends_raw (hp : p.IsPrepared) (line : Text) : (raw p line).Ends 0 := by
  rw [raw]
  split
  · exact Ends.lift (.error _)
  · refine .sendLine hp line (Ends.readLine.bind fun status => ?_)
    split
    · split
      · exact .pure _
      · exact (Ends.readLine.mono (by decide)).bind fun _ => .pure _
      · exact (Ends.readBody.mono (by decide)).bind fun _ => .pure _
    · exact .pure _

/-- To close a connection is to ask for one line, whatever becomes of it. -/
theorem close_spends (hp : p.IsPrepared) (l : Link) (w : ω) :
    ∃ happened r l' w', (close p).carryOut l w = (r, l', w') ∧ l.Spends 1 happened l' := by
  obtain ⟨happened, r, l', w', hrun, hended⟩ :=
    Ends.sendLine hp Command.quit.encode (Ends.readLine.map tellsOk) l w
  -- The failure that tells of the end is caught, but by then the line has been asked for.
  have hclose : ∃ r', (close p).carryOut l w = (r', l', w') := by
    rw [carryOut_bind] at hrun
    rw [close, carryOut_bind]
    generalize (Exchange.sendLine p Command.quit.encode).carryOut l w = begun at hrun ⊢
    obtain ⟨e | _, l₁, w₁⟩ := begun
    · cases hrun
      exact ⟨_, rfl⟩
    · simp only at hrun ⊢
      rw [carryOut_tryCatch, hrun]
      cases r with
      | ok confirmed => exact ⟨_, rfl⟩
      | error e => cases e <;> exact ⟨_, rfl⟩
  obtain ⟨r', hclose⟩ := hclose
  exact ⟨happened, r', l', w', hclose, hended.spends⟩

/-- To read the greeting is to ask for one line. -/
theorem ended_greet (l : Link) : ∃ happened, Ended 1 l happened (greet l).1 (greet l).2 := by
  obtain ⟨happened, hended⟩ := ended_receive l
  rw [greet]
  generalize l.receive = read at hended ⊢
  obtain ⟨e | line, l'⟩ := read
  · exact ⟨happened, hended.error⟩
  · simp only
    split <;> exact ⟨happened, hended.result fun he => by cases he⟩

end Client

theorem Exchange.Ends.perform {x : Exchange ω α} (hx : x.Ends 0) (c : Client) (w : ω) :
    ∃ happened r l' w', c.perform x w = (r, { c with link := l' }, w') ∧
      c.link.Spends 1 happened l' := by
  obtain ⟨happened, r, l', w', hrun, hended⟩ := hx c.link w
  exact ⟨happened, r, l', w', by rw [Client.perform, hrun], hended.spends⟩

theorem Client.close_perform {p : Peer ω} (hp : p.IsPrepared) (c : Client) (w : ω) :
    ∃ happened r l' w', c.perform (close p) w = (r, { c with link := l' }, w') ∧
      c.link.Spends 1 happened l' := by
  obtain ⟨happened, r, l', w', hrun, hspends⟩ := close_spends hp c.link w
  exact ⟨happened, r, l', w', by rw [Client.perform, hrun], hspends⟩

theorem dial_fresh {p : Peer ω} {target : Location} {attempts : Nat} {w w' : ω} {l : Link}
    (h : dial p target attempts w = (.ok l, w')) : l.events = [] := by
  rw [dial] at h
  split at h
  · cases h
    rfl
  · cases h

namespace Service

variable {p : Peer ω} {s : Service} {w : ω}

/-- What a step of a service does with connections: it uses none, or one that it opens for itself,
or the one that is kept. -/
inductive Uses (p : Peer ω) (s : Service) (w : ω) (s' : Service) : Prop where
  | none (h : s'.links = s.links)
  | fresh {l : Link} {w₁ : ω} {l' : Link} (hdial : dial p s.location s.attempts w = (.ok l, w₁))
      (hspends : l.Spends 2 l'.events l') (hlinks : s'.links = s.links ++ [l'])
  | kept {c : Client} {happened : List Event} {l' : Link} (hkept : s.client = some c)
      (hspends : c.link.Spends 1 happened l') (hlinks : s'.links = s.past ++ [l'])

theorem links_forget (s : Service) (l : Link) : (s.forget l).links = s.past ++ [l] := by
  simp [links, forget]

theorem links_fresh (hs : s.client = none) (l : Link) : (s.forget l).links = s.links ++ [l] := by
  simp [links, forget, hs]

theorem uses_call (hp : p.IsPrepared) {x : Exchange ω α} (hx : x.Ends 0) (s : Service) (w : ω) :
    s.Uses p w (s.call p x w).2.1 := by
  rw [call]
  cases hs : s.client with
  | some c =>
      obtain ⟨happened, r, l', w', hperform, hspends⟩ := hx.perform c w
      simp only [hperform]
      refine .kept hs hspends ?_
      split
      · exact s.links_forget l'
      · rfl
  | none =>
      simp only [openClient]
      rcases hdial : dial p s.location s.attempts w with ⟨e | l, w₁⟩
      · exact .none rfl
      · have hfresh := dial_fresh hdial
        simp only
        obtain ⟨greeted, hgreeted⟩ := Client.ended_greet l
        rcases hgreet : Client.greet l with ⟨e | welcome, l₁⟩
        · rw [hgreet] at hgreeted
          simp only
          exact .fresh hdial (hgreeted.spends.of_fresh hfresh (by decide)) (links_fresh hs l₁)
        · rw [hgreet] at hgreeted
          obtain ⟨happened, r, l₂, w₂, hperform, hspends⟩ := hx.perform ⟨l₁, welcome⟩ w₁
          obtain ⟨closed, r', l₃, w₃, hclose, hclosed⟩ := Client.close_perform hp ⟨l₂, welcome⟩ w₂
          simp only [hperform, hclose]
          have hwhole := (hgreeted.spends_ok.trans hspends).trans hclosed
          exact .fresh hdial (hwhole.of_fresh hfresh (by decide)) (links_fresh hs l₃)

theorem uses_connect (s : Service) (w : ω) : s.Uses p w (s.connect p w).2.1 := by
  rw [connect]
  cases hs : s.client with
  | some c =>
      simp only [isConnected, hs, Option.isSome_some, if_true]
      exact .none rfl
  | none =>
      simp only [isConnected, hs, Option.isSome_none, Bool.false_eq_true, if_false, openClient]
      rcases hdial : dial p s.location s.attempts w with ⟨e | l, w₁⟩
      · exact .none rfl
      · obtain ⟨greeted, hgreeted⟩ := Client.ended_greet l
        have hspends := hgreeted.spends.of_fresh (dial_fresh hdial) (show 1 ≤ 2 by decide)
        simp only
        rcases hgreet : Client.greet l with ⟨e | welcome, l₁⟩
        · rw [hgreet] at hspends
          exact .fresh hdial hspends (links_fresh hs l₁)
        · rw [hgreet] at hspends
          exact .fresh hdial hspends (by simp [links, hs])

theorem uses_disconnect (hp : p.IsPrepared) (s : Service) (w : ω) :
    s.Uses p w (s.disconnect p w).2.1 := by
  rw [disconnect]
  cases hs : s.client with
  | none => exact .none rfl
  | some c =>
      obtain ⟨happened, r, l', w', hclose, hspends⟩ := Client.close_perform hp c w
      simp only [hclose]
      exact .kept hs hspends (s.links_forget l')

theorem uses_step (hp : p.IsPrepared) (a : Step) (s : Service) (w : ω) :
    s.Uses p w (s.step p a w).1 := by
  cases a with
  | connect => exact s.uses_connect w
  | disconnect => exact s.uses_disconnect hp w
  | call c =>
      rw [step, c.exchange_eq]
      exact uses_call hp (c.plan.ends hp) s w

end Service

/-! ## Bodies -/

namespace Link

theorem events_receive {l l' : Link} {t : Text} (h : l.receive = (.ok t, l')) :
    l'.events = l.events ++ [.received t] := by
  rcases l.receive_cases with ⟨l₁, hreceive, -⟩ | ⟨u, l₁, hreceive, htakes⟩
  · cases h.symm.trans hreceive
  · cases h.symm.trans hreceive
    exact htakes.events

end Link

namespace Exchange

/-- A body that has been read has ended in its terminator. -/
theorem takeBody_eq_ok {l l' : Link} {lines : List Text} (h : takeBody l = (.ok lines, l')) :
    ∃ body : List Text, l'.events = l.events ++ (body ++ [terminator]).map .received := by
  fun_induction takeBody l generalizing lines with
  | case1 => cases h
  | case2 l l₁ hread =>
      cases h
      exact ⟨[], Link.events_receive hread⟩
  | case3 => cases h
  | case4 l line l₁ hread _ rest l₂ hrest ih =>
      cases h
      obtain ⟨body, hbody⟩ := ih hrest
      refine ⟨line :: body, ?_⟩
      rw [hbody, Link.events_receive hread]
      simp

theorem carryOut_bind_eq_ok {x : Exchange ω α} {f : α → Exchange ω β} {l l' : Link} {w w' : ω}
    {b : β} (h : (x >>= f).carryOut l w = (.ok b, l', w')) :
    ∃ a l₁ w₁, x.carryOut l w = (.ok a, l₁, w₁) ∧ (f a).carryOut l₁ w₁ = (.ok b, l', w') := by
  rw [carryOut_bind] at h
  rcases hx : x.carryOut l w with ⟨e | a, l₁, w₁⟩
  · rw [hx] at h
    cases h
  · rw [hx] at h
    exact ⟨a, l₁, w₁, rfl, h⟩

theorem carryOut_lift_eq_ok {r : Except RegistryError α} {a : α} {l l' : Link} {w w' : ω}
    (h : (liftM r : Exchange ω α).carryOut l w = (.ok a, l', w')) : l' = l := by
  have hrun : (r, l, w) = (.ok a, l', w') := h
  exact (Prod.mk.inj (Prod.mk.inj hrun).2).1.symm

theorem carryOut_sendLine_eq_ok {p : Peer ω} (hp : p.IsPrepared) {line : Text} {l l' : Link}
    {w w' : ω} {a : Unit} (h : (sendLine p line).carryOut l w = (.ok a, l', w')) :
    l'.events = l.events ++ [.sent line] := by
  have hrun : (.ok (), l.send p line w) = ((.ok a : Except RegistryError Unit), l', w') := h
  have hevents := (l.takes_send hp line w).events
  rwa [(Prod.mk.inj hrun).2] at hevents

theorem carryOut_readLine_eq_ok {l l' : Link} {w w' : ω} {t : Text}
    (h : (readLine : Exchange ω Text).carryOut l w = (.ok t, l', w')) :
    l'.events = l.events ++ [.received t] := by
  have hrun : (l.receive.1, l.receive.2, w) = (.ok t, l', w') := h
  obtain ⟨hr, hl⟩ := Prod.mk.inj hrun
  exact Link.events_receive (Prod.ext hr (Prod.mk.inj hl).1)

theorem carryOut_readBody_eq_ok {l l' : Link} {w w' : ω} {lines : List Text}
    (h : (readBody : Exchange ω (List Text)).carryOut l w = (.ok lines, l', w')) :
    ∃ body : List Text, l'.events = l.events ++ (body ++ [terminator]).map .received := by
  have hbody : ((takeBody l).1, (takeBody l).2, w) =
      ((.ok lines : Except RegistryError _), l', w') := h
  obtain ⟨hr, hl⟩ := Prod.mk.inj hbody
  exact takeBody_eq_ok (Prod.ext hr (Prod.mk.inj hl).1)

end Exchange

namespace Operation

open Exchange

/-- What is answered in a body is answered only if the body has ended. -/
theorem collect_body_eq_ok {op : Operation α} (hbody : Client.tailOf op.command.kind = .body)
    {payload : Text} {l l' : Link} {w w' : ω} {v : α}
    (h : (op.collect payload : Exchange ω α).carryOut l w = (.ok v, l', w')) :
    ∃ body : List Text, l'.events = l.events ++ (body ++ [terminator]).map .received := by
  have hentries : ∀ {records : List EntryRecord} {l' : Link} {w' : ω},
      (readEntries : Exchange ω (List EntryRecord)).carryOut l w = (.ok records, l', w') →
      ∃ body : List Text, l'.events = l.events ++ (body ++ [terminator]).map .received := by
    intro records l' w' h
    obtain ⟨lines, l₁, w₁, hread, h⟩ := carryOut_bind_eq_ok h
    rw [carryOut_lift_eq_ok h]
    exact carryOut_readBody_eq_ok hread
  cases op with
  | queryEntries | listEntries => exact hentries h
  | openEntry =>
      obtain ⟨records, l₁, w₁, hread, h⟩ := carryOut_bind_eq_ok h
      cases h
      exact hentries hread
  | listStrings | help => exact carryOut_readBody_eq_ok h
  | _ => cases hbody

theorem call_body_eq_ok {p : Peer ω} (hp : p.IsPrepared) {op : Operation α}
    (hbody : Client.tailOf op.command.kind = .body) {l l' : Link} {w w' : ω} {v : α}
    (h : (op.call p).carryOut l w = (.ok v, l', w')) :
    ∃ (status : Text) (body : List Text), l'.events = l.events ++ .sent op.command.encode ::
      .received status :: (body ++ [terminator]).map .received := by
  rw [call_eq] at h
  obtain ⟨_, l₀, w₀, hcheck, h⟩ := carryOut_bind_eq_ok h
  obtain ⟨payload, l₃, w₃, hrequest, hcollect⟩ := carryOut_bind_eq_ok h
  obtain ⟨body, hevents⟩ := collect_body_eq_ok hbody hcollect
  obtain ⟨_, l₁, w₁, hsend, hrequest⟩ := carryOut_bind_eq_ok hrequest
  obtain ⟨status, l₂, w₂, hread, hjudge⟩ := carryOut_bind_eq_ok hrequest
  have hstill : l₃ = l₂ := by
    split at hjudge
    · exact carryOut_lift_eq_ok (r := .ok _) hjudge
    · cases hjudge
    · cases hjudge
  refine ⟨status, body, ?_⟩
  rw [hevents, hstill, carryOut_readLine_eq_ok hread, carryOut_sendLine_eq_ok hp hsend,
    carryOut_lift_eq_ok hcheck]
  simp

end Operation

/-! ## Calls -/

/-- Against a peer that has sent all that it will ever send, every call ends. An operation and a raw
line take the lines that they read off the stream, and at the end of the stream they fail; a request
to quit may find the end once more. So there are as many reads as there are lines, and one or two. A
step of a service is bounded alike, however many texts it has been promised, and no more requests
are sent than lines are asked for. What comes in a body is answered only if its terminator has been
read. The lines are those between line feeds, as long as each of them can be held. -/
theorem calls_end {p : Peer ω} (hp : p.IsPrepared) :
    (∀ {α : Type} (op : Operation α) (l : Link) (w : ω), ∃ happened r l' w',
      (op.call p).carryOut l w = (r, l', w') ∧ l.Spends 1 happened l' ∧
      readsIn happened ≤ (linesOf l.inbox).length + 1 ∧
      (.ended ∈ happened → r = .error .disconnected) ∧
      (Client.tailOf op.command.kind = .body → ∀ v, r = .ok v →
        ∃ (status : Text) (body : List Text), happened = .sent op.command.encode ::
          .received status :: (body ++ [terminator]).map .received)) ∧
    (∀ (line : Text) (l : Link) (w : ω), ∃ happened r l' w',
      (Client.raw p line).carryOut l w = (r, l', w') ∧ l.Spends 1 happened l' ∧
      readsIn happened ≤ (linesOf l.inbox).length + 1 ∧
      (.ended ∈ happened → r = .error .disconnected)) ∧
    (∀ (l : Link) (w : ω), ∃ happened r l' w',
      (Client.close p).carryOut l w = (r, l', w') ∧ l.Spends 1 happened l' ∧
      readsIn happened ≤ (linesOf l.inbox).length + 1) ∧
    (∀ (a : Service.Step) (s s' : Service) (w w' : ω), s.step p a w = (s', w') →
      s'.links = s.links ∨
      (∃ l w₁ l', dial p s.location s.attempts w = (.ok l, w₁) ∧ s'.links = s.links ++ [l'] ∧
        l.Spends 2 l'.events l' ∧ readsIn l'.events ≤ (linesOf l.inbox).length + 2) ∨
      ∃ c happened l', s.client = some c ∧ s'.links = s.past ++ [l'] ∧
        c.link.Spends 1 happened l' ∧ readsIn happened ≤ (linesOf c.link.inbox).length + 1) ∧
    ∀ bytes : Bytes, (∀ segment ∈ segments bytes, segment.length < 2 ^ 64) →
      linesOf bytes = (segments bytes).map decodeLine := by
  refine ⟨fun {α} op l w => ?_, fun line l w => ?_, fun l w => ?_, fun a s s' w w' hstep => ?_,
    fun bytes => linesOf_segments⟩
  · obtain ⟨happened, r, l', w', hrun, hended⟩ := op.ends_call hp l w
    refine ⟨happened, r, l', w', hrun, hended.spends, hended.spends.reads_le, hended.lost_of_mem,
      fun hbody v hr => ?_⟩
    subst hr
    obtain ⟨status, body, hevents⟩ := Operation.call_body_eq_ok hp hbody hrun
    rw [hended.takes.events] at hevents
    exact ⟨status, body, List.append_cancel_left hevents⟩
  · obtain ⟨happened, r, l', w', hrun, hended⟩ := Client.ends_raw hp line l w
    exact ⟨happened, r, l', w', hrun, hended.spends, hended.spends.reads_le, hended.lost_of_mem⟩
  · obtain ⟨happened, r, l', w', hrun, hspends⟩ := Client.close_spends hp l w
    exact ⟨happened, r, l', w', hrun, hspends, hspends.reads_le⟩
  · have huses := s.uses_step hp a w
    rw [hstep] at huses
    rcases huses with hlinks | ⟨hdial, hspends, hlinks⟩ | ⟨hkept, hspends, hlinks⟩
    · exact .inl hlinks
    · exact .inr (.inl ⟨_, _, _, hdial, hlinks, hspends, hspends.reads_le⟩)
    · exact .inr (.inr ⟨_, _, _, hkept, hlinks, hspends, hspends.reads_le⟩)

/-- The peer promises as many texts as a client can count and ends the stream in the second. There
are nine reads for seven lines: the call finds the end, and so does the request to quit. A body with
a line of two dots is answered once its terminator has been read, and what follows it is left. -/
theorem calls_end_promised :
    let e : EntryFields :=
      { app := "a", site := "b", mach := "c", node := "d", port := 1, pid := 2, comp := "e",
        tag := "f" }
    let p : Peer (List Bytes) := .scripted
    let s : Service := { location := ⟨"here", 7⟩, attempts := 1 }
    let told : List Text := ["+OK", "+OK", formatEntryLine ⟨1, e⟩,
      "+OK 9223372036854775807 strings stored for entry 1", "+OK", "x", "+OK"]
    let l : Link := {
      location := s.location
      inbox := []
      events := [.received "+OK", .sent "SHOW 1", .received "+OK",
        .received (formatEntryLine ⟨1, e⟩), .sent "COUNTSTR 1",
        .received "+OK 9223372036854775807 strings stored for entry 1", .sent "GETSTR 1 1",
        .received "+OK", .received "x", .sent "GETSTR 1 2", .received "+OK", .ended, .sent "QUIT",
        .ended] }
    let texts : Operation (List Text) := .listStrings 1
    let kept : Link := {
      location := s.location
      inbox := lineBytes ["+OK", "..", "a", ".", "b"] }
    p.IsPrepared ∧
      s.step p (.call (.getEntry 1 true)) [lineBytes told] = (s.forget l, []) ∧
      readsIn l.events = 9 ∧ (linesOf (lineBytes told)).length = 7 ∧
      readsIn l.events ≤ (linesOf (lineBytes told)).length + 2 ∧
      Client.tailOf texts.command.kind = .body ∧
      ((texts.call p).carryOut kept []).1 = .ok [".", "a"] ∧
      ∃ (l' : Link) (status : Text) (body : List Text), ((texts.call p).carryOut kept []).2.1 = l' ∧
        l'.events = .sent "LISTSTR 1" :: .received status ::
          (body ++ [terminator]).map .received := by
  intro e p s told l texts kept
  obtain ⟨hcall, -, -, hstep, hlines⟩ := calls_end (p := p) Peer.isPrepared_scripted
  have hget : s.step p (.call (.getEntry 1 true)) [lineBytes told] = (s.forget l, []) := by
    decide +kernel
  have hseven : linesOf (lineBytes told) = (segments (lineBytes told)).map decodeLine :=
    hlines _ (by decide +kernel)
  have hfresh : dial p s.location s.attempts [lineBytes told] =
      (.ok { location := s.location, inbox := lineBytes told }, []) := rfl
  have hbound : readsIn l.events ≤ (linesOf (lineBytes told)).length + 2 := by
    rcases hstep _ _ _ _ _ hget with hlinks | ⟨l₀, w₁, l', hdial, hlinks, -, hreads⟩ |
      ⟨c, happened, l', hkept, -⟩
    · cases hlinks
    · cases hfresh.symm.trans hdial
      cases hlinks
      exact hreads
    · cases hkept
  obtain ⟨happened, r, l', w', hrun, hspends, -, -, hbody⟩ := hcall texts kept []
  have hanswer : ((texts.call p).carryOut kept []).1 = .ok [".", "a"] := by decide +kernel
  rw [hrun] at hanswer
  obtain ⟨status, body, hhappened⟩ := hbody rfl _ hanswer
  refine ⟨Peer.isPrepared_scripted, hget, rfl, ?_, hbound, rfl, by rw [hrun]; exact hanswer, l',
    status, body, by rw [hrun], ?_⟩
  · rw [hseven]
    decide +kernel
  · rw [hspends.events, hhappened]
    rfl

end ToolRegistry
