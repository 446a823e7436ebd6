import ToolRegistry.Client.Operations
import ToolRegistry.Proofs.Framing

/-!
# How exchanges run

What an exchange does depends on three things only: what has arrived and not
been read, whether the peer still listens, and the state of the peer. Together
they are a `Standing`. The rest of a link, where it leads and what has happened
on it, is carried along and never looked at. `Leads` says that an exchange,
begun where things stand in one way, ends with a result where they stand in
another, and there is one law for each way to put exchanges together.

The laws for reading a line come in three forms, by how much of the line has
arrived: the whole line, a part of it before the end of the stream, or nothing.
Reading a body follows from them by induction on the lines of the body.
-/

namespace ToolRegistry

open Wire

variable {ω α β : Type}

/-- How things stand on a connection. -/
structure Standing (ω : Type) where
  /-- What has arrived and has not been read. -/
  inbox : Bytes
  /-- Whether the peer still listens. -/
  listening : Bool
  peer : ω

/-- How things stand on a link to a peer. -/
def Link.standing (l : Link) (w : ω) : Standing ω := ⟨l.inbox, l.listening, w⟩

namespace Exchange

/-- The rest of an exchange is carried out if what comes before it ends with a value. -/
theorem carryOut_bind (x : Exchange ω α) (f : α → Exchange ω β) (l : Link) (w : ω) :
    (x >>= f).carryOut l w =
      match x.carryOut l w with
      | (.ok a, l', w') => (f a).carryOut l' w'
      | (.error e, l', w') => (.error e, l', w') := by
  simp only [carryOut, ExceptT.run, Bind.bind, ExceptT.bind, ExceptT.mk, StateT.bind]
  rcases x (l, w) with ⟨a | e, l', w'⟩ <;> rfl

/-- A failure is handed to the handler, with the link and the peer as the exchange left them. -/
theorem carryOut_tryCatch (x : Exchange ω α) (handler : RegistryError → Exchange ω α) (l : Link)
    (w : ω) :
    (tryCatch x handler : Exchange ω α).carryOut l w =
      match x.carryOut l w with
      | (.ok a, l', w') => (.ok a, l', w')
      | (.error e, l', w') => (handler e).carryOut l' w' := by
  simp only [carryOut, ExceptT.run, tryCatch, tryCatchThe, MonadExceptOf.tryCatch,
    ExceptT.tryCatch, ExceptT.mk, StateT.bind, Bind.bind]
  rcases x (l, w) with ⟨a | e, l', w'⟩ <;> rfl

/-- Begun where things stand as in `before`, on whatever link, the exchange ends with `r` where
things stand as in `after`. -/
def Leads (x : Exchange ω α) (before : Standing ω) (r : Except RegistryError α)
    (after : Standing ω) : Prop :=
  ∀ l w, Link.standing l w = before →
    ∃ l' w', x.carryOut l w = (r, l', w') ∧ Link.standing l' w' = after

namespace Leads

variable {x : Exchange ω α} {f : α → Exchange ω β} {s s' s'' : Standing ω} {a : α}
  {e : RegistryError} {r : Except RegistryError β}

theorem result {r : Except RegistryError α} (h : x.Leads s r s') {l : Link} {w : ω}
    (hl : l.standing w = s) : (x.carryOut l w).1 = r := by
  obtain ⟨l', w', hrun, -⟩ := h l w hl
  rw [hrun]

/-! ## Putting exchanges together -/

theorem pure (a : α) : (Pure.pure a : Exchange ω α).Leads s (.ok a) s :=
  fun l w hl => ⟨l, w, rfl, hl⟩

theorem throw (e : RegistryError) : (MonadExcept.throw e : Exchange ω α).Leads s (.error e) s :=
  fun l w hl => ⟨l, w, rfl, hl⟩

theorem lift (r : Except RegistryError α) : (liftM r : Exchange ω α).Leads s r s :=
  fun l w hl => ⟨l, w, rfl, hl⟩

theorem bind (hx : x.Leads s (.ok a) s') (hf : (f a).Leads s' r s'') :
    (x >>= f).Leads s r s'' := by
  intro l w hl
  obtain ⟨l1, w1, hrun, hl1⟩ := hx l w hl
  obtain ⟨l2, w2, hrun2, hl2⟩ := hf l1 w1 hl1
  refine ⟨l2, w2, ?_, hl2⟩
  rw [carryOut_bind, hrun]
  exact hrun2

theorem bind_error (hx : x.Leads s (.error e) s') : (x >>= f).Leads s (.error e) s' := by
  intro l w hl
  obtain ⟨l1, w1, hrun, hl1⟩ := hx l w hl
  exact ⟨l1, w1, by rw [carryOut_bind, hrun], hl1⟩

theorem map {r : Except RegistryError α} (h : x.Leads s r s') (f : α → β) :
    (f <$> x).Leads s (r.map f) s' := by
  rw [map_eq_pure_bind]
  cases r with
  | error e => exact h.bind_error
  | ok a => exact h.bind (pure (f a))

/-! ## Lines -/

variable {inbox rest : Bytes} {listening : Bool} {w : ω}

theorem sendLine {p : Peer ω} {line : Text} {bytes : Bytes} {w' : ω}
    (h : ∀ target, p.answer target line w = ((bytes, listening), w')) :
    (Exchange.sendLine p line).Leads ⟨inbox, true, w⟩ (.ok ())
      ⟨inbox ++ bytes, listening, w'⟩ := by
  intro l v hl
  obtain ⟨hinbox, hlisten, rfl⟩ := Standing.mk.inj hl
  obtain ⟨l', hsend, hbytes, hstill⟩ : ∃ l', l.send p line v = (l', w') ∧
      l'.inbox = l.inbox ++ bytes ∧ l'.listening = listening := by
    have hnote : (l.note (.sent line)).listening = true := hlisten
    simp only [Link.send, hnote, if_true, h]
    exact ⟨_, rfl, rfl, rfl⟩
  refine ⟨l', w', ?_, ?_⟩
  · simp only [carryOut, ExceptT.run, Exchange.sendLine, ExceptT.mk, hsend]
  · rw [Link.standing, hbytes, hstill, hinbox]

/-- A line that is sent to a peer that no longer listens changes nothing. -/
theorem sendLine_unheard {p : Peer ω} {line : Text} :
    (Exchange.sendLine p line).Leads ⟨inbox, false, w⟩ (.ok ()) ⟨inbox, false, w⟩ := by
  intro l v hl
  obtain ⟨hinbox, hlisten, rfl⟩ := Standing.mk.inj hl
  have hsend : l.send p line v = (l.note (.sent line), v) := by
    have hnote : (l.note (.sent line)).listening = false := hlisten
    simp only [Link.send, hnote, Bool.false_eq_true, if_false]
  refine ⟨l.note (.sent line), v, ?_, ?_⟩
  · simp only [carryOut, ExceptT.run, Exchange.sendLine, ExceptT.mk, hsend]
  · rw [Link.standing, ← hinbox, ← hlisten]
    rfl

theorem reading {g : Link → Except RegistryError α × Link} {r : Except RegistryError α}
    (h : ∀ l : Link, l.inbox = inbox →
      ∃ l', g l = (r, l') ∧ l'.inbox = rest ∧ l'.listening = l.listening) :
    (Exchange.reading g : Exchange ω α).Leads ⟨inbox, listening, w⟩ r ⟨rest, listening, w⟩ := by
  rintro l _ ⟨⟩
  obtain ⟨l', hg, hrest, hlisten⟩ := h l rfl
  refine ⟨l', w, ?_, ?_⟩
  · simp only [carryOut, ExceptT.run, Exchange.reading, ExceptT.mk, hg]
  · rw [Link.standing, hrest, hlisten]

theorem readLine_line {t : Text} (h : t.IsOneLine) (hfit : t.FitsInMemory) :
    (Exchange.readLine : Exchange ω Text).Leads
      ⟨Utf8.encode t ++ lineFeed :: rest, listening, w⟩ (.ok t) ⟨rest, listening, w⟩ :=
  reading fun _ hl => ⟨_, Link.receive_line h hfit hl, rfl, rfl⟩

theorem readLine_cut {t : Text} (h : t.IsOneLine) (hfit : t.FitsInMemory) {q : Bytes}
    (hq : q <+: Utf8.encode t) (hne : q ≠ []) :
    (Exchange.readLine : Exchange ω Text).Leads ⟨q, listening, w⟩
      (.ok (Utf8.decodeLossy q)) ⟨[], listening, w⟩ := by
  refine reading fun l hl => ?_
  subst hl
  exact ⟨_, Link.receive_cut h hfit hq hne, rfl, rfl⟩

theorem readLine_end :
    (Exchange.readLine : Exchange ω Text).Leads ⟨[], listening, w⟩ (.error .disconnected)
      ⟨[], listening, w⟩ :=
  reading fun _ hl => ⟨_, Link.receive_end hl, hl, rfl⟩

/-! ## Status lines -/

end Leads

/-- What a client makes of the first line of a reply to a request. -/
def judge (c : Command) (line : Text) : Except RegistryError Text :=
  match Status.parse? line with
  | some (.ok payload) => .ok payload
  | some (.err payload) => .error (refusal payload c)
  | none => .error (.protocol line)

theorem judge_ok (c : Command) (payload : Text) :
    judge c (Status.ok payload).line = .ok payload := by
  rw [judge, Status.parse?_line]

theorem judge_err (c : Command) (payload : Text) :
    judge c (Status.err payload).line = .error (refusal payload c) := by
  rw [judge, Status.parse?_line]

namespace Leads

variable {s s' s'' : Standing ω} {p : Peer ω} {c : Command}

theorem request {line : Text} (hsend : (Exchange.sendLine p c.encode).Leads s (.ok ()) s')
    (hread : (Exchange.readLine : Exchange ω Text).Leads s' (.ok line) s'') :
    (Exchange.request p c).Leads s (judge c line) s'' := by
  refine hsend.bind (hread.bind ?_)
  rw [judge]
  cases Status.parse? line with
  | none => exact throw _
  | some status =>
      cases status with
      | ok payload => exact pure payload
      | err payload => exact throw _

theorem request_error {e : RegistryError}
    (hsend : (Exchange.sendLine p c.encode).Leads s (.ok ()) s')
    (hread : (Exchange.readLine : Exchange ω Text).Leads s' (.error e) s'') :
    (Exchange.request p c).Leads s (.error e) s'' :=
  hsend.bind hread.bind_error

/-- A peer that answers with lines: the first of them is read, and the others are left. -/
theorem request_answered {w w' : ω} {status : Text} {tail : List Text}
    (hanswer : ∀ target,
      p.answer target c.encode w = ((lineBytes (status :: tail), true), w'))
    (hstatus : status.IsOneLine ∧ status.FitsInMemory) :
    (Exchange.request p c).Leads ⟨[], true, w⟩ (judge c status) ⟨lineBytes tail, true, w'⟩ := by
  refine Leads.request (Leads.sendLine hanswer) ?_
  rw [List.nil_append, lineBytes_cons]
  exact Leads.readLine_line hstatus.1 hstatus.2

end Leads

/-! ## Bodies -/

/-- The lines of a body in the form in which it is sent. -/
def bodyLines (body : List Text) : List Text := body.map stuff ++ [terminator]

theorem isOneLine_stuff {t : Text} (h : t.IsOneLine) : (stuff t).IsOneLine := by
  unfold stuff
  split
  · rw [← List.singleton_append, Text.isOneLine_append]
    exact ⟨by decide, h⟩
  · exact h

theorem takeBody_line {l l' : Link} {line : Text} (h : l.receive = (.ok line, l'))
    (hne : line ≠ terminator) :
    takeBody l = ((takeBody l').1.map (unstuff line :: ·), (takeBody l').2) := by
  rw [takeBody.eq_def]
  split
  · next he => rw [h] at he; cases he
  · next he =>
      rw [h] at he
      cases he
      rw [if_neg hne]
      rcases takeBody l' with ⟨e | lines, rest⟩ <;> rfl

theorem takeBody_terminator {l l' : Link} (h : l.receive = (.ok terminator, l')) :
    takeBody l = (.ok [], l') := by
  rw [takeBody.eq_def]
  split
  · next he => rw [h] at he; cases he
  · next he =>
      rw [h] at he
      cases he
      rw [if_pos rfl]

theorem takeBody_error {l l' : Link} {e : RegistryError} (h : l.receive = (.error e, l')) :
    takeBody l = (.error e, l') := by
  rw [takeBody.eq_def]
  split
  · next he => rw [h] at he; cases he; rfl
  · next he => rw [h] at he; cases he

/-- Lines of a body that are sent are read, whatever follows them. -/
theorem takeBody_stuffed {lines : List Text} (hline : ∀ t ∈ lines, t.IsOneLine)
    (hfit : ∀ t ∈ lines.map stuff, t.FitsInMemory) {l : Link} {rest : Bytes}
    (hl : l.inbox = lineBytes (lines.map stuff) ++ rest) :
    ∃ l', l'.inbox = rest ∧ l'.listening = l.listening ∧
      takeBody l = ((takeBody l').1.map (lines ++ ·), (takeBody l').2) := by
  induction lines generalizing l with
  | nil =>
      refine ⟨l, hl, rfl, ?_⟩
      rcases takeBody l with ⟨e | body, l'⟩ <;> rfl
  | cons t lines ih =>
      obtain ⟨ht, hlines⟩ := List.forall_mem_cons.mp hline
      rw [List.map_cons] at hl hfit
      obtain ⟨hfitT, hfitLines⟩ := List.forall_mem_cons.mp hfit
      rw [lineBytes_cons, List.append_assoc, List.cons_append] at hl
      obtain ⟨l1, hread, hinbox, hlisten1⟩ : ∃ l1, l.receive = (.ok (stuff t), l1) ∧
          l1.inbox = lineBytes (lines.map stuff) ++ rest ∧ l1.listening = l.listening :=
        ⟨_, Link.receive_line (isOneLine_stuff ht) hfitT hl, rfl, rfl⟩
      obtain ⟨l', hrest, hlisten, hbody⟩ := ih hlines hfitLines hinbox
      refine ⟨l', hrest, hlisten.trans hlisten1, ?_⟩
      rw [takeBody_line hread (stuff_ne_terminator t), hbody, unstuff_stuff]
      rcases takeBody l' with ⟨e | body, l''⟩ <;> rfl

/-- A body that is sent is read, up to the line after it. -/
theorem Leads.readBody {body : List Text} (hline : ∀ t ∈ body, t.IsOneLine)
    (hfit : ∀ t ∈ bodyLines body, t.FitsInMemory) {rest : Bytes} {listening : Bool} {w : ω} :
    (Exchange.readBody : Exchange ω (List Text)).Leads
      ⟨lineBytes (bodyLines body) ++ rest, listening, w⟩ (.ok body) ⟨rest, listening, w⟩ := by
  refine reading fun l hl => ?_
  rw [bodyLines, lineBytes_append, List.append_assoc] at hl
  obtain ⟨l1, hinbox, hlisten, hbody⟩ :=
    takeBody_stuffed hline (fun t ht => hfit t (List.mem_append_left _ ht)) hl
  rw [lineBytes_cons, lineBytes_nil, List.append_assoc] at hinbox
  rw [hbody, takeBody_terminator (Link.receive_line (by decide) (by decide) hinbox), Except.map,
    List.append_nil]
  exact ⟨_, rfl, rfl, hlisten⟩

/-- A body that breaks off is read only if it breaks off after a dot that begins a line. -/
theorem Leads.readBody_cut {lines : List Text} (hline : ∀ t ∈ lines, t.IsOneLine)
    (hfit : ∀ t ∈ lines.map stuff, t.FitsInMemory) {t : Text} (ht : t.IsOneLine)
    (htfit : t.FitsInMemory) {q : Bytes} (hq : q <+: Utf8.encode t) {listening : Bool} {w : ω} :
    (Exchange.readBody : Exchange ω (List Text)).Leads
      ⟨lineBytes (lines.map stuff) ++ q, listening, w⟩
      (if Utf8.decodeLossy q = terminator then .ok lines else .error .disconnected)
      ⟨[], listening, w⟩ := by
  refine reading fun l hl => ?_
  obtain ⟨l1, hinbox, hlisten, hbody⟩ := takeBody_stuffed hline hfit hl
  rw [hbody]
  by_cases hne : q = []
  · rw [hne] at hinbox ⊢
    rw [takeBody_error (Link.receive_end hinbox), if_neg (by decide)]
    exact ⟨_, rfl, hinbox, hlisten⟩
  · rw [← hinbox] at hq hne ⊢
    have hreceive := Link.receive_cut ht htfit hq hne
    split
    · next hend =>
        rw [hend] at hreceive
        rw [takeBody_terminator hreceive, Except.map, List.append_nil]
        exact ⟨_, rfl, rfl, hlisten⟩
    · next hend =>
        rw [takeBody_line hreceive hend, takeBody_error (Link.receive_end rfl)]
        exact ⟨_, rfl, rfl, hlisten⟩

theorem Leads.readBody_end {listening : Bool} {w : ω} :
    (Exchange.readBody : Exchange ω (List Text)).Leads ⟨[], listening, w⟩ (.error .disconnected)
      ⟨[], listening, w⟩ :=
  reading fun _ hl => ⟨_, takeBody_error (Link.receive_end hl), hl, rfl⟩

end Exchange

end ToolRegistry
