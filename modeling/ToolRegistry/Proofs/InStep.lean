import ToolRegistry.Proofs.Answers

/-!
# Requests and replies stay in step

A session and a client never tell each other how long a reply is. Each of them
finds it out alone, the session because it knows what it has carried out, and
the client from the line that it has sent and from the status. This module
shows that they always agree. However the requests look, and whether or not
they are too long for the session, a client that reads the replies one after
the other gets the lines of every reply, and goes on where the next one begins.

The argument for one line is `raw_respond`. From there it is an induction on
the lines: a reply does not depend on the lines after its own, and the store
that it is about is the one that the lines before have left.
-/

namespace ToolRegistry

open Wire Exchange

variable {ω : Type}

/-! ## One line -/

namespace Session

/-- Whether a line that is sent ends a session. -/
def IsEnded (s : Session) (line : Text) : Prop :=
  (Utf8.encode line).length ≤ s.limit.toNat ∧ Command.parse line = .ok .quit

instance (s : Session) (line : Text) : Decidable (s.IsEnded line) :=
  inferInstanceAs (Decidable (_ ∧ _))

end Session

theorem tellsOk_ok (payload : Text) : Client.tellsOk (Status.ok payload).line = true := by
  rw [Client.tellsOk, Status.parse?_line]

theorem tellsOk_err (payload : Text) : Client.tellsOk (Status.err payload).line = false := by
  rw [Client.tellsOk, Status.parse?_line]

/-- What follows a status line is read by its kind. -/
theorem Following.leads {x : Following} (hone : ∀ t ∈ x.lines, t.IsOneLine)
    (hfit : ∀ t ∈ x.sent, t.FitsInMemory) (status : Text) {rest : Bytes} {listening : Bool}
    {w : ω} :
    (match x.tail with
      | .nothing => return [status]
      | .dataLine => return [status, ← readLine]
      | .body => return status :: (← readBody) : Exchange ω (List Text)).Leads
      ⟨lineBytes x.sent ++ rest, listening, w⟩ (.ok (status :: x.lines))
      ⟨rest, listening, w⟩ := by
  cases x with
  | nothing => exact Leads.pure _
  | dataLine t =>
      rw [Following.sent, lineBytes_cons, lineBytes_nil, List.append_assoc]
      exact (Leads.readLine_line (hone _ List.mem_cons_self) (hfit _ List.mem_cons_self)).bind
        (Leads.pure _)
  | body lines => exact (Leads.readBody hone hfit).bind (Leads.pure _)

/-- The reply to a line that was sent is read whole, and nothing behind it. -/
theorem raw_respond {s : Session} {store : Store} (hstore : store.IsSound)
    (hhost : s.host.IsOneLine) {line : Text} (hline : line.IsOneLine)
    (hfit : ∀ t ∈ (s.respond line store).1.reply.lines, t.FitsInMemory) :
    ∃ status, (s.respond line store).1.reply.lines =
        status :: (s.followingLine line store).sent ∧
      ∀ (p : Peer ω) (rest : Bytes) (w : ω), (Client.raw p line).Leads
        ⟨lineBytes (s.respond line store).1.reply.lines ++ rest, false, w⟩
        (.ok (status :: (s.followingLine line store).lines)) ⟨rest, false, w⟩ := by
  have hneg : ¬('\r' ∈ line ∨ '\n' ∈ line) := not_or.mpr hline
  rcases s.respond_cases hline store with ⟨payload, hresp, hpayload, hnothing⟩ |
    ⟨c, o, next, -, hparse, hexec, hresp, hfollowing⟩
  · rw [hresp] at hfit ⊢
    rw [hnothing]
    simp only [Outcome.goOn, Reply.err] at hfit ⊢
    refine ⟨_, rfl, fun p rest w => ?_⟩
    rw [Client.raw, if_neg hneg]
    refine Leads.sendLine_unheard.bind ?_
    rw [lineBytes_cons, lineBytes_nil, List.append_assoc]
    refine (Leads.readLine_line (isOneLine_err hpayload) (hfit _ List.mem_cons_self)).bind ?_
    rw [tellsOk_err, if_neg Bool.false_ne_true]
    exact Leads.pure _
  · rw [hresp] at hfit ⊢
    rw [hfollowing]
    obtain ⟨payload, hlines, htail, -, hpayload⟩ := Session.execute_ok hexec
    simp only [hlines] at hfit ⊢
    obtain ⟨hstatus, hsent⟩ := List.forall_mem_cons.mp hfit
    refine ⟨_, rfl, fun p rest w => ?_⟩
    rw [Client.raw, if_neg hneg]
    refine Leads.sendLine_unheard.bind ?_
    rw [lineBytes_cons, List.append_assoc]
    refine (Leads.readLine_line (isOneLine_ok (hpayload fun _ => hhost)) hstatus).bind ?_
    have htailOf : Client.tailOfLine line = (Session.following store c).tail := by
      rw [Client.tailOfLine, hparse, htail]
    rw [tellsOk_ok, if_pos rfl, htailOf]
    exact Following.leads (Session.isOneLine_following hstore c) hsent _

/-! ## All lines -/

/-- What a session makes of lines that are sent to it one after the other. -/
def Session.serveLines (s : Session) (lines : List Text) (store : Store) : Session.Served :=
  s.serve (lines.map (readAs s.limit) ++ [.ended]) store

/-- The first line is answered before any other, and unless it ends the session, the rest are
answered on the store that it leaves. -/
theorem Session.serveLines_cons {s : Session} {line : Text} {store : Store}
    (h : (s.respond line store).1.close = false) (lines : List Text) :
    s.serveLines (line :: lines) store =
      { s.serveLines lines (s.respond line store).2 with
        replies := (s.respond line store).1.reply ::
          (s.serveLines lines (s.respond line store).2).replies } := by
  simp only [serveLines, List.map_cons, List.cons_append, respond, readAs] at h ⊢
  split at h
  · next hlong => simp only [if_pos hlong, serve, Outcome.goOn]
  · next hshort => simp only [if_neg hshort, serve, h, Bool.false_eq_true, if_false]

/-- Nothing is answered behind a line that ends the session. -/
theorem Session.serveLines_closed {s : Session} {line : Text} {store : Store}
    (h : (s.respond line store).1.close = true) (lines : List Text) :
    s.serveLines (line :: lines) store =
      ⟨[(s.respond line store).1.reply], true, (s.respond line store).2⟩ := by
  simp only [serveLines, List.map_cons, List.cons_append, respond, readAs] at h ⊢
  split at h
  · cases h
  · next hshort => simp only [if_neg hshort, serve, h, if_true]

theorem Session.isEnded_of_close {s : Session} {line : Text} (hline : line.IsOneLine)
    {store : Store} (h : (s.respond line store).1.close = true) : s.IsEnded line := by
  rcases s.respond_cases hline store with ⟨payload, hresp, -, -⟩ |
    ⟨c, o, next, hshort, hparse, hexec, hresp, -⟩
  · rw [hresp] at h
    cases h
  · rw [hresp] at h
    obtain ⟨-, -, -, hclose, -⟩ := Session.execute_ok hexec
    rw [hclose.mp h] at hparse
    exact ⟨hshort, hparse⟩

theorem Store.IsSound.respond {store : Store} (h : store.IsSound) (s : Session) {line : Text}
    (hline : line.IsOneLine) : (s.respond line store).2.IsSound := by
  rw [Session.respond]
  split
  · exact h
  · exact h.dispatch s hline

/-- The `i`-th of some lines and the `i`-th of the replies belong together: a client that reads
where that reply begins gets all of it, and stops where the next one begins. -/
def InStep (s : Session) (store : Store) (lines : List Text) (replies : List Reply) (ω : Type) :
    Prop :=
  replies.length = lines.length ∧ ∀ i line, lines[i]? = some line →
    ∃ reply status, replies[i]? = some reply ∧
      reply.lines =
        status :: (s.followingLine line (s.serveLines (lines.take i) store).store).sent ∧
      ∀ (p : Peer ω) (rest : Bytes) (w : ω), (Client.raw p line).Leads
        ⟨replyBytes (replies.drop i) ++ rest, false, w⟩
        (.ok (status :: (s.followingLine line (s.serveLines (lines.take i) store).store).lines))
        ⟨replyBytes (replies.drop (i + 1)) ++ rest, false, w⟩

theorem replyBytes_cons (reply : Reply) (replies : List Reply) :
    replyBytes (reply :: replies) = lineBytes reply.lines ++ replyBytes replies := by
  rw [replyBytes_eq, replyBytes_eq, List.flatMap_cons, lineBytes_append]

/-- A line and its reply, in front of lines and replies that are in step on the store that the
line leaves. -/
theorem InStep.cons {s : Session} {store : Store} (hstore : store.IsSound)
    (hhost : s.host.IsOneLine) {line : Text} (hline : line.IsOneLine)
    (hfit : ∀ t ∈ (s.respond line store).1.reply.lines, t.FitsInMemory) {lines : List Text}
    {replies : List Reply}
    (hgoes : lines ≠ [] → (s.respond line store).1.close = false)
    (h : InStep s (s.respond line store).2 lines replies ω) :
    InStep s store (line :: lines) ((s.respond line store).1.reply :: replies) ω := by
  refine ⟨by rw [List.length_cons, List.length_cons, h.1], fun i t ht => ?_⟩
  cases i with
  | zero =>
      cases ht
      obtain ⟨status, hlines, hraw⟩ := @raw_respond ω s store hstore hhost line hline hfit
      refine ⟨_, status, rfl, hlines, fun p rest w => ?_⟩
      rw [List.drop_zero, List.drop_one, List.tail_cons, replyBytes_cons, List.append_assoc]
      exact hraw p _ w
  | succ i =>
      rw [List.getElem?_cons_succ] at ht
      have hne : lines ≠ [] := fun hnil => by simp [hnil] at ht
      have hstep := Session.serveLines_cons (hgoes hne) (lines.take i)
      obtain ⟨reply, status, hreply, hread⟩ := h.2 i t ht
      refine ⟨reply, status, by rw [List.getElem?_cons_succ, hreply], ?_⟩
      rw [List.take_succ_cons, hstep, List.drop_succ_cons, List.drop_succ_cons]
      exact hread

theorem serveLines_inStep {s : Session} (hhost : s.host.IsOneLine) {lines : List Text}
    (hlines : ∀ t ∈ lines, t.IsOneLine) (hquit : ∀ t ∈ lines.dropLast, ¬s.IsEnded t)
    {store : Store} (hstore : store.IsSound)
    (hfit : ∀ r ∈ (s.serveLines lines store).replies, ∀ t ∈ r.lines, t.FitsInMemory) :
    InStep s store lines (s.serveLines lines store).replies ω := by
  induction lines generalizing store with
  | nil => exact ⟨rfl, fun i t ht => by cases ht⟩
  | cons line lines ih =>
      obtain ⟨hline, hlines⟩ := List.forall_mem_cons.mp hlines
      have hnext := hstore.respond s hline
      cases hclose : (s.respond line store).1.close with
      | true =>
          have hlast : lines = [] := by
            cases lines with
            | nil => rfl
            | cons u lines =>
                exact absurd (Session.isEnded_of_close hline hclose)
                  (hquit line List.mem_cons_self)
          rw [Session.serveLines_closed hclose] at hfit ⊢
          subst hlast
          exact InStep.cons hstore hhost hline (hfit _ List.mem_cons_self) (absurd rfl)
            ⟨rfl, fun i t ht => by cases ht⟩
      | false =>
          rw [Session.serveLines_cons hclose] at hfit ⊢
          obtain ⟨hfirst, hfit⟩ := List.forall_mem_cons.mp hfit
          refine InStep.cons hstore hhost hline hfirst (fun _ => hclose) ?_
          refine ih hlines (fun t ht => hquit t ?_) hnext hfit
          cases lines with
          | nil => cases ht
          | cons u lines => exact List.mem_cons_of_mem _ ht

/-! ## Whole connections -/

theorem Session.run_lineBytes {s : Session} {lines : List Text}
    (h : ∀ t ∈ lines, t.IsOneLine ∧ t.FitsInMemory) (store : Store) :
    s.run (lineBytes lines) store =
      (s.welcome :: (s.serveLines lines store).replies, (s.serveLines lines store).store) := by
  rw [run, readAll_lineBytes s.limit h]
  rfl

/-- Whatever lines are sent on a connection, as long as nothing is sent behind a request to end it,
a client finds the replies where it looks for them. It reads them off one stream, one call for each
line. Every call returns the status line and what follows it, a body without its dots and its
terminator, and leaves the stream where the next reply begins. -/
theorem raw_reads_run {store : Store} (hstore : store.Reachable) {s : Session}
    (hhost : s.host.IsOneLine) {lines : List Text}
    (hlines : ∀ t ∈ lines, t.IsOneLine ∧ t.FitsInMemory)
    (hquit : ∀ t ∈ lines.dropLast, ¬s.IsEnded t)
    (hfit : ∀ r ∈ (s.run (lineBytes lines) store).1, ∀ t ∈ r.lines, t.FitsInMemory) :
    ∃ replies, (s.run (lineBytes lines) store).1 = s.welcome :: replies ∧
      replies.length = lines.length ∧
      ∀ i line, lines[i]? = some line → ∃ reply status following,
        following = s.followingLine line (s.run (lineBytes (lines.take i)) store).2 ∧
        replies[i]? = some reply ∧ reply.lines = status :: following.sent ∧
        ∀ (p : Peer ω) (w : ω) (l : Link) (rest : Bytes), l.listening = false →
          l.inbox = replyBytes (replies.drop i) ++ rest →
          ∃ l', (Client.raw p line).carryOut l w = (.ok (status :: following.lines), l', w) ∧
            l'.inbox = replyBytes (replies.drop (i + 1)) ++ rest := by
  rw [Session.run_lineBytes hlines] at hfit ⊢
  obtain ⟨hlength, hstep⟩ := @serveLines_inStep ω s hhost lines (fun t ht => (hlines t ht).1) hquit
    store hstore.isSound (fun r hr => hfit r (List.mem_cons_of_mem _ hr))
  refine ⟨_, rfl, hlength, fun i line hline => ?_⟩
  rw [Session.run_lineBytes fun t ht => hlines t (List.mem_of_mem_take ht)]
  obtain ⟨reply, status, hreply, hsent, hraw⟩ := hstep i line hline
  refine ⟨reply, status, _, rfl, hreply, hsent, fun p w l rest hlistening hinbox => ?_⟩
  obtain ⟨l', w', hrun, hstands⟩ := hraw p rest w l w (by rw [Link.standing, hinbox, hlistening])
  obtain ⟨hinbox', -, rfl⟩ := Standing.mk.inj hstands
  exact ⟨l', hrun, hinbox'⟩

/-- The text of an entry is a single dot. It is listed, a request to list everything is too long
for the session, an empty line is refused, and then the text is asked for alone. -/
theorem raw_reads_run_dot :
    let e : EntryFields :=
      { app := "a", site := "b", mach := "c", node := "d", port := 1, pid := 2, comp := "e",
        tag := "f" }
    let store : Store := ⟨[(1, ⟨e, ["."]⟩)], 2, List.pairwise_singleton _ _⟩
    let s : Session := ⟨"here", 7, 10⟩
    let lines : List Text := ["LISTSTR 1", "LIST       ", "", "GETSTR 1 1", "QUIT"]
    store.Reachable ∧ s.host.IsOneLine ∧ (∀ t ∈ lines, t.IsOneLine ∧ t.FitsInMemory) ∧
      (∀ t ∈ lines.dropLast, ¬s.IsEnded t) ∧
      ∃ replies, (s.run (lineBytes lines) store).1 = s.welcome :: replies ∧ ∃ status,
        ∀ (l : Link) (rest : Bytes), l.listening = false →
          l.inbox = replyBytes (replies.drop 3) ++ rest →
          ∃ l', (Client.raw Peer.scripted "GETSTR 1 1").carryOut l [] =
              (.ok [status, "."], l', []) ∧
            l'.inbox = replyBytes (replies.drop 4) ++ rest := by
  intro e store s lines
  have hcreated : Store.Reachable ⟨[(1, ⟨e, []⟩)], 2, List.pairwise_singleton _ _⟩ :=
    Store.Reachable.start.execute (s := s) (c := .create (.ofFields e)) (by decide) (by decide)
      (o := .goOn (Session.success Payload.created [Session.idText 1])) rfl
  have hstore : store.Reachable :=
    hcreated.execute (s := s) (c := .addString 1 ".") (by decide) (by decide)
      (o := .goOn (Session.success Payload.stringAdded [Session.natText 1])) rfl
  have hlines : ∀ t ∈ lines, t.IsOneLine ∧ t.FitsInMemory := by decide
  have hquit : ∀ t ∈ lines.dropLast, ¬s.IsEnded t := by decide
  have hfit : ∀ r ∈ (s.run (lineBytes lines) store).1, ∀ t ∈ r.lines, t.FitsInMemory := by
    rw [Session.run_lineBytes hlines]
    decide
  refine ⟨hstore, by decide, hlines, hquit, ?_⟩
  obtain ⟨replies, hrun, -, hread⟩ :=
    @raw_reads_run (List Bytes) store hstore s (by decide) lines hlines hquit hfit
  obtain ⟨reply, status, following, hfollowing, -, -, hraw⟩ := hread 3 "GETSTR 1 1" rfl
  refine ⟨replies, hrun, status, fun l rest hlistening hinbox => ?_⟩
  have hdot : following = .dataLine "." := by
    rw [hfollowing, Session.run_lineBytes fun t ht => hlines t (List.mem_of_mem_take ht)]
    rfl
  rw [hdot] at hraw
  exact hraw Peer.scripted [] l rest hlistening hinbox

end ToolRegistry
