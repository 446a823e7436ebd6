import ToolRegistry.Proofs.Reachable
import ToolRegistry.Proofs.Segments

/-!
# Many connections, one store

A server keeps any number of connections open and answers a line of one, then a
line of another, in an order that it does not choose. Here that order is a list
of turns, each the number of the connection whose next line is read and answered
(`Traffic.run`). What the clients send is left open altogether, and so is the way
in which it comes in chunks.

A turn reads one item and serves it, which is what a session does with the items
of its whole connection one after the other (`Session.serve_cons`). So a
connection that has the server to itself is served as `Session.run` says
(`Traffic.run_alone`), and with others about it every turn still leads from one
reachable store to the next. That is all it takes: what holds of the reachable
stores holds of the store under any traffic.
-/

namespace ToolRegistry

open Wire

/-- Whether nothing is read behind an item. -/
def Wire.LineRead.isLast : LineRead → Bool
  | .ended | .unterminated _ => true
  | .line _ | .tooLong => false

/-- A connection to a server. -/
structure Channel where
  /-- What the server shows of itself on it, and the lines that it accepts. -/
  session : Session
  /-- What is still to be read, in the chunks in which it comes. -/
  unread : List Bytes
  sent : List Reply
  isOpen : Bool

namespace Channel

/-- A connection that has been greeted. -/
def accept (session : Session) (unread : List Bytes) : Channel :=
  ⟨session, unread, [session.welcome], true⟩

/-- Reads the next line of a connection and answers it. -/
def turn (c : Channel) (store : Store) : Channel × Store :=
  if c.isOpen then
    let (item, rest) := readChunks c.session.limit c.unread
    let served := c.session.serve [item] store
    ({ c with
        unread := rest
        sent := c.sent ++ served.replies
        isOpen := !(item.isLast || served.closed) }, served.store)
  else (c, store)

theorem turn_closed {c : Channel} (h : c.isOpen = false) (store : Store) :
    c.turn store = (c, store) := by
  simp [turn, h]

theorem store_turn {c : Channel} (hopen : c.isOpen = true) {line : Text}
    (hread : (readChunks c.session.limit c.unread).1 = .line line ∨
      (readChunks c.session.limit c.unread).1 = .unterminated line) (store : Store) :
    (c.turn store).2 = (c.session.dispatch line store).2 := by
  simp only [turn, hopen, if_true]
  rcases hread with hread | hread
  · simp only [hread, Session.serve]
    split <;> rfl
  · simp only [hread, Session.serve]

/-- A turn leads from one reachable store to another. -/
theorem reachable_turn {store : Store} (h : store.Reachable) (c : Channel) :
    (c.turn store).2.Reachable := by
  rw [turn]
  split
  · obtain ⟨hitem, -⟩ := readChunks_flatten c.session.limit c.unread
    refine h.serve fun item hmem => ?_
    rw [List.mem_singleton.mp hmem]
    exact ⟨c.unread.flatten, hitem.symm⟩
  · exact h

end Channel

/-- The connections of a server, and the store that they share. -/
structure Traffic where
  store : Store
  /-- The connections, open ones and closed ones. -/
  channels : List Channel

namespace Traffic

/-- It is the turn of one connection; nothing happens if there is no such connection. -/
def step (t : Traffic) (i : Nat) : Traffic :=
  match t.channels[i]? with
  | some c => ⟨(c.turn t.store).2, t.channels.set i (c.turn t.store).1⟩
  | none => t

/-- One turn after the other. -/
def run (t : Traffic) (turns : List Nat) : Traffic := turns.foldl step t

@[simp]
theorem run_nil (t : Traffic) : t.run [] = t := rfl

@[simp]
theorem run_cons (t : Traffic) (i : Nat) (turns : List Nat) :
    t.run (i :: turns) = (t.step i).run turns := rfl

/-! ## Any traffic -/

theorem reachable_step {t : Traffic} (h : t.store.Reachable) (i : Nat) :
    (t.step i).store.Reachable := by
  rw [step]
  split
  · next c _ => exact c.reachable_turn h
  · exact h

theorem reachable_run {t : Traffic} (h : t.store.Reachable) (turns : List Nat) :
    (t.run turns).store.Reachable := by
  induction turns generalizing t with
  | nil => exact h
  | cons i turns ih => exact ih (reachable_step h i)

end Traffic

/-! ## A connection alone

A turn takes one item off a connection and does with it what `Session.serve`
does with the first of all its items. What is to come of the connection
(`Channel.outlook`) is therefore the same before and behind every turn, and once
the connection is closed it is what has come of it.
-/

/-- Serving a connection is serving the first item, and then the others unless that was the end. -/
theorem Session.serve_cons (s : Session) (item : LineRead) (rest : List LineRead) (store : Store) :
    s.serve (item :: rest) store =
      let first := s.serve [item] store
      if item.isLast || first.closed then first
      else
        let others := s.serve rest first.store
        { others with replies := first.replies ++ others.replies } := by
  cases item with
  | ended => rfl
  | unterminated line => rfl
  | tooLong => rfl
  | line line =>
      simp only [serve, LineRead.isLast, Bool.false_or]
      cases (s.dispatch line store).1.close <;> rfl

theorem Wire.readChunks_drained {chunks : List Bytes} (h : isDrained chunks = true)
    (limit : UInt64) : (readChunks limit chunks).1 = .ended := by
  have hnil : chunks.flatten = [] := List.length_eq_zero_iff.mp (isDrained_iff.mp h)
  rw [(readChunks_flatten limit chunks).1, hnil, readLine_nil]

namespace Channel

/-- All replies and the store that come of a connection, if it has the server to itself. -/
def outlook (c : Channel) (store : Store) : List Reply × Store :=
  if c.isOpen then
    let served := c.session.serve (readAllChunks c.session.limit c.unread) store
    (c.sent ++ served.replies, served.store)
  else (c.sent, store)

theorem outlook_closed {c : Channel} (h : c.isOpen = false) (store : Store) :
    c.outlook store = (c.sent, store) := by
  simp [outlook, h]

/-- A turn brings nothing about that was not to come. -/
theorem outlook_turn (c : Channel) (store : Store) :
    (c.turn store).1.outlook (c.turn store).2 = c.outlook store := by
  cases hopen : c.isOpen with
  | false => rw [turn_closed hopen]
  | true =>
      simp only [turn, outlook, hopen, if_true]
      by_cases hdrained : isDrained c.unread = true
      · have hitem := readChunks_drained hdrained c.session.limit
        have hall : readAllChunks c.session.limit c.unread = [.ended] := by
          rw [readAllChunks, dif_pos hdrained]
        simp [hitem, hall, LineRead.isLast]
      · have hall : readAllChunks c.session.limit c.unread =
            (readChunks c.session.limit c.unread).1 ::
              readAllChunks c.session.limit (readChunks c.session.limit c.unread).2 := by
          rw [readAllChunks, dif_neg hdrained]
        have hserve := c.session.serve_cons (readChunks c.session.limit c.unread).1
          (readAllChunks c.session.limit (readChunks c.session.limit c.unread).2) store
        rw [hall, hserve]
        cases hlast : (readChunks c.session.limit c.unread).1.isLast ||
            (c.session.serve [(readChunks c.session.limit c.unread).1] store).closed with
        | true => simp only [hlast, Bool.not_true, Bool.false_eq_true, if_false, if_true]
        | false =>
            simp only [hlast, Bool.not_false, Bool.false_eq_true, if_false, if_true,
              List.append_assoc]

/-- As long as a connection stays open, a turn takes something of it. -/
theorem held_turn_lt {c : Channel} {store : Store} (h : (c.turn store).1.isOpen = true) :
    held (c.turn store).1.unread < held c.unread := by
  cases hopen : c.isOpen with
  | false =>
      rw [turn_closed hopen, hopen] at h
      cases h
  | true =>
      simp only [turn, hopen, if_true] at h ⊢
      refine held_readChunks_lt fun hnothing => ?_
      rw [readChunks_drained (isDrained_iff.mpr hnothing)] at h
      cases h

end Channel

namespace Traffic

/-- A connection that has the server to itself is served to its end, once it has had more turns than
there were bytes. -/
theorem run_alone {c : Channel} {store : Store} {n : Nat}
    (hn : c.isOpen = true → held c.unread < n) :
    ∃ c', run ⟨store, [c]⟩ (List.replicate n 0) = ⟨(c.outlook store).2, [c']⟩ ∧
      c'.sent = (c.outlook store).1 ∧ c'.isOpen = false := by
  induction n generalizing c store with
  | zero =>
      have hclosed : c.isOpen = false := by
        by_contra hopen
        have hless := hn (eq_true_of_ne_false hopen)
        omega
      rw [Channel.outlook_closed hclosed]
      exact ⟨c, rfl, rfl, hclosed⟩
  | succ n ih =>
      rw [← Channel.outlook_turn]
      refine ih fun hopen => ?_
      have hless := Channel.held_turn_lt hopen
      have hwas : c.isOpen = true := by
        by_contra h
        rw [Channel.turn_closed (eq_false_of_ne_true h)] at hopen
        exact h hopen
      have hmore := hn hwas
      omega

/-- Then the client has been sent what `Session.run` answers to the whole connection. -/
theorem run_accept_alone (s : Session) (chunks : List Bytes) (store : Store) :
    ∃ c, run ⟨store, [.accept s chunks]⟩ (List.replicate (held chunks + 1) 0) =
        ⟨(s.run chunks.flatten store).2, [c]⟩ ∧
      c.sent = (s.run chunks.flatten store).1 := by
  obtain ⟨c, hrun, hsent, -⟩ :=
    @run_alone (.accept s chunks) store (held chunks + 1) fun _ => Nat.lt_succ_self _
  have houtlook : (Channel.accept s chunks).outlook store = s.run chunks.flatten store := by
    simp only [Channel.outlook, Channel.accept, Session.run, readAllChunks_flatten, if_true,
      List.singleton_append]
  rw [houtlook] at hrun hsent
  exact ⟨c, hrun, hsent⟩

end Traffic

/-! ## What is kept under any traffic -/

/-- The six texts of an entry. -/
def EntryFields.texts (e : EntryFields) : List Text := Field.all.filterMap e.text?

theorem EntryFields.IsComplete.one_le {e : EntryFields} (h : e.IsComplete) {f : Field} {n : Int32}
    (hn : e.number? f = some n) : 1 ≤ n := by
  have hpos := Int32.lt_iff_toInt_lt.mp (h.pos hn)
  refine Int32.le_iff_toInt_le.mpr ?_
  simp only [Int32.toInt_one, Int32.toInt_zero] at hpos ⊢
  omega

/-- Whatever is sent on any number of connections, and in whatever order it is answered, every entry
that is kept has all its values, none of its texts holds a quote or a line end, and no text attached
to it is empty or more than a line. -/
theorem Traffic.rows_run_complete (channels : List Channel) (turns : List Nat) :
    ∀ row ∈ (run ⟨∅, channels⟩ turns).store.rows,
      row.2.fields.texts.length = 6 ∧
      (∀ t ∈ row.2.fields.texts, t ≠ [] ∧ '"' ∉ t ∧ '\r' ∉ t ∧ '\n' ∉ t) ∧
      1 ≤ row.2.fields.port ∧ 1 ≤ row.2.fields.pid ∧
      ∀ t ∈ row.2.strings, t ≠ [] ∧ '\r' ∉ t ∧ '\n' ∉ t := by
  intro row hrow
  have hreach : (run ⟨∅, channels⟩ turns).store.Reachable := reachable_run .start turns
  obtain ⟨hcomplete, hencodable, hstrings⟩ := hreach.isSound row hrow
  refine ⟨rfl, fun t ht => ?_, hcomplete.one_le (f := .port) rfl,
    hcomplete.one_le (f := .pid) rfl, hstrings⟩
  obtain ⟨f, -, hf⟩ := List.mem_filterMap.mp ht
  exact ⟨hcomplete.ne_nil hf, hencodable f t hf⟩

/-- One client tears the two bytes of a letter apart with a carriage return and sends a byte that
stands for no character. Another attaches a text to the entry without ending its line. -/
theorem Traffic.rows_run_complete_torn :
    let e : EntryFields :=
      { app := "é", site := "b", mach := "c d", node := "\uFFFD", port := 1, pid := 2, comp := "e",
        tag := "f" }
    let create : List Bytes :=
      [Utf8.encode "CREATE app=\"" ++ [0xC3], [0x0D], 0xA9 :: Utf8.encode "\" site=\"b\" mach=\"c d\"",
        Utf8.encode " node=\"" ++ [0xFF], Utf8.encode "\" port=1 pid=2 comp=\"e\" tag=\"f\"" ++ [10]]
    let attach : List Bytes := [Utf8.encode "ADDSTR 1 \"x", Utf8.encode " y\""]
    let channels : List Channel :=
      [.accept ⟨"here", 7, 100⟩ create, .accept ⟨"here", 7, 14⟩ attach]
    (1, ⟨e, ["x y"]⟩) ∈ (run ⟨∅, channels⟩ [0, 1]).store.rows ∧
      (∀ t ∈ e.texts, t ≠ [] ∧ '"' ∉ t ∧ '\r' ∉ t ∧ '\n' ∉ t) ∧ 1 ≤ e.port ∧ 1 ≤ e.pid ∧
      ∀ t ∈ (["x y"] : List Text), t ≠ [] ∧ '\r' ∉ t ∧ '\n' ∉ t := by
  intro e create attach channels
  have hcreate : (readChunks 100 create).1 = .line (Command.create (.ofFields e)).encode := by
    decide +kernel
  have hattach : (readChunks 14 attach).1 = .unterminated (Command.addString 1 "x y").encode := by
    decide +kernel
  have hstore : (run ⟨∅, channels⟩ [0, 1]).store =
      ((Channel.accept ⟨"here", 7, 14⟩ attach).turn
        ((Channel.accept ⟨"here", 7, 100⟩ create).turn ∅).2).2 := by
    simp only [channels, run_cons, run_nil, step, List.getElem?_cons_zero, List.set_cons_zero,
      List.getElem?_cons_succ]
  have hfirst := @Channel.store_turn (.accept ⟨"here", 7, 100⟩ create) rfl _ (.inl hcreate)
  have hsecond := @Channel.store_turn (.accept ⟨"here", 7, 14⟩ attach) rfl _ (.inr hattach)
  have hrow : (1, ⟨e, ["x y"]⟩) ∈ (run ⟨∅, channels⟩ [0, 1]).store.rows := by
    rw [hstore, hsecond, hfirst]
    simp only [Session.dispatch, parse_encodable (c := .create (.ofFields e)) (by decide),
      parse_encodable (c := .addString 1 "x y") (by decide)]
    decide
  obtain ⟨-, hkept⟩ := Traffic.rows_run_complete channels [0, 1] _ hrow
  exact ⟨hrow, hkept⟩

end ToolRegistry
