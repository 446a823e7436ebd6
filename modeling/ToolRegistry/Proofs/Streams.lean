import ToolRegistry.Proofs.InPlace

/-!
# A stream of requests

A session sees of a connection nothing but the items that its reader cuts off
the bytes, one for each line. It answers every one of them, and the answer
depends on the item and on the store alone (`react`). So a whole connection is
a fold of `react` over the items, up to the first one behind which nothing is
read any more: a request to quit, or a line whose end is missing.

That a fold over two lists joined is one fold after the other is clear. What is
to be shown is that two streams joined make such lists. They do if the first
one ends in a line feed, because the reader stands right behind every line feed
once: it goes on there after a line within its limit, and skips up to there
after any other.
-/

namespace ToolRegistry

open Wire

namespace Wire

namespace LineRead

/-- The text that an item brings to a session. -/
def text? : LineRead → Option Text
  | .line t | .unterminated t => some t
  | .tooLong | .ended => none

/-- Nothing is answered behind a request to quit, nor behind a line without its end. -/
def isFinal : LineRead → Bool
  | .line t => decide (Command.parse t = .ok .quit)
  | .unterminated _ => true
  | .tooLong | .ended => false

end LineRead

/-- The items that reading makes of some bytes, without the mark of their end. -/
def itemsOf (limit : UInt64) (bytes : Bytes) : List LineRead :=
  (readAll limit bytes).filter (· ≠ .ended)

/-- The items up to and including the first final one. -/
def upToFinal (items : List LineRead) : List LineRead :=
  items.take (items.findIdx (·.isFinal) + 1)

/-! ## What is read -/

/-- Only where there are no bytes does a read yield the end. -/
theorem readLine_ne_ended {limit : UInt64} {bytes : Bytes} (hne : bytes ≠ []) :
    (readLine limit bytes).1 ≠ .ended := by
  have hkept : bytes.take (extent (window limit) bytes) ≠ [] := by
    have hpos := extent_pos (window_pos limit) bytes
    intro hnil
    rcases List.take_eq_nil_iff.mp hnil with h | h
    · omega
    · exact hne h
  simp only [readLine]
  split
  · next item hitem =>
      intro h
      simp only [classify] at hitem
      rw [if_neg hkept] at hitem
      split at hitem
      · cases hitem
      · split at hitem
        · cases hitem
          cases h
        · split at hitem <;> (cases hitem; cases h)
  · intro h
    cases h

theorem itemsOf_nil (limit : UInt64) : itemsOf limit [] = [] := by
  rw [itemsOf, readAll, dif_pos rfl]
  rfl

theorem itemsOf_eq_cons {limit : UInt64} {bytes : Bytes} (hne : bytes ≠ []) :
    itemsOf limit bytes = (readLine limit bytes).1 :: itemsOf limit (readLine limit bytes).2 := by
  rw [itemsOf, readAll, dif_neg hne, List.filter_cons_of_pos (by simp [readLine_ne_ended hne])]
  rfl

theorem readAll_eq_itemsOf (limit : UInt64) (bytes : Bytes) :
    readAll limit bytes = itemsOf limit bytes ++ [.ended] := by
  induction bytes using readAll.induct limit with
  | case1 =>
      rw [itemsOf_nil, readAll, dif_pos rfl]
      rfl
  | case2 bytes hne ih =>
      rw [itemsOf_eq_cons hne, readAll, dif_neg hne, ih]
      rfl

theorem ended_not_mem_itemsOf (limit : UInt64) (bytes : Bytes) :
    LineRead.ended ∉ itemsOf limit bytes := by
  intro h
  have hne := (List.mem_filter.mp h).2
  simp at hne

/-- Of a stream that can be counted, the items are those of its segments. -/
theorem itemsOf_segments (limit : UInt64) {bytes : Bytes} (hfit : bytes.length < 2 ^ 64) :
    itemsOf limit bytes = (segments bytes).map (itemOf limit) :=
  List.append_cancel_right
    ((readAll_eq_itemsOf limit bytes).symm.trans (readAll_segments limit hfit))

/-- A line that ends is never read as one that does not. -/
theorem itemOf_line (limit : UInt64) (b : Bytes) :
    itemOf limit (b ++ [lineFeed]) = .tooLong ∨
      ∃ t, itemOf limit (b ++ [lineFeed]) = .line t := by
  rw [itemOf]
  split
  · left
    rfl
  · right
    rw [if_pos (by simp)]
    exact ⟨_, rfl⟩

/-- Bytes that end in a line feed are a line and then nothing, or a line and then bytes that end in
a line feed. -/
theorem exists_line {a : Bytes} (h : a.getLast? = some lineFeed) :
    ∃ b rest, lineFeed ∉ b ∧ a = b ++ lineFeed :: rest ∧
      (rest = [] ∨ rest.getLast? = some lineFeed) := by
  obtain ⟨b, rest, rfl, hlf⟩ := List.eq_append_cons_of_mem (List.mem_of_getLast? h)
  refine ⟨b, rest, hlf, rfl, ?_⟩
  cases rest with
  | nil =>
      left
      rfl
  | cons x rest =>
      right
      rw [List.getLast?_append_cons, List.getLast?_cons_cons] at h
      exact h

/-- No line of some bytes is as long as the reader can count, or its limit is far below that. -/
def IsCounted (limit : UInt64) (bytes : Bytes) : Prop :=
  limit.toNat + 2 < 2 ^ 64 ∨ ∀ segment ∈ segments bytes, segment.length < 2 ^ 64

/-- The items of two streams joined are the items of the one and then those of the other, if the
first one ends in a line feed. -/
theorem itemsOf_append {limit : UInt64} {a : Bytes} (ha : a = [] ∨ a.getLast? = some lineFeed)
    (hcounted : IsCounted limit a) (b : Bytes) :
    itemsOf limit (a ++ b) = itemsOf limit a ++ itemsOf limit b ∧
      ∀ t, .unterminated t ∉ itemsOf limit a := by
  -- On the length of the first stream: a line is taken off it at a time.
  induction hn : a.length using Nat.strong_induction_on generalizing a with
  | _ n ih =>
      rcases ha with rfl | ha
      · rw [itemsOf_nil]
        exact ⟨rfl, fun t => List.not_mem_nil⟩
      · obtain ⟨line, rest, hlf, rfl, hrest⟩ := exists_line ha
        have hfit : limit.toNat + 2 < 2 ^ 64 ∨ line.length + 1 < 2 ^ 64 := by
          rcases hcounted with hlimit | hsegments
          · exact .inl hlimit
          · right
            have hline := hsegments (line ++ [lineFeed]) (by
              rw [segments_line hlf]
              exact List.mem_cons_self)
            rwa [List.length_append] at hline
        have hcounted : IsCounted limit rest := by
          rcases hcounted with hlimit | hsegments
          · exact .inl hlimit
          · right
            intro segment hmem
            refine hsegments segment ?_
            rw [segments_line hlf]
            exact List.mem_cons_of_mem _ hmem
        have hshort : rest.length < n := by
          rw [List.length_append, List.length_cons] at hn
          omega
        obtain ⟨hitems, hended⟩ := ih rest.length hshort hrest hcounted rfl
        have hne : ∀ x : Bytes, line ++ lineFeed :: x ≠ [] := by simp
        rw [List.append_assoc, List.cons_append, itemsOf_eq_cons (hne _), itemsOf_eq_cons (hne _),
          readLine_terminated hlf hfit, readLine_terminated hlf hfit, hitems]
        refine ⟨rfl, fun t hmem => ?_⟩
        rcases List.mem_cons.mp hmem with hmem | hmem
        · rcases itemOf_line limit line with h | ⟨u, h⟩ <;> rw [h] at hmem <;> cases hmem
        · exact hended t hmem

/-! ## What is answered of it -/

theorem upToFinal_nil : upToFinal [] = [] := rfl

theorem upToFinal_cons (item : LineRead) (rest : List LineRead) :
    upToFinal (item :: rest) = item :: if item.isFinal then [] else upToFinal rest := by
  rw [upToFinal, List.findIdx_cons]
  cases item.isFinal with
  | true => rfl
  | false => rfl

theorem upToFinal_append {xs : List LineRead} (h : ∀ item ∈ xs, item.isFinal = false)
    (ys : List LineRead) : upToFinal (xs ++ ys) = xs ++ upToFinal ys := by
  induction xs with
  | nil => rfl
  | cons item xs ih =>
      obtain ⟨hitem, hxs⟩ := List.forall_mem_cons.mp h
      rw [List.cons_append, upToFinal_cons, ih hxs, hitem]
      rfl

end Wire

namespace Session

/-- The reply to one item and the store that it leaves. -/
def react (s : Session) (item : LineRead) (store : Store) : Reply × Store :=
  match item.text? with
  | some t => ((s.dispatch t store).1.reply, (s.dispatch t store).2)
  | none => (s.overlong, store)

/-- The store after some items. -/
def storeAfter (s : Session) (items : List LineRead) (store : Store) : Store :=
  items.foldl (fun store item => (s.react item store).2) store

/-- The replies to some items, each on the store that those before it leave. -/
def reactions (s : Session) : List LineRead → Store → List Reply
  | [], _ => []
  | item :: rest, store => (s.react item store).1 :: s.reactions rest (s.react item store).2

variable (s : Session)

@[simp]
theorem storeAfter_cons (item : LineRead) (rest : List LineRead) (store : Store) :
    s.storeAfter (item :: rest) store = s.storeAfter rest (s.react item store).2 := rfl

theorem storeAfter_append (xs ys : List LineRead) (store : Store) :
    s.storeAfter (xs ++ ys) store = s.storeAfter ys (s.storeAfter xs store) :=
  List.foldl_append

theorem reactions_append (xs ys : List LineRead) (store : Store) :
    s.reactions (xs ++ ys) store =
      s.reactions xs store ++ s.reactions ys (s.storeAfter xs store) := by
  induction xs generalizing store with
  | nil => rfl
  | cons item xs ih =>
      rw [List.cons_append, reactions, reactions, ih, storeAfter_cons]
      rfl

theorem length_reactions (items : List LineRead) (store : Store) :
    (s.reactions items store).length = items.length := by
  induction items generalizing store with
  | nil => rfl
  | cons item items ih => rw [reactions, List.length_cons, List.length_cons, ih]

theorem getElem?_reactions {items : List LineRead} {i : Nat} {item : LineRead}
    (h : items[i]? = some item) (store : Store) :
    (s.reactions items store)[i]? = some (s.react item (s.storeAfter (items.take i) store)).1 := by
  induction items generalizing i store with
  | nil => cases h
  | cons first items ih =>
      cases i with
      | zero =>
          cases h
          rfl
      | succ i =>
          rw [List.getElem?_cons_succ] at h
          rw [reactions, List.getElem?_cons_succ, ih h, List.take_succ_cons, storeAfter_cons]

/-- A session ends with a request to quit and with no other line. -/
theorem close_dispatch (t : Text) (store : Store) :
    (s.dispatch t store).1.close = decide (Command.parse t = .ok .quit) := by
  rcases s.dispatch_cases t store with ⟨payload, h⟩ | ⟨c, o, next, hparse, hexec, h⟩
  · -- A request to quit is never refused.
    have hne : Command.parse t ≠ .ok .quit := by
      intro hquit
      simp only [dispatch, hquit, execute] at h
      cases h
    rw [h, decide_eq_false hne]
    rfl
  · obtain ⟨-, -, -, hclose, -⟩ := execute_ok hexec
    rw [h, hparse, Bool.eq_iff_iff, hclose, decide_eq_true_iff]
    constructor
    · rintro rfl
      rfl
    · intro hc
      cases hc
      rfl

/-- One item is answered by one reply, and then the session goes on unless the item was final. -/
theorem serve_react {item : LineRead} (hitem : item ≠ .ended) (rest : List LineRead)
    (store : Store) :
    (s.serve (item :: rest) store).replies = (s.react item store).1 ::
        (if item.isFinal then [] else (s.serve rest (s.react item store).2).replies) ∧
      (s.serve (item :: rest) store).store =
        if item.isFinal then (s.react item store).2
        else (s.serve rest (s.react item store).2).store := by
  cases item with
  | ended => exact absurd rfl hitem
  | tooLong => exact ⟨rfl, rfl⟩
  | unterminated t => exact ⟨rfl, rfl⟩
  | line t =>
      simp only [serve, react, LineRead.text?, LineRead.isFinal, close_dispatch, decide_eq_true_iff]
      split <;> exact ⟨rfl, rfl⟩

/-- A connection is served item by item, up to the first final one. -/
theorem serve_upToFinal {items : List LineRead} (h : .ended ∉ items) (store : Store) :
    (s.serve (items ++ [.ended]) store).replies = s.reactions (upToFinal items) store ∧
      (s.serve (items ++ [.ended]) store).store = s.storeAfter (upToFinal items) store := by
  induction items generalizing store with
  | nil => exact ⟨rfl, rfl⟩
  | cons item items ih =>
      obtain ⟨hitem, hitems⟩ := not_or.mp (mt List.mem_cons.mpr h)
      obtain ⟨hreplies, hstore⟩ := s.serve_react (Ne.symm hitem) (items ++ [.ended]) store
      obtain ⟨ihreplies, ihstore⟩ := ih hitems (s.react item store).2
      rw [List.cons_append, hreplies, hstore, upToFinal_cons, reactions, storeAfter_cons]
      split
      · exact ⟨rfl, rfl⟩
      · rw [ihreplies, ihstore]
        exact ⟨rfl, rfl⟩

theorem run_eq (bytes : Bytes) (store : Store) :
    s.run bytes store =
      (s.welcome :: s.reactions (upToFinal (itemsOf s.limit bytes)) store,
        s.storeAfter (upToFinal (itemsOf s.limit bytes)) store) := by
  obtain ⟨hreplies, hstore⟩ := s.serve_upToFinal (ended_not_mem_itemsOf s.limit bytes) store
  rw [run, readAll_eq_itemsOf, hreplies, hstore]

/-- A connection on which nobody quits goes on where another one begins. -/
theorem run_append {a : Bytes} (ha : a.getLast? = some lineFeed)
    (hquit : ∀ t, .line t ∈ itemsOf s.limit a → Command.parse t ≠ .ok .quit)
    (hcounted : IsCounted s.limit a) (b : Bytes) (store : Store) :
    s.run (a ++ b) store =
      ((s.run a store).1 ++ (s.run b (s.run a store).2).1.tail,
        (s.run b (s.run a store).2).2) := by
  obtain ⟨hitems, hended⟩ := itemsOf_append (.inr ha) hcounted b
  have hgoes : ∀ item ∈ itemsOf s.limit a, item.isFinal = false := by
    intro item hmem
    cases item with
    | line t => exact decide_eq_false (hquit t hmem)
    | unterminated t => exact absurd hmem (hended t)
    | tooLong => rfl
    | ended => rfl
  have hall : upToFinal (itemsOf s.limit a) = itemsOf s.limit a := by
    have happend := upToFinal_append hgoes []
    rwa [List.append_nil, upToFinal_nil, List.append_nil] at happend
  rw [run_eq, run_eq, run_eq, hitems, upToFinal_append hgoes, hall, reactions_append,
    storeAfter_append]
  rfl

/-! ## What is written -/

/-- The line by which a session greets a client. -/
def greeting : Text :=
  "+OK ".toList ++ s.host ++ ':' :: Decimal.ofNat s.port.toNat ++
    " PERISCOPE registry server ver. 0.1.0 (-)".toList

/-- All that a session writes on a connection. -/
def written (bytes : Bytes) (store : Store) : Bytes := replyBytes (s.run bytes store).1

theorem lines_welcome : s.welcome.lines = [s.greeting] := by
  have hpieces : Template.pieces Payload.welcome = [[], ":".toList,
      " PERISCOPE registry server ver. ".toList, " (".toList, ")".toList] := by decide +kernel
  rw [welcome, Template.render, hpieces]
  simp [Reply.ok, Status.line, Status.okMark, Template.interleave, greeting, portText,
    Payload.serverVersion, Payload.serverBuild]

theorem lines_overlong : s.overlong.lines =
    ["-ERR bad format. line exceeds ".toList ++ Decimal.ofNat s.limit.toNat ++
      " bytes".toList] := by
  have hwords : "-ERR bad format. line exceeds ".toList =
      Status.errMark ++ ' ' :: (Payload.badFormat ++ " line exceeds ".toList) := by decide +kernel
  rw [overlong, Reply.err, Status.line, hwords]
  simp only [List.append_assoc, List.cons_append]

/-- The reply to an item is the line of a refusal, or the line of a success and what belongs to the
command in the item. -/
theorem lines_react (item : LineRead) (store : Store) :
    (∃ payload, (s.react item store).1.lines = [(Status.err payload).line] ∧
      (s.react item store).2 = store) ∨
    ∃ t c payload, item.text? = some t ∧ Command.parse t = .ok c ∧
      (s.react item store).1.lines = (Status.ok payload).line :: (following store c).sent := by
  rw [react]
  cases htext : item.text? with
  | none => exact .inl ⟨_, rfl, rfl⟩
  | some t =>
      rcases s.dispatch_cases t store with ⟨payload, h⟩ | ⟨c, o, next, hparse, hexec, h⟩
      · simp only [h]
        exact .inl ⟨payload, rfl, trivial⟩
      · obtain ⟨payload, hlines, -⟩ := execute_ok hexec
        simp only [h]
        exact .inr ⟨t, c, payload, rfl, hparse, hlines⟩

theorem written_eq (bytes : Bytes) (store : Store) :
    s.written bytes store = lineBytes (s.greeting ::
      (s.reactions (upToFinal (itemsOf s.limit bytes)) store).flatMap Reply.lines) := by
  rw [written, run_eq, replyBytes_eq, List.flatMap_cons, lines_welcome]
  rfl

/-- Whatever is sent on a connection, one line is written that greets the client, and then one reply
for every item up to and including the first final one, in order and on the store that the items
before it leave. A reply is a line that tells of a refusal, or a line that tells of a success and
what belongs to the command behind it. There is one item for each line, and a line beyond the limit
is refused and leaves the store alone. And where one stream ends in a line feed and asks nowhere to
quit, it makes no difference to the store, nor to the bytes that are written but for the second
greeting, whether the bytes behind it come on the same connection or on the next. -/
theorem run_streams (store : Store) :
    (∀ bytes, ∃ replies : List Reply,
      s.written bytes store = lineBytes (s.greeting :: replies.flatMap Reply.lines) ∧
        (s.run bytes store).2 = s.storeAfter (upToFinal (itemsOf s.limit bytes)) store ∧
        replies.length = (upToFinal (itemsOf s.limit bytes)).length ∧
        ∀ i item, (upToFinal (itemsOf s.limit bytes))[i]? = some item →
          replies[i]? = some (s.react item
            (s.storeAfter ((upToFinal (itemsOf s.limit bytes)).take i) store)).1) ∧
    (∀ item store,
      (∃ payload, (s.react item store).1.lines = [(Status.err payload).line] ∧
        (s.react item store).2 = store) ∨
      ∃ t c payload, item.text? = some t ∧ Command.parse t = .ok c ∧
        (s.react item store).1.lines = (Status.ok payload).line :: (following store c).sent) ∧
    (∀ bytes, bytes.length < 2 ^ 64 →
      itemsOf s.limit bytes = (segments bytes).map (itemOf s.limit)) ∧
    (∀ store, (s.react .tooLong store).2 = store ∧ (s.react .tooLong store).1.lines =
      ["-ERR bad format. line exceeds ".toList ++ Decimal.ofNat s.limit.toNat ++
        " bytes".toList]) ∧
    ∀ a b, a.getLast? = some lineFeed →
      (∀ t, .line t ∈ itemsOf s.limit a → Command.parse t ≠ .ok .quit) →
      IsCounted s.limit a →
      ∃ behind, s.written b (s.run a store).2 = lineBytes [s.greeting] ++ behind ∧
        s.written (a ++ b) store = s.written a store ++ behind ∧
        (s.run (a ++ b) store).2 = (s.run b (s.run a store).2).2 := by
  refine ⟨fun bytes => ?_, fun item store => s.lines_react item store,
    fun bytes => itemsOf_segments s.limit, fun store => ⟨rfl, s.lines_overlong⟩,
    fun a b ha hquit hcounted => ?_⟩
  · refine ⟨_, s.written_eq bytes store, ?_, s.length_reactions _ store, fun i item hitem => ?_⟩
    · rw [run_eq]
    · exact s.getElem?_reactions hitem store
  · have hjoined := s.run_append ha hquit hcounted b store
    refine ⟨lineBytes ((s.reactions (upToFinal (itemsOf s.limit b))
      (s.run a store).2).flatMap Reply.lines), ?_, ?_, by rw [hjoined]⟩
    · rw [written_eq, ← lineBytes_append]
      rfl
    · rw [written, written, hjoined, run_eq s b]
      simp only [replyBytes_eq, List.flatMap_append, lineBytes_append, List.tail_cons]

/-- With a limit of six bytes: a line with a carriage return, a request to quit that is too long to
be one, an empty line and a byte that is no character; and behind them a request to quit with
another request behind it. -/
theorem run_streams_overlong :
    let s : Session := ⟨"here", 7, 6⟩
    let a : Bytes := Utf8.encode "CLEAN\r\nQUIT      \n\n" ++ [0xFF, 10]
    let b : Bytes := Utf8.encode "QUIT\nCLEAN\n"
    a.getLast? = some lineFeed ∧
      itemsOf s.limit a = [.line "CLEAN", .tooLong, .line "", .line "\uFFFD"] ∧
      (∀ t, .line t ∈ itemsOf s.limit a → Command.parse t ≠ .ok .quit) ∧
      IsCounted s.limit a ∧
      upToFinal (itemsOf s.limit b) = [.line "QUIT"] ∧
      ∃ behind,
        s.written b (s.run a ∅).2 =
          Utf8.encode "+OK here:7 PERISCOPE registry server ver. 0.1.0 (-)\n" ++ behind ∧
        s.written (a ++ b) ∅ = s.written a ∅ ++ behind := by
  intro s a b
  have hitems : itemsOf s.limit a = [.line "CLEAN", .tooLong, .line "", .line "\uFFFD"] := by
    rw [itemsOf_segments s.limit (by decide)]
    decide
  have hquit : ∀ t, .line t ∈ itemsOf s.limit a → Command.parse t ≠ .ok .quit := by
    have hnone : ∀ item ∈ [.line "CLEAN", .tooLong, .line "", .line "\uFFFD"],
        LineRead.isFinal item = false := by decide
    intro t ht
    rw [hitems] at ht
    exact of_decide_eq_false (hnone _ ht)
  have hcounted : IsCounted s.limit a := .inl (by decide)
  refine ⟨by decide, hitems, hquit, hcounted, ?_, ?_⟩
  · rw [itemsOf_segments s.limit (by decide)]
    decide
  · obtain ⟨behind, hsecond, hjoined, -⟩ :=
      (s.run_streams ∅).2.2.2.2 a b (by decide) hquit hcounted
    have hgreeting : lineBytes [s.greeting] =
        Utf8.encode "+OK here:7 PERISCOPE registry server ver. 0.1.0 (-)\n" := by decide +kernel
    rw [hgreeting] at hsecond
    exact ⟨behind, hsecond, hjoined⟩

end Session

end ToolRegistry
