import ToolRegistry.Proofs.Answers
import ToolRegistry.Proofs.Positions
import ToolRegistry.Proofs.Rereading
import ToolRegistry.Proofs.Searches

/-!
# Replies that agree

Seven commands show what a store holds, and each is answered on its own, out of
a read of its own. A client that puts two of the answers together relies on them
to tell of the same store: that there are as many lines as the number before
them says, that a line shown alone is the one in the list, and that the text at a
position is the one on that line of the body, once a dot has been taken off.

All of this is said of the lines as they are sent (`Reply.Tells`), and an entry
is recognised in them by its id alone (`isLineOf`). What makes it so is kept in
three places. Entries are listed by ids that increase, so no id has two lines. A
search is the list with some of it left out. And the texts of an entry are one
list, however they are asked for (`HasTexts`).

A request with an id of 0 is refused before the store is asked. The counter of
ids comes round, so an entry may have the id 0 all the same. Such an entry is
listed and found, but it cannot be shown alone, and neither can its texts.
-/

namespace ToolRegistry

open Wire

theorem filter_key_eq_singleton {α κ : Type} [DecidableEq κ] {key : α → κ} {l : List α}
    (h : (l.map key).Nodup) {a : α} (ha : a ∈ l) : l.filter (fun b => key b == key a) = [a] := by
  induction l with
  | nil => cases ha
  | cons b l ih =>
      obtain ⟨hb, hl⟩ := List.nodup_cons.mp h
      have hne : ∀ c ∈ l, key c ≠ key b := fun c hc heq => hb (heq ▸ List.mem_map_of_mem hc)
      rcases List.mem_cons.mp ha with rfl | ha
      · have hrest : l.filter (fun c => key c == key a) = [] :=
          List.filter_eq_nil_iff.mpr fun c hc => by simpa using hne c hc
        simp [hrest]
      · have hba : ¬key b = key a := fun heq => hne a ha heq.symm
        simp [hba, ih hl ha]

/-! ## Replies as they are sent -/

namespace Wire

/-- A reply of success: a template with numbers in its places, then these lines. -/
def Reply.Tells (r : Reply) (template : Text) (numbers : List Nat) (rest : List Text) : Prop :=
  r.lines = (Status.ok (Template.render template (numbers.map Decimal.ofNat))).line :: rest

instance (r : Reply) (template : Text) (numbers : List Nat) (rest : List Text) :
    Decidable (r.Tells template numbers rest) :=
  inferInstanceAs (Decidable (_ = _))

theorem Reply.Tells.isOk {r : Reply} {template : Text} {numbers : List Nat} {rest : List Text}
    (h : r.Tells template numbers rest) : r.isOk = true := by
  rw [Reply.isOk, h]
  rfl

/-- A line is read as the entry with this id. -/
def isLineOf (id : EntryId) (line : Text) : Bool := (parseEntryLine? line).any (·.id == id)

/-- A line is read as an entry that has what a search asks for. -/
def lineMatches (p : FieldSet) (line : Text) : Bool :=
  (parseEntryLine? line).any fun r => p.Matches r.fields

end Wire

namespace Session

open Exchange (bodyLines)

variable {s : Session} {store next : Store} {c : Command} {o : Outcome} {id : EntryId}

/-- The reply to a command that is sent as a client sends it. -/
def replyTo (s : Session) (c : Command) (store : Store) : Reply :=
  (s.dispatch c.encode store).1.reply

theorem replyTo_of_execute (hc : c.HasArguments ('"' ∉ ·))
    (h : s.execute c store = .ok (o, next)) : s.replyTo c store = o.reply := by
  rw [replyTo, dispatch, parse_encode hc]
  simp only [h]

theorem tells_of_execute {template : Text} {numbers : List Nat} {rest : List Text}
    (hc : c.HasArguments ('"' ∉ ·)) (reply : Reply) (next : Store)
    (h : s.execute c store = .ok (.goOn reply, next)) (htells : reply.Tells template numbers rest) :
    (s.replyTo c store).Tells template numbers rest := by
  rw [replyTo_of_execute hc h]
  exact htells

/-- A request is refused for its arguments or by the store. -/
theorem replyTo_refused (hc : c.AllTexts ('"' ∉ ·))
    (h : c.HasArguments ('"' ∉ ·) → ∃ e, s.execute c store = .error e) :
    (s.replyTo c store).isOk = false := by
  rw [replyTo, dispatch]
  by_cases hargs : c.HasArguments ('"' ∉ ·)
  · obtain ⟨e, he⟩ := h hargs
    rw [parse_encode hargs]
    simp only [he, failure_eq]
    rfl
  · obtain ⟨e, he⟩ := parse_encode_error hc hargs
    obtain ⟨payload, hreply⟩ := refusal_isErr e
    rw [he]
    simp only [hreply]
    rfl

/-- However a request is spelled, it is answered as a client would spell it. -/
theorem dispatch_eq_encode {line : Text} (hparse : Command.parse line = .ok c)
    (hc : ∀ id t, c ≠ .addString id t) (s : Session) (store : Store) :
    s.dispatch line store = s.dispatch c.encode store := by
  rcases allTexts_or_stray hparse with ⟨-, htexts⟩ | ⟨-, id, hadd⟩
  · have hargs := (parse_sound hparse).1.of_allTexts htexts
    rw [dispatch, dispatch, hparse, parse_encode hargs]
  · exact absurd hadd (hc id _)

/-! ## Entries -/

/-- The lines of all entries, in the order of their ids. -/
def entryLines (store : Store) : List Text := store.list.map formatEntryLine

section Sound

variable (hstore : store.IsSound)
include hstore

theorem parse_of_mem_list {r : EntryRecord} (hr : r ∈ store.list) :
    parseEntryLine? (formatEntryLine r) = some r :=
  parse_formatEntryLine ((hstore.search hr).2.mono fun _ ht => ht.1)

theorem filter_entryLines {p : Text → Bool} {q : EntryRecord → Bool}
    (hpq : ∀ r, parseEntryLine? (formatEntryLine r) = some r → p (formatEntryLine r) = q r) :
    (entryLines store).filter p = (store.list.filter q).map formatEntryLine := by
  rw [entryLines, List.filter_map]
  congr 1
  exact List.filter_congr fun r hr => hpq r (parse_of_mem_list hstore hr)

theorem filter_isLineOf (id : EntryId) :
    (entryLines store).filter (isLineOf id) =
      (store.list.filter (·.id == id)).map formatEntryLine := by
  refine filter_entryLines hstore fun r hr => ?_
  rw [isLineOf, hr, Option.any_some]

theorem filter_lineMatches (p : FieldSet) :
    (entryLines store).filter (lineMatches p) = (store.search p).map formatEntryLine := by
  rw [Store.search_eq_filter]
  refine filter_entryLines hstore fun r hr => ?_
  rw [lineMatches, hr, Option.any_some]

theorem filter_isLineOf_of_fetch {r : EntryRecord} (h : store.fetch id = .ok r) :
    (entryLines store).filter (isLineOf id) = [formatEntryLine r] := by
  have hid : r.id = id := Store.fetch_id h
  have hmem : r ∈ store.list := Store.mem_list_iff.mpr (hid ▸ h)
  subst hid
  have hnodup : (store.list.map EntryRecord.id).Nodup := store.list_pairwise.imp UInt32.ne_of_lt
  rw [filter_isLineOf hstore, filter_key_eq_singleton hnodup hmem]
  rfl

theorem filter_isLineOf_of_get {e : StoreError} (h : store.get id = .error e) :
    (entryLines store).filter (isLineOf id) = [] := by
  have hnone : store.list.filter (·.id == id) = [] := by
    refine List.filter_eq_nil_iff.mpr fun r hr hid => ?_
    have hfetch := Store.mem_list_iff.mp hr
    rw [beq_iff_eq.mp hid, Store.fetch_eq, h] at hfetch
    cases hfetch
  rw [filter_isLineOf hstore, hnone]
  rfl

end Sound

/-! ## What is asked about one entry -/

/-- Nothing is shown of an entry. -/
structure ShowsNothing (s : Session) (store : Store) (id : EntryId) : Prop where
  shown : (s.replyTo (.fetch id) store).isOk = false
  counted : (s.replyTo (.countStrings id) store).isOk = false
  listed : (s.replyTo (.listStrings id) store).isOk = false
  fetched : ∀ pos, (s.replyTo (.getString id pos) store).isOk = false

/-- The replies about one entry agree with each other and with the lines of all entries. -/
structure ShowsAlike (s : Session) (store : Store) (body : List Text) (id : EntryId) (line : Text)
    (texts : List Text) : Prop where
  shown : (s.replyTo (.fetch id) store).Tells Payload.fetched [id.toNat] [line]
  /-- Of the lines of all entries one has the id. -/
  listed : body.filter (isLineOf id) = [line]
  /-- A search keeps that line or finds none with the id. -/
  found : ∀ p, (body.filter (lineMatches p)).filter (isLineOf id) =
    if lineMatches p line then [line] else []
  counted : (s.replyTo (.countStrings id) store).Tells Payload.stringsCounted
    [texts.length, id.toNat] []
  textsListed : (s.replyTo (.listStrings id) store).Tells Payload.stringsListed
    [texts.length, id.toNat] (bodyLines texts)
  fetched : ∀ pos, (s.replyTo (.getString id pos) store).isOk = true ↔
    1 ≤ pos.toNat ∧ pos.toNat ≤ texts.length
  /-- The position of a text is that of its line in the reply that lists them all, where the status
  line has the place 0. -/
  textFetched : ∀ pos, 1 ≤ pos.toNat → pos.toNat ≤ texts.length →
    ∃ sent, (s.replyTo (.listStrings id) store).lines[pos.toNat]? = some sent ∧
      (s.replyTo (.getString id pos) store).Tells Payload.stringFetched
        [pos.toNat, id.toNat, (Utf8.encode (unstuff sent)).length] [unstuff sent]

theorem showsNothing_zero (s : Session) (store : Store) : s.ShowsNothing store 0 where
  shown := replyTo_refused trivial fun h => absurd rfl h
  counted := replyTo_refused trivial fun h => absurd rfl h
  listed := replyTo_refused trivial fun h => absurd rfl h
  fetched _ := replyTo_refused trivial fun h => absurd rfl h.1

theorem showsNothing_of_get {e : StoreError} (h : store.get id = .error e) (s : Session) :
    s.ShowsNothing store id where
  shown := replyTo_refused trivial fun _ => ⟨e, by simp only [execute, Store.fetch, h]; rfl⟩
  counted := replyTo_refused trivial fun _ =>
    ⟨e, by simp only [execute, Store.countStrings, h]; rfl⟩
  listed := replyTo_refused trivial fun _ => ⟨e, by simp only [execute, Store.listStrings, h]; rfl⟩
  fetched _ := replyTo_refused trivial fun _ =>
    ⟨e, by simp only [execute, Store.getString, h]; rfl⟩

theorem getElem?_bodyLines {texts : List Text} {i : Nat} (hi : i < texts.length) :
    (bodyLines texts)[i]? = some (stuff texts[i]) := by
  rw [bodyLines, List.getElem?_append_left (by simpa using hi), List.getElem?_map,
    List.getElem?_eq_getElem hi]
  rfl

theorem textsListed_of_hasTexts {texts : List Text} (hid : id ≠ 0) (h : store.HasTexts id texts)
    (s : Session) :
    (s.replyTo (.listStrings id) store).Tells Payload.stringsListed [texts.length, id.toNat]
      (bodyLines texts) := by
  refine tells_of_execute hid _ store ?_ rfl
  simp only [execute, h.listed]
  rfl

theorem textFetched_of_hasTexts {texts : List Text} (hid : id ≠ 0) (h : store.HasTexts id texts)
    {pos : UInt64} {i : Nat} (hi : i < texts.length) (hpos : pos.toNat = i + 1) (s : Session) :
    (s.replyTo (.getString id pos) store).Tells Payload.stringFetched
      [pos.toNat, id.toNat, (Utf8.encode texts[i]).length] [texts[i]] := by
  have hzero : pos ≠ 0 := fun h0 => by rw [Store.toNat_eq_zero.mpr h0] at hpos; omega
  refine tells_of_execute ⟨hid, hzero⟩ _ store ?_ rfl
  simp only [execute, h.shown pos i hi hpos]
  rfl

theorem showsAlike_of_find? (hstore : store.IsSound) (hid : id ≠ 0) {stored : Stored}
    (h : store.find? id = some stored) (s : Session) :
    s.ShowsAlike store (entryLines store) id (formatEntryLine ⟨id, stored.fields⟩)
      stored.strings := by
  have hfetch : store.fetch id = .ok ⟨id, stored.fields⟩ := Store.fetch_of_find? h
  have hline := filter_isLineOf_of_fetch hstore hfetch
  have htexts : store.HasTexts id stored.strings := Store.hasTexts_of_find? h
  have hlisted := textsListed_of_hasTexts hid htexts s
  refine ⟨?_, hline, fun p => ?_, ?_, hlisted, fun pos => ?_, fun pos hone hlast => ?_⟩
  · refine tells_of_execute hid _ store ?_ rfl
    simp only [execute, hfetch]
    rfl
  -- A search leaves lines out, so the line of an id can be picked before it as well as after it.
  · rw [List.filter_comm, hline, List.filter_cons, List.filter_nil]
  · refine tells_of_execute hid _ store ?_ rfl
    simp only [execute, htexts.counted]
    rfl
  · by_cases hin : 1 ≤ pos.toNat ∧ pos.toNat ≤ stored.strings.length
    · obtain ⟨i, hpos⟩ : ∃ i, pos.toNat = i + 1 := ⟨pos.toNat - 1, by omega⟩
      have hi : i < stored.strings.length := by omega
      exact iff_of_true (textFetched_of_hasTexts hid htexts hi hpos s).isOk hin
    · have hrefused : (s.replyTo (.getString id pos) store).isOk = false := by
        refine replyTo_refused trivial fun _ => ⟨.noString id pos, ?_⟩
        simp only [execute, htexts.beyond pos (by omega)]
        rfl
      exact iff_of_false (by simp [hrefused]) hin
  · obtain ⟨i, hpos⟩ : ∃ i, pos.toNat = i + 1 := ⟨pos.toNat - 1, by omega⟩
    have hi : i < stored.strings.length := by omega
    refine ⟨stuff stored.strings[i], ?_, ?_⟩
    · rw [hlisted, hpos]
      exact getElem?_bodyLines hi
    · rw [unstuff_stuff]
      exact textFetched_of_hasTexts hid htexts hi hpos s

/-- In every store that sessions have led to, the replies agree. As many lines are listed as the
number before them says, and as would be removed. A search shows some of these lines. About an entry
there is either nothing to be shown or one line, the same in all of them, and as many texts as are
counted, each of them the same alone as among the others. -/
theorem replies_agree (hstore : store.Reachable) (s : Session) :
    (∀ line c, Command.parse line = .ok c → (∀ id t, c ≠ .addString id t) →
      s.dispatch line store = s.dispatch c.encode store) ∧
    ∃ body : List Text,
      (s.replyTo .list store).Tells Payload.listed [body.length] (bodyLines body) ∧
      (s.replyTo .clean store).Tells Payload.cleaned [body.length] [] ∧
      (∀ p : FieldSet, p.AllTexts ('"' ∉ ·) →
        (s.replyTo (.search p) store).Tells Payload.found []
          (bodyLines (body.filter (lineMatches p)))) ∧
      ∀ id, s.ShowsNothing store id ∧ (id ≠ 0 → body.filter (isLineOf id) = []) ∨
        ∃ line texts, s.ShowsAlike store body id line texts := by
  have hsound : store.IsSound := hstore.isSound
  have hlength : (entryLines store).length = store.list.length := List.length_map _
  refine ⟨fun line c hparse hc => dispatch_eq_encode hparse hc s store, entryLines store, ?_, ?_,
    fun p hp => ?_, fun id => ?_⟩
  · rw [hlength]
    exact tells_of_execute trivial _ store rfl rfl
  · rw [hlength, Store.length_list]
    exact tells_of_execute trivial _ store.clear.2 rfl rfl
  · rw [filter_lineMatches hsound]
    exact tells_of_execute hp _ store rfl rfl
  -- There may be an entry with the id 0 in the list, but there is no way to ask for it.
  · by_cases hid : id = 0
    · subst hid
      exact .inl ⟨showsNothing_zero s store, fun hne => absurd rfl hne⟩
    · cases hget : store.get id with
      | error e =>
          exact .inl ⟨showsNothing_of_get hget s, fun _ => filter_isLineOf_of_get hsound hget⟩
      | ok stored =>
          exact .inr ⟨_, _, showsAlike_of_find? hsound hid (Store.get_eq_ok_iff.mp hget) s⟩

/-- The first text is a dot, so another one goes in front of it in the list and not where it is
shown alone. The second is one character of two bytes. There is no third, and no other entry. -/
theorem replies_agree_dotted :
    let e : EntryFields :=
      { app := "a", site := "b", mach := "c", node := "d", port := 1, pid := 2, comp := "e",
        tag := "f" }
    let store : Store := ⟨[(1, ⟨e, [".", "é"]⟩)], 2, List.pairwise_singleton _ _⟩
    let s : Session := ⟨"here", 7, 100⟩
    let sent : List Text := ["..", "é", "."]
    store.Reachable ∧ s.dispatch " liststr\t01 x" store = s.dispatch "LISTSTR 1" store ∧
      (s.replyTo (.listStrings 1) store).lines.tail = sent ∧
      (s.replyTo (.getString 1 1) store).Tells Payload.stringFetched [1, 1, 1] ["."] ∧
      (s.replyTo (.getString 1 2) store).Tells Payload.stringFetched [2, 1, 2] ["é"] ∧
      (s.replyTo (.getString 1 3) store).isOk = false ∧ s.ShowsNothing store 2 := by
  intro e store s sent
  have hcreated : Store.Reachable ⟨[(1, ⟨e, []⟩)], 2, List.pairwise_singleton _ _⟩ :=
    Store.Reachable.start.execute (s := s) (c := .create (.ofFields e)) (by decide) (by decide)
      (o := .goOn (success Payload.created [idText 1])) rfl
  have hdotted : Store.Reachable ⟨[(1, ⟨e, ["."]⟩)], 2, List.pairwise_singleton _ _⟩ :=
    hcreated.execute (s := s) (c := .addString 1 ".") (by decide) (by decide)
      (o := .goOn (success Payload.stringAdded [natText 1])) rfl
  have hstore : store.Reachable :=
    hdotted.execute (s := s) (c := .addString 1 "é") (by decide) (by decide)
      (o := .goOn (success Payload.stringAdded [natText 2])) rfl
  obtain ⟨hspelled, body, -, -, -, hid⟩ := replies_agree hstore s
  have hlines : (s.replyTo (.listStrings 1) store).lines.tail = sent := by decide +kernel
  have hshown : (s.replyTo (.fetch 1) store).isOk = true := by decide +kernel
  have hmissing : (s.replyTo (.fetch 2) store).isOk = false := by decide +kernel
  rcases hid 1 with ⟨hnothing, -⟩ | ⟨line, texts, halike⟩
  · rw [hnothing.shown] at hshown
    cases hshown
  · have htext : ∀ pos : UInt64, (s.replyTo (.getString 1 pos) store).isOk = true →
        ∃ sent, (s.replyTo (.listStrings 1) store).lines[pos.toNat]? = some sent ∧
          (s.replyTo (.getString 1 pos) store).Tells Payload.stringFetched
            [pos.toNat, 1, (Utf8.encode (unstuff sent)).length] [unstuff sent] := by
      intro pos hok
      obtain ⟨hone, hlast⟩ := (halike.fetched pos).mp hok
      exact halike.textFetched pos hone hlast
    have hplace : ∀ i, (s.replyTo (.listStrings 1) store).lines[i + 1]? = sent[i]? :=
      fun i => by rw [← List.getElem?_tail, hlines]
    obtain ⟨dots, hdots, hfirst⟩ := htext 1 (by decide +kernel)
    obtain ⟨accent, haccent, hsecond⟩ := htext 2 (by decide +kernel)
    cases (hplace 0).symm.trans hdots
    cases (hplace 1).symm.trans haccent
    refine ⟨hstore, hspelled _ (.listStrings 1) (by decide) nofun, hlines, hfirst, hsecond,
      by decide +kernel, ?_⟩
    rcases hid 2 with ⟨hnothing, -⟩ | ⟨line, texts, halike⟩
    · exact hnothing
    · rw [halike.shown.isOk] at hmissing
      cases hmissing

end Session

end ToolRegistry
