import Mathlib.Data.Fintype.Card
import ToolRegistry.Proofs.Accepted
import ToolRegistry.Proofs.EntryLines
import ToolRegistry.Proofs.Lookup
import ToolRegistry.Session

/-!
# The stores that sessions can reach

A store begins empty and is changed by nothing but the lines that sessions
read. Which session reads the next line, and from which bytes, is left open
(`Store.Reachable`), so what holds of a reachable store holds under any number
of connections, with any limits and any traffic, in any order.

What everything kept in such a store has in common (`Stored.IsSound`) is what
makes it fit to be sent: its texts can be written in quotes, its attached
texts are lines of their own, and none of them is empty. The counter of ids
wraps, but an id is kept at most once, so there are never more than 2^32
entries.
-/

namespace ToolRegistry

open Wire

/-! ## Reaching a store -/

/-- A store that begins empty and is changed by request lines that sessions have read. -/
inductive Store.Reachable : Store → Prop where
  /-- Nothing has happened yet. -/
  | start : Reachable ∅
  /-- One more line has been answered, by any session, out of any bytes. -/
  | answered {store : Store} (h : Reachable store) (s : Session) {bytes : Bytes} {line : Text}
      (hline : (readLine s.limit bytes).1 = .line line ∨
        (readLine s.limit bytes).1 = .unterminated line) :
      Reachable (s.dispatch line store).2

/-- What a session leaves behind after it has answered what it has read. -/
theorem Store.Reachable.serve {s : Session} {items : List LineRead}
    (hitems : ∀ item ∈ items, ∃ bytes, (readLine s.limit bytes).1 = item) {store : Store}
    (h : store.Reachable) : (s.serve items store).store.Reachable := by
  induction items generalizing store with
  | nil => exact h
  | cons item items ih =>
      obtain ⟨⟨bytes, hread⟩, hrest⟩ := List.forall_mem_cons.mp hitems
      cases item with
      | ended => exact h
      | tooLong => exact ih hrest h
      | unterminated line => exact h.answered s (.inr hread)
      | line line =>
          have hnext : (s.dispatch line store).2.Reachable := h.answered s (.inl hread)
          simp only [Session.serve]
          split
          · exact hnext
          · exact ih hrest hnext

theorem mem_readAll {limit : UInt64} {bytes : Bytes} {item : LineRead}
    (h : item ∈ readAll limit bytes) : ∃ bytes, (readLine limit bytes).1 = item := by
  induction bytes using readAll.induct limit with
  | case1 =>
      rw [readAll, dif_pos rfl] at h
      rw [List.mem_singleton.mp h]
      exact ⟨[], by rw [readLine_nil]⟩
  | case2 bytes hne ih =>
      rw [readAll, dif_neg hne] at h
      rcases List.mem_cons.mp h with rfl | h
      · exact ⟨bytes, rfl⟩
      · exact ih h

/-- A whole connection, whatever is sent on it, leads from one reachable store to another. -/
theorem Store.Reachable.run {store : Store} (h : store.Reachable) (s : Session) (bytes : Bytes) :
    (s.run bytes store).2.Reachable :=
  h.serve fun _ hitem => mem_readAll hitem

theorem Session.execute_limit (s : Session) (limit : UInt64) (c : Command) (store : Store) :
    { s with limit }.execute c store = s.execute c store := by
  cases c <;> rfl

/-- Every command that can be written may be carried out, by a session whose limit admits it. -/
theorem Store.Reachable.execute {store : Store} (h : store.Reachable) {s : Session} {c : Command}
    (hc : c.HasArguments IsEncodable) (hfit : c.encode.FitsInMemory) {o : Outcome} {next : Store}
    (he : s.execute c store = .ok (o, next)) : next.Reachable := by
  have hone : c.encode.IsOneLine := isOneLine_encodable hc.allTexts
  have hlen : (Utf8.encode c.encode).length + 1 < 2 ^ 64 := hfit
  have hread := @readLine_encode Link.noLimit _ hone hfit (by rw [Link.noLimit_toNat]; omega) []
  have hnext := h.answered { s with limit := Link.noLimit } (.inl (congrArg Prod.fst hread))
  simp only [Session.dispatch, parse_encodable hc, Session.execute_limit, he] at hnext
  exact hnext

/-! ## What is kept -/

/-- What is kept under an id can be shown in full: the entry is complete, its texts can be written
in quotes, and the attached texts are lines that are not empty. -/
structure Stored.IsSound (s : Stored) : Prop where
  /-- Every field has a value. -/
  complete : s.fields.IsComplete
  /-- Every text of the entry can be written in quotes. -/
  encodable : s.fields.AllTexts IsEncodable
  /-- Every attached text is a line. -/
  strings : ∀ t ∈ s.strings, t ≠ [] ∧ t.IsOneLine

namespace Store

/-- Everything in the store can be shown in full. -/
def IsSound (s : Store) : Prop := ∀ row ∈ s.rows, row.2.IsSound

/-! ## Putting an entry in the place of another -/

theorem mem_put {s : Store} {id : EntryId} {stored : Stored} {row : EntryId × Stored}
    (h : row ∈ (s.put id stored).rows) : row.2 = stored ∨ row ∈ s.rows := by
  obtain ⟨old, hold, rfl⟩ := List.mem_map.mp h
  split
  · exact .inl rfl
  · exact .inr hold

theorem IsSound.put {s : Store} (h : s.IsSound) {stored : Stored} (hs : stored.IsSound)
    (id : EntryId) : (s.put id stored).IsSound := by
  intro row hrow
  rcases mem_put hrow with hnew | hold
  · exact hnew ▸ hs
  · exact h row hold

/-! ## Laying values over an entry -/

theorem allTexts_applyTo {P : Text → Prop} {s : FieldSet} {e : EntryFields} (hs : s.AllTexts P)
    (he : e.AllTexts P) : (s.applyTo e).AllTexts P := by
  have hget : ∀ {given : Option Text} {old : Text}, (∀ t ∈ given, P t) → P old →
      P (given.getD old) := by
    intro given old hg ho
    cases given with
    | none => exact ho
    | some t => exact hg t rfl
  intro f t ht
  cases f with
  | port | pid => cases ht
  | app => cases ht; exact hget (hs .app) (he .app _ rfl)
  | site => cases ht; exact hget (hs .site) (he .site _ rfl)
  | mach => cases ht; exact hget (hs .mach) (he .mach _ rfl)
  | node => cases ht; exact hget (hs .node) (he .node _ rfl)
  | comp => cases ht; exact hget (hs .comp) (he .comp _ rfl)
  | tag => cases ht; exact hget (hs .tag) (he .tag _ rfl)

theorem allTexts_blank {P : Text → Prop} (h : P []) : EntryFields.blank.AllTexts P := by
  intro f t ht
  cases f <;> cases ht <;> exact h

/-! ## The operations that change the store -/

theorem IsSound.create {s s' : Store} {fields : FieldSet} {id : EntryId} (h : s.IsSound)
    (hf : fields.AllTexts IsEncodable) (hc : s.create fields = .ok (id, s')) : s'.IsSound := by
  obtain ⟨hcomplete, -, rfl⟩ := create_eq_ok hc
  intro row hrow
  rcases mem_insertRow hrow with rfl | hold
  · exact ⟨hcomplete, allTexts_applyTo hf (allTexts_blank (by decide)), List.forall_mem_nil _⟩
  · exact h row hold

theorem IsSound.change {s s' : Store} {fields : FieldSet} {id r : EntryId} (h : s.IsSound)
    (hf : fields.AllTexts IsEncodable) (hc : s.change id fields = .ok (r, s')) : s'.IsSound := by
  obtain ⟨stored, hfind, hcomplete, -, rfl⟩ := change_eq_ok hc
  have hold := h _ (mem_of_find? hfind)
  have hnew : Stored.IsSound { stored with fields := fields.applyTo stored.fields } :=
    ⟨hcomplete, allTexts_applyTo hf hold.encodable, hold.strings⟩
  exact h.put hnew id

theorem IsSound.delete {s s' : Store} {id r : EntryId} (h : s.IsSound)
    (hd : s.delete id = .ok (r, s')) : s'.IsSound := by
  obtain ⟨stored, -, -, rfl⟩ := delete_eq_ok hd
  exact fun row hrow => h row (List.mem_filter.mp hrow).1

theorem IsSound.clear (s : Store) : s.clear.2.IsSound := List.forall_mem_nil _

theorem IsSound.addString {s s' : Store} {id : EntryId} {t : Text} {n : Nat} (h : s.IsSound)
    (ht : t ≠ [] ∧ t.IsOneLine) (ha : s.addString id t = .ok (n, s')) : s'.IsSound := by
  obtain ⟨stored, hfind, -, rfl⟩ := addString_eq_ok ha
  have hold := h _ (mem_of_find? hfind)
  have hnew : Stored.IsSound { stored with strings := stored.strings ++ [t] } := by
    refine ⟨hold.complete, hold.encodable, fun u hu => ?_⟩
    rcases List.mem_append.mp hu with hu | hu
    · exact hold.strings u hu
    · exact List.mem_singleton.mp hu ▸ ht
  exact h.put hnew id

theorem IsSound.deleteString {s s' : Store} {id : EntryId} {pos : UInt64} (h : s.IsSound)
    (hd : s.deleteString id pos = .ok s') : s'.IsSound := by
  obtain ⟨stored, hfind, -, -, rfl⟩ := deleteString_eq_ok hd
  have hold := h _ (mem_of_find? hfind)
  have hnew : Stored.IsSound { stored with strings := stored.strings.eraseIdx (pos.toNat - 1) } :=
    ⟨hold.complete, hold.encodable, fun u hu => hold.strings u (List.mem_of_mem_eraseIdx hu)⟩
  exact h.put hnew id

/-! ## Every reachable store -/

/-- Carrying out a command whose texts came out of one line. -/
theorem IsSound.execute {s : Session} {c : Command} {store store' : Store} {outcome : Outcome}
    (h : store.IsSound) (hline : c.HasArguments Text.IsOneLine)
    (hquote : c.fieldSet.AllTexts ('"' ∉ ·)) (he : s.execute c store = .ok (outcome, store')) :
    store'.IsSound := by
  cases c with
  | quit | help | search | list | clean => cases he; first | exact h | exact .clear store
  | create fields =>
      obtain ⟨⟨id, next⟩, hop, he⟩ := Except.bind_eq_ok.mp he
      cases he
      exact h.create (fun f t ht => ⟨hquote f t ht, hline f t ht⟩) hop
  | change id fields =>
      obtain ⟨⟨r, next⟩, hop, he⟩ := Except.bind_eq_ok.mp he
      cases he
      exact h.change (fun f t ht => ⟨hquote f t ht, hline.2 f t ht⟩) hop
  | delete id =>
      obtain ⟨⟨r, next⟩, hop, he⟩ := Except.bind_eq_ok.mp he
      cases he
      exact h.delete hop
  | addString id t =>
      obtain ⟨⟨n, next⟩, hop, he⟩ := Except.bind_eq_ok.mp he
      cases he
      exact h.addString hline.2 hop
  | deleteString id pos =>
      obtain ⟨next, hop, he⟩ := Except.bind_eq_ok.mp he
      cases he
      exact h.deleteString hop
  | fetch id | getString id pos | listStrings id | countStrings id =>
      obtain ⟨r, hop, he⟩ := Except.bind_eq_ok.mp he
      cases he
      exact h

/-- Answering a line keeps the store sound. -/
theorem IsSound.dispatch {store : Store} (h : store.IsSound) (s : Session) {line : Text}
    (hline : line.IsOneLine) : (s.dispatch line store).2.IsSound := by
  simp only [Session.dispatch]
  split
  · exact h
  · next c hparse =>
      obtain ⟨hargs, hquote⟩ := parse_sound hparse
      split
      · next answer he => exact h.execute (hargs.mono fun _ ht => hline.mono ht) hquote he
      · exact h

/-- Whatever sessions have read, everything kept can be shown in full. -/
theorem Reachable.isSound {store : Store} (h : store.Reachable) : store.IsSound := by
  induction h with
  | start => exact List.forall_mem_nil _
  | answered _ s hline ih => exact ih.dispatch s (isOneLine_of_readLine hline)

/-! ## How many entries there are -/

/-- No id is kept twice, so there are never more entries than ids. -/
theorem size_le (s : Store) : s.size ≤ 2 ^ 32 := by
  have hnodup : (s.rows.map fun row => row.1.toFin).Nodup := by
    refine List.pairwise_map.mpr (s.ordered.imp fun {a b} hab heq => ?_)
    exact absurd (UInt32.toFin_inj.mp heq) (UInt32.ne_of_lt hab)
  have hcard := hnodup.length_le_card
  rwa [List.length_map, Fintype.card_fin] at hcard

end Store

end ToolRegistry
