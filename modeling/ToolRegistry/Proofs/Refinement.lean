import ToolRegistry.Proofs.Operations

/-!
# A client of a registry sees the store

A client that talks to a session gets from every operation what the store
itself would have answered, and leaves behind the store that the operation
itself would have left. The argument follows a call along its way. The
arguments pass the client's checks, the line of the command is read as that
command, the session carries it out, and the client either collects the answer
or finds in the refusal the failure that the store had reported. Only the
wording of that failure is lost on the way, because a refusal is no more than
a few words.

A line beyond the limit of the session is the one exception. It is refused as
a bad format and nothing happens.
-/

namespace ToolRegistry

open Wire Exchange

/-! ## Checking arguments -/

theorem Client.checkText_eq_ok {what t : Text} : checkText what t = .ok () ↔ IsEncodable t := by
  rw [checkText]
  split <;> simp [*]

theorem Client.checkFields_eq_ok {s : FieldSet} {fs : List Field} :
    checkFields s fs = .ok () ↔ ∀ f ∈ fs, ∀ t ∈ s.text? f, IsEncodable t := by
  induction fs with
  | nil => simp [checkFields]
  | cons f fs ih =>
      rw [checkFields, List.forall_mem_cons]
      cases ht : s.text? f with
      | none => simp [ih]
      | some t =>
          have hone : (∀ u ∈ some t, IsEncodable u) ↔ IsEncodable t := by simp
          rw [hone, ← ih]
          by_cases h : IsEncodable t <;> simp [checkText, h]

/-- A client lets pass the sets whose texts can all be written in quotes. -/
theorem Client.checkSet_eq_ok {s : FieldSet} : checkSet s = .ok () ↔ s.AllTexts IsEncodable := by
  rw [checkSet, checkFields_eq_ok]
  exact ⟨fun h f => h f f.mem_all, fun h f _ => h f⟩

namespace Operation

variable {α : Type}

/-- A client sends a request as soon as its texts can be written. -/
theorem check_eq_ok {op : Operation α} : op.check = .ok () ↔ op.command.AllTexts IsEncodable := by
  cases op with
  | createEntry e => exact Client.checkSet_eq_ok
  | changeEntry id s => exact Client.checkSet_eq_ok
  | queryEntries s | openEntry s => exact Client.checkSet_eq_ok
  | storeString id t =>
      simp only [check, command, Command.AllTexts]
      split
      · next h => simp [h]
      · next h => simp [h, Client.checkText_eq_ok]
  | _ => exact ⟨fun _ => trivial, fun _ => rfl⟩

end Operation

/-! ## Failures -/

/-- The same failure up to the wording. -/
def RegistryError.Agrees : RegistryError → RegistryError → Prop
  | .incompleteData _, .incompleteData _ => True
  | e, e' => e = e'

theorem Store.getString_error {s : Store} {id : EntryId} {pos : UInt64} {e : StoreError}
    (h : s.getString id pos = .error e) : e = .noEntry id ∨ e = .noString id pos := by
  rcases Except.bind_eq_error.mp h with h | ⟨stored, -, h⟩
  · exact .inl (get_eq_error h)
  · right
    split at h
    · cases h; rfl
    · split at h <;> cases h
      rfl

theorem Store.deleteString_error {s : Store} {id : EntryId} {pos : UInt64} {e : StoreError}
    (h : s.deleteString id pos = .error e) : e = .noEntry id ∨ e = .noString id pos := by
  rcases Except.bind_eq_error.mp h with h | ⟨stored, -, h⟩
  · exact .inl (get_eq_error h)
  · right
    split at h <;> cases h
    rfl

namespace Operation

variable {α : Type}

/-- A failure of the store is about the entry and the position that the command names. -/
theorem perform_error {store : Store} {op : Operation α} {e : StoreError}
    (h : op.perform store = .error e) :
    (∃ missing, e = .incomplete missing) ∨ e = .noEntry (subject op.command).1 ∨
      e = .noString (subject op.command).1 (subject op.command).2 := by
  cases op with
  | queryEntries | openEntry | listEntries | clean | help => cases h
  | createEntry entry =>
      simp only [perform, Store.create] at h
      split at h <;> cases h
      exact .inl ⟨_, rfl⟩
  | changeEntry id s =>
      rcases Except.bind_eq_error.mp h with h | ⟨stored, -, h⟩
      · exact .inr (.inl (Store.get_eq_error h))
      · simp only [] at h
        split at h <;> cases h
        exact .inl ⟨_, rfl⟩
  | deleteEntry id | storeString id t =>
      rcases Except.bind_eq_error.mp h with h | ⟨stored, -, h⟩
      · exact .inr (.inl (Store.get_eq_error h))
      · cases h
  | fillEntry id | listStrings id | countStrings id =>
      rcases Except.bind_eq_error.mp (Except.map_eq_error.mp h) with h | ⟨stored, -, h⟩
      · exact .inr (.inl (Store.get_eq_error h))
      · cases h
  | getStringAt id pos => exact .inr (Store.getString_error (Except.map_eq_error.mp h))
  | deleteString id pos => exact .inr (Store.deleteString_error (Except.map_eq_error.mp h))

end Operation

theorem refusal_overlongPayload (s : Session) (c : Command) :
    refusal s.overlongPayload c = .badFormat (.refused s.overlongPayload) := rfl

/-- The words of a refusal by the store stand for the failure that the store has reported. -/
theorem refusal_failurePayload (c : Command) (kind : CommandKind) {e : StoreError}
    (h : (∃ missing, e = .incomplete missing) ∨ e = .noEntry (subject c).1 ∨
      e = .noString (subject c).1 (subject c).2) :
    (refusal (Session.failurePayload kind e) c).Agrees (.ofStore e) := by
  rcases h with ⟨missing, rfl⟩ | rfl | rfl
  · exact trivial
  · rfl
  · rfl

/-! ## Whole calls -/

/-- A request to a session: the status line of the reply is read, and what follows it is left. -/
theorem request_ofSession {s : Session} {c : Command} (hone : c.encode.IsOneLine)
    (hfit : c.encode.FitsInMemory) {store next : Store} {reply : Reply}
    (hresp : s.respond c.encode store = (.goOn reply, next)) {status : Text} {tail : List Text}
    (hlines : reply.lines = status :: tail) (hstatus : status.IsOneLine ∧ status.FitsInMemory) :
    (request (Peer.ofSession s) c).Leads ⟨[], true, store⟩ (judge c status)
      ⟨lineBytes tail, true, next⟩ := by
  have hanswer : ∀ target, (Peer.ofSession s).answer target c.encode store =
      ((lineBytes (status :: tail), true), next) := by
    intro target
    rw [← hlines]
    exact (s.answer_eq hone hfit store).trans (by rw [hresp]; rfl)
  exact Leads.request_answered hanswer hstatus

/-- What a session makes of the command of an operation. -/
theorem Session.respond_command {α : Type} {s : Session} {op : Operation α}
    (hop : op.command.HasArguments IsEncodable) {store : Store} :
    s.respond op.command.encode store =
      if s.limit.toNat < (Utf8.encode op.command.encode).length then (.goOn s.overlong, store)
      else
        match op.perform store with
        | .ok (v, next) => (.goOn (op.reply store v), next)
        | .error e => (.goOn (.err (failurePayload op.command.kind e)), store) := by
  have hparse := parse_encodable hop
  rw [respond]
  split
  · rfl
  · simp only [dispatch, hparse, Operation.execute_command]
    cases op.perform store with
    | ok answer => rfl
    | error e => simp only [Except.map, failure_eq]

/-- A result and a store afterwards that agree with what the store does when it is asked directly.
Only the wording of a failure may differ. -/
def Operation.Agrees {α : Type} (op : Operation α) (store : Store) (r : Except RegistryError α)
    (store' : Store) : Prop :=
  match op.perform store with
  | .ok (v, next) => r = .ok v ∧ store' = next
  | .error e => (∃ e', r = .error e' ∧ e'.Agrees (.ofStore e)) ∧ store' = store

/-- A client of a session gets from an operation what the store would have answered, and leaves
the store that the operation would have left. Only a request beyond the session's limit is refused
as a bad format instead, and then nothing happens. Either way nothing is left to be read, and the
session goes on. -/
theorem Operation.call_refines_perform {α : Type} {op : Operation α} {store : Store} {s : Session}
    (hstore : store.Reachable) (hop : op.command.HasArguments IsEncodable)
    (hcount : ∀ v next, op.perform store = .ok (v, next) → next.CountsStrings)
    (hrequest : op.command.encode.FitsInMemory)
    (hreply : (s.answer op.command.encode store).1.1.length < 2 ^ 64)
    {l : Link} (hl : l.inbox = [] ∧ l.listening = true) :
    ∃ r l' store', (op.call (Peer.ofSession s)).carryOut l store = (r, l', store') ∧
      l'.inbox = [] ∧ l'.listening = true ∧
      if s.limit.toNat < (Utf8.encode op.command.encode).length then
        (∃ fault, r = .error (.badFormat fault)) ∧ store' = store
      else op.Agrees store r store' := by
  have hone : op.command.encode.IsOneLine := isOneLine_encodable hop.allTexts
  have hcheck := Operation.check_eq_ok.mpr hop.allTexts
  have hresp := @Session.respond_command α s op hop store
  rw [s.answer_eq hone hrequest] at hreply
  -- A refusal is one line, and nothing but a failure comes of it.
  have hrefused : ∀ {payload : Text}, payload.IsOneLine →
      s.respond op.command.encode store = (.goOn (.err payload), store) →
      (op.call (Peer.ofSession s)).Leads ⟨[], true, store⟩ (.error (refusal payload op.command))
        ⟨[], true, store⟩ := by
    intro payload hpayload hresp
    rw [hresp] at hreply
    refine call_leads_error hcheck ?_
    rw [← judge_err]
    refine request_ofSession hone hrequest hresp rfl ⟨?_, ?_⟩
    · exact isOneLine_err hpayload
    · exact fitsInMemory_of_lineBytes hreply _ List.mem_cons_self
  have hrun : ∀ {r : Except RegistryError α} {store' : Store},
      (op.call (Peer.ofSession s)).Leads ⟨[], true, store⟩ r ⟨[], true, store'⟩ →
      ∃ l', (op.call (Peer.ofSession s)).carryOut l store = (r, l', store') ∧
        l'.inbox = [] ∧ l'.listening = true := by
    intro r store' hleads
    obtain ⟨l', w', hrun, hstands⟩ := hleads l store (by rw [Link.standing, hl.1, hl.2])
    obtain ⟨hinbox, hlistening, rfl⟩ := Standing.mk.inj hstands
    exact ⟨l', hrun, hinbox, hlistening⟩
  by_cases hlong : s.limit.toNat < (Utf8.encode op.command.encode).length
  · simp only [if_pos hlong] at hresp ⊢
    obtain ⟨l', hcarry, hl'⟩ := hrun (hrefused s.isOneLine_overlongPayload hresp)
    exact ⟨_, l', _, hcarry, hl'.1, hl'.2, ⟨_, by rw [refusal_overlongPayload]⟩, rfl⟩
  · simp only [if_neg hlong, Operation.Agrees] at hresp ⊢
    cases hperform : op.perform store with
    | error e =>
        rw [hperform] at hresp
        obtain ⟨l', hcarry, hl'⟩ := hrun (hrefused (Session.isOneLine_failurePayload _ e) hresp)
        refine ⟨_, l', _, hcarry, hl'.1, hl'.2, ⟨_, rfl, ?_⟩, rfl⟩
        exact refusal_failurePayload _ _ (Operation.perform_error hperform)
    | ok answer =>
        obtain ⟨v, next⟩ := answer
        rw [hperform] at hresp
        rw [hresp] at hreply
        have hfit := fitsInMemory_of_lineBytes hreply
        have hask := request_ofSession hone hrequest hresp rfl
          ⟨isOneLine_ok (op.isPlain_payload v).isOneLine, hfit _ List.mem_cons_self⟩
        rw [judge_ok] at hask
        have hcollect := @Operation.collect_sent Store α store next hstore.isSound op v hperform
          (Operation.counted_lt hperform (hcount v next hperform))
          (fun t ht => hfit t (List.mem_cons_of_mem _ ht)) [] true next
        rw [List.append_nil] at hcollect
        obtain ⟨l', hcarry, hl'⟩ := hrun (Operation.call_leads hcheck hask hcollect)
        exact ⟨_, l', _, hcarry, hl'.1, hl'.2, rfl, rfl⟩

/-- A text that begins with a dot and ends in a space, attached to an entry whose own texts have
blanks and signs of the grammar in them. -/
theorem Operation.call_refines_perform_storeString :
    let e : EntryFields :=
      { app := " a=b ", site := "\t", mach := "ID 1", node := "n", port := 1, pid := 2147483647,
        comp := "é", tag := "." }
    let store : Store := ⟨[(1, ⟨e, []⟩)], 2, List.pairwise_singleton _ _⟩
    let s : Session := ⟨"here", 7, 64⟩
    let op := Operation.storeString 1 ".x ".toList
    let l : Link := { location := ⟨"here", 7⟩, inbox := [] }
    store.Reachable ∧ op.command.HasArguments IsEncodable ∧
      ∃ r l' store', (op.call (Peer.ofSession s)).carryOut l store = (r, l', store') ∧
        l'.inbox = [] ∧ l'.listening = true ∧ r = .ok 1 ∧
          store' = ⟨[(1, ⟨e, [".x ".toList]⟩)], 2, List.pairwise_singleton _ _⟩ := by
  intro e store s op l
  have hop : op.command.HasArguments IsEncodable := by decide
  have hreach : store.Reachable :=
    Store.Reachable.start.execute (s := s) (c := .create (.ofFields e)) (by decide) (by decide)
      (o := .goOn (Session.success Payload.created [Session.idText 1])) rfl
  refine ⟨hreach, hop, ?_⟩
  have hcount : ∀ v next, op.perform store = .ok (v, next) → next.CountsStrings := by
    rintro v next ⟨⟩
    decide
  have hreply : (s.answer op.command.encode store).1.1.length < 2 ^ 64 := by
    rw [s.answer_eq (by decide) (by decide), Session.respond_command hop]
    decide
  obtain ⟨r, l', store', hrun, hinbox, hlistening, hagrees⟩ :=
    @Operation.call_refines_perform _ op store s hreach hop hcount (by decide) hreply l ⟨rfl, rfl⟩
  rw [if_neg (by decide)] at hagrees
  exact ⟨r, l', store', hrun, hinbox, hlistening, hagrees⟩

end ToolRegistry
