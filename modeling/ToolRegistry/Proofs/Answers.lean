import ToolRegistry.Client.Connection
import ToolRegistry.Proofs.Exchanges
import ToolRegistry.Proofs.Payloads
import ToolRegistry.Proofs.Reachable

/-!
# What a session answers

A session answers a line that is sent to it with one reply (`Session.respond`).
A successful reply is a status line and then nothing, one data line, or a body
(`Following`), and which of them it is follows from the command alone. All
lines of a reply are lines indeed: what is kept in a sound store holds no line
breaks, a template has none, and the words of a refusal come out of the request
line or are fixed.
-/

namespace ToolRegistry

open Wire

/-! ## Filled templates -/

namespace Wire.Template

theorem subset_of_mem_pieces {template piece : Text} (h : piece ∈ pieces template) :
    piece ⊆ template := by
  induction template using pieces.induct generalizing piece with
  | case1 =>
      rw [pieces, List.mem_singleton] at h
      exact h ▸ List.Subset.refl _
  | case2 rest ih =>
      rw [pieces] at h
      rcases List.mem_cons.mp h with rfl | h
      · exact List.nil_subset _
      · exact List.subset_cons_of_subset _ (List.subset_cons_of_subset _ (ih h))
  | case3 c rest hno first more hp ih =>
      rw [pieces, hp] at h
      · rw [hp] at ih
        rcases List.mem_cons.mp h with rfl | h
        · exact List.cons_subset_cons c (ih List.mem_cons_self)
        · exact List.subset_cons_of_subset _ (ih (List.mem_cons_of_mem _ h))
      · exact hno
  | case4 c rest hno hp ih =>
      rw [pieces, hp] at h
      · rw [List.mem_singleton.mp h]
        exact List.cons_subset_cons c (List.nil_subset _)
      · exact hno

theorem forall_mem_interleave {P : Char → Prop} {ps vs : List Text}
    (hp : ∀ p ∈ ps, ∀ c ∈ p, P c) (hv : ∀ v ∈ vs, ∀ c ∈ v, P c) :
    ∀ c ∈ interleave ps vs, P c := by
  induction ps generalizing vs with
  | nil => cases vs <;> exact List.forall_mem_nil _
  | cons p ps ih =>
      obtain ⟨hp, hps⟩ := List.forall_mem_cons.mp hp
      cases vs with
      | nil => exact List.forall_mem_append.mpr ⟨hp, ih hps hv⟩
      | cons v vs =>
          obtain ⟨hv, hvs⟩ := List.forall_mem_cons.mp hv
          rw [interleave_cons, List.forall_mem_append, List.forall_mem_append]
          exact ⟨hv, hp, ih hps hvs⟩

/-- A filled template holds no characters but its own and those of the values. -/
theorem forall_mem_render {P : Char → Prop} {template : Text} (ht : ∀ c ∈ template, P c)
    {vs : List Text} (hv : ∀ v ∈ vs, ∀ c ∈ v, P c) : ∀ c ∈ render template vs, P c := by
  have hp : ∀ p ∈ pieces template, ∀ c ∈ p, P c :=
    fun p hp c hc => ht c (subset_of_mem_pieces hp hc)
  rw [render]
  split
  · next first more hpieces =>
      rw [hpieces] at hp
      obtain ⟨hfirst, hmore⟩ := List.forall_mem_cons.mp hp
      exact List.forall_mem_append.mpr ⟨hfirst, forall_mem_interleave hmore hv⟩
  · exact List.forall_mem_nil _

/-- A template of one line, filled with values of one line, is one line. -/
theorem isOneLine_render {template : Text} (ht : template.IsOneLine) {vs : List Text}
    (hv : ∀ v ∈ vs, v.IsOneLine) : (render template vs).IsOneLine := by
  have hchars : ∀ c ∈ render template vs, c ≠ '\r' ∧ c ≠ '\n' :=
    forall_mem_render (fun c hc => ⟨fun h => ht.1 (h ▸ hc), fun h => ht.2 (h ▸ hc)⟩)
      fun v hv' c hc => ⟨fun h => (hv v hv').1 (h ▸ hc), fun h => (hv v hv').2 (h ▸ hc)⟩
  exact ⟨fun h => (hchars _ h).1 rfl, fun h => (hchars _ h).2 rfl⟩

end Wire.Template

/-! ## Status lines -/

theorem isOneLine_ok {payload : Text} (h : payload.IsOneLine) :
    (Status.ok payload).line.IsOneLine := by
  rw [Status.line, ← List.singleton_append, Text.isOneLine_append, Text.isOneLine_append]
  exact ⟨by decide, by decide, h⟩

theorem isOneLine_err {payload : Text} (h : payload.IsOneLine) :
    (Status.err payload).line.IsOneLine := by
  rw [Status.line, ← List.singleton_append, Text.isOneLine_append, Text.isOneLine_append]
  exact ⟨by decide, by decide, h⟩

/-! ## What follows a status line -/

/-- What comes after the status line of a reply. -/
inductive Following where
  | nothing
  | dataLine (t : Text)
  | body (lines : List Text)

namespace Following

/-- The lines that are told. -/
def lines : Following → List Text
  | nothing => []
  | dataLine t => [t]
  | body lines => lines

/-- The lines that are sent. -/
def sent : Following → List Text
  | nothing => []
  | dataLine t => [t]
  | body lines => Exchange.bodyLines lines

/-- How a client reads them. -/
def tail : Following → Client.Tail
  | nothing => .nothing
  | dataLine _ => .dataLine
  | body _ => .body

end Following

/-! ## What a sound store shows -/

namespace Store.IsSound

variable {store : Store}

theorem search (h : store.IsSound) {predicate : FieldSet} {r : EntryRecord}
    (hr : r ∈ store.search predicate) :
    r.fields.IsComplete ∧ r.fields.AllTexts IsEncodable := by
  obtain ⟨row, hrow, rfl⟩ := List.mem_map.mp hr
  have hsound := h row (List.mem_filter.mp hrow).1
  exact ⟨hsound.complete, hsound.encodable⟩

theorem fetch (h : store.IsSound) {id : EntryId} {r : EntryRecord}
    (hr : store.fetch id = .ok r) : r.fields.IsComplete ∧ r.fields.AllTexts IsEncodable := by
  obtain ⟨stored, hget, hr⟩ := Except.bind_eq_ok.mp hr
  cases hr
  have hsound := h _ (get_eq_ok hget)
  exact ⟨hsound.complete, hsound.encodable⟩

theorem listStrings (h : store.IsSound) {id : EntryId} {ts : List Text}
    (hts : store.listStrings id = .ok ts) : ∀ t ∈ ts, t ≠ [] ∧ t.IsOneLine := by
  obtain ⟨stored, hget, hts⟩ := Except.bind_eq_ok.mp hts
  cases hts
  exact (h _ (get_eq_ok hget)).strings

theorem getString (h : store.IsSound) {id : EntryId} {pos : UInt64} {t : Text}
    (ht : store.getString id pos = .ok t) : t ≠ [] ∧ t.IsOneLine := by
  obtain ⟨stored, hget, ht⟩ := Except.bind_eq_ok.mp ht
  split at ht
  · cases ht
  · split at ht
    · next hfound =>
        cases ht
        exact (h _ (get_eq_ok hget)).strings _ (List.mem_of_getElem? hfound)
    · cases ht

end Store.IsSound

namespace Session

/-! ## Successful replies -/

/-- What follows the status line of a successful reply to a command. -/
def following (store : Store) : Command → Following
  | .help => .body (CommandKind.all.map helpLine)
  | .search predicate => .body ((store.search predicate).map formatEntryLine)
  | .list => .body (store.list.map formatEntryLine)
  | .fetch id =>
      match store.fetch id with
      | .ok r => .dataLine (formatEntryLine r)
      | .error _ => .nothing
  | .getString id pos =>
      match store.getString id pos with
      | .ok t => .dataLine t
      | .error _ => .nothing
  | .listStrings id =>
      match store.listStrings id with
      | .ok ts => .body ts
      | .error _ => .nothing
  | _ => .nothing

theorem isOneLine_helpLine (kind : CommandKind) : (helpLine kind).IsOneLine := by
  cases kind <;> decide +kernel

theorem isOneLine_following {store : Store} (h : store.IsSound) (c : Command) :
    ∀ t ∈ (following store c).lines, t.IsOneLine := by
  have hentries : ∀ predicate, ∀ t ∈ (store.search predicate).map formatEntryLine,
      t.IsOneLine := by
    intro predicate t ht
    obtain ⟨r, hr, rfl⟩ := List.mem_map.mp ht
    exact isOneLine_formatEntryLine ((h.search hr).2.mono fun _ hu => hu.2)
  cases c with
  | quit | create | change | delete | clean | addString | deleteString | countStrings =>
      exact List.forall_mem_nil _
  | help =>
      intro t ht
      obtain ⟨kind, -, rfl⟩ := List.mem_map.mp ht
      exact isOneLine_helpLine kind
  | search predicate => exact hentries predicate
  | list => exact hentries ∅
  | fetch id =>
      simp only [following]
      split
      · next r hr =>
          exact List.forall_mem_singleton.mpr
            (isOneLine_formatEntryLine ((h.fetch hr).2.mono fun _ hu => hu.2))
      · exact List.forall_mem_nil _
  | getString id pos =>
      simp only [following]
      split
      · next t ht => exact List.forall_mem_singleton.mpr (h.getString ht).2
      · exact List.forall_mem_nil _
  | listStrings id =>
      simp only [following]
      split
      · next ts hts => exact fun t ht => (h.listStrings hts t ht).2
      · exact List.forall_mem_nil _

/-- A command that is carried out is answered by a status line and what follows it. -/
theorem execute_ok {s : Session} {c : Command} {store next : Store} {o : Outcome}
    (h : s.execute c store = .ok (o, next)) :
    ∃ payload, o.reply.lines = (Status.ok payload).line :: (following store c).sent ∧
      (following store c).tail = Client.tailOf c.kind ∧
      (o.close = true ↔ c = .quit) ∧
      ((c = .quit → s.host.IsOneLine) → payload.IsOneLine) := by
  have hrender : ∀ {template : Text} {ns : List Nat}, template.IsOneLine →
      Text.IsOneLine (Template.render template (ns.map Decimal.ofNat)) := by
    intro template ns ht
    refine Template.isOneLine_render ht fun v hv => ?_
    obtain ⟨n, -, rfl⟩ := List.mem_map.mp hv
    exact (isPlain_ofNat n).isOneLine
  cases c with
  | quit =>
      cases h
      refine ⟨_, rfl, rfl, by simp, fun hhost => Template.isOneLine_render (by decide) ?_⟩
      exact List.forall_mem_cons.mpr
        ⟨hhost rfl, List.forall_mem_singleton.mpr (isPlain_ofNat _).isOneLine⟩
  | help =>
      cases h
      exact ⟨_, rfl, rfl, by simp [Outcome.goOn], fun _ => by decide⟩
  | search predicate =>
      cases h
      exact ⟨_, rfl, rfl, by simp [Outcome.goOn], fun _ => by decide⟩
  | list =>
      cases h
      exact ⟨_, rfl, rfl, by simp [Outcome.goOn], fun _ => @hrender _ [_] (by decide)⟩
  | clean =>
      cases h
      exact ⟨_, rfl, rfl, by simp [Outcome.goOn], fun _ => @hrender _ [_] (by decide)⟩
  | create fields | change id fields | delete id | addString id t =>
      obtain ⟨⟨r, st⟩, -, h⟩ := Except.bind_eq_ok.mp h
      cases h
      exact ⟨_, rfl, rfl, by simp [Outcome.goOn], fun _ => @hrender _ [_] (by decide)⟩
  | deleteString id pos | countStrings id =>
      obtain ⟨r, -, h⟩ := Except.bind_eq_ok.mp h
      cases h
      exact ⟨_, rfl, rfl, by simp [Outcome.goOn], fun _ => @hrender _ [_, _] (by decide)⟩
  | fetch id =>
      obtain ⟨r, hr, h⟩ := Except.bind_eq_ok.mp h
      cases h
      simp only [following, hr]
      exact ⟨_, rfl, rfl, by simp [Outcome.goOn], fun _ => @hrender _ [_] (by decide)⟩
  | getString id pos =>
      obtain ⟨r, hr, h⟩ := Except.bind_eq_ok.mp h
      cases h
      simp only [following, hr]
      exact ⟨_, rfl, rfl, by simp [Outcome.goOn], fun _ => @hrender _ [_, _, _] (by decide)⟩
  | listStrings id =>
      obtain ⟨r, hr, h⟩ := Except.bind_eq_ok.mp h
      cases h
      simp only [following, hr]
      exact ⟨_, rfl, rfl, by simp [Outcome.goOn], fun _ => @hrender _ [_, _] (by decide)⟩

/-! ## Refusals -/

theorem isOneLine_usage (kind : CommandKind) : kind.usage.IsOneLine := by
  cases kind <;> decide +kernel

theorem isOneLine_withUsage {reason : Text} (h : reason.IsOneLine) (kind : CommandKind) :
    Text.IsOneLine (reason ++ ' ' :: kind.usage) := by
  rw [← List.singleton_append, Text.isOneLine_append, Text.isOneLine_append]
  exact ⟨h, by decide, isOneLine_usage kind⟩

/-- The reply to a line that is no request. -/
theorem refusal_eq {line : Text} {e : CommandError} (h : Command.parse line = .error e)
    (hline : line.IsOneLine) :
    ∃ payload, refusal e = Reply.err payload ∧ payload.IsOneLine := by
  cases e with
  | unknown token =>
      refine ⟨_, rfl, Template.isOneLine_render (by decide) ?_⟩
      exact List.forall_mem_singleton.mpr (hline.mono (parse_unknown_subset h))
  | badFormat kind reason => exact ⟨_, rfl, isOneLine_withUsage (by decide) kind⟩
  | incomplete kind reason => exact ⟨_, rfl, isOneLine_withUsage (by decide) kind⟩

/-- The words of the reply to a request that the store refuses. -/
def failurePayload (kind : CommandKind) : StoreError → Text
  | .noEntry _ => Payload.noEntry
  | .noString _ _ => Payload.noString
  | .incomplete _ => Payload.incomplete ++ ' ' :: kind.usage

theorem failure_eq (kind : CommandKind) (e : StoreError) :
    failure kind e = Reply.err (failurePayload kind e) := by
  cases e <;> rfl

theorem isOneLine_failurePayload (kind : CommandKind) (e : StoreError) :
    (failurePayload kind e).IsOneLine := by
  cases e with
  | noEntry id => exact (by decide : Payload.noEntry.IsOneLine)
  | noString id pos => exact (by decide : Payload.noString.IsOneLine)
  | incomplete missing => exact isOneLine_withUsage (by decide) kind

/-- The words of the reply to a line beyond the limit. -/
def overlongPayload (s : Session) : Text :=
  Payload.badFormat ++ " line exceeds ".toList ++ Decimal.ofNat s.limit.toNat ++ " bytes".toList

theorem isOneLine_overlongPayload (s : Session) : s.overlongPayload.IsOneLine := by
  rw [overlongPayload, Text.isOneLine_append, Text.isOneLine_append]
  exact ⟨⟨by decide, (isPlain_ofNat _).isOneLine⟩, by decide⟩

/-! ## One line -/

/-- What a session makes of a line that is sent to it. -/
def respond (s : Session) (line : Text) (store : Store) : Outcome × Store :=
  if s.limit.toNat < (Utf8.encode line).length then (.goOn s.overlong, store)
  else s.dispatch line store

/-- What follows the status line of the reply to a line that is sent: nothing after a refusal. -/
def followingLine (s : Session) (line : Text) (store : Store) : Following :=
  if s.limit.toNat < (Utf8.encode line).length then .nothing
  else
    match Command.parse line with
    | .error _ => .nothing
    | .ok c =>
        match s.execute c store with
        | .error _ => .nothing
        | .ok _ => following store c

/-- A line is refused, and then nothing happens, or it holds a command that is carried out. -/
theorem respond_cases (s : Session) {line : Text} (hline : line.IsOneLine) (store : Store) :
    (∃ payload, s.respond line store = (.goOn (.err payload), store) ∧ payload.IsOneLine ∧
        s.followingLine line store = .nothing) ∨
      ∃ c o next, (Utf8.encode line).length ≤ s.limit.toNat ∧ Command.parse line = .ok c ∧
        s.execute c store = .ok (o, next) ∧ s.respond line store = (o, next) ∧
        s.followingLine line store = following store c := by
  rw [respond, followingLine]
  split
  · exact .inl ⟨_, rfl, s.isOneLine_overlongPayload, rfl⟩
  · next hshort =>
      simp only [dispatch]
      cases hc : Command.parse line with
      | error e =>
          obtain ⟨payload, heq, hone⟩ := refusal_eq hc hline
          exact .inl ⟨payload, by simp only [heq], hone, rfl⟩
      | ok c =>
          cases he : s.execute c store with
          | error e =>
              exact .inl ⟨_, by simp only [he, failure_eq],
                isOneLine_failurePayload c.kind e, by simp only [he]⟩
          | ok answer =>
              exact .inr ⟨c, answer.1, answer.2, Nat.le_of_not_lt hshort, rfl, he,
                by simp only [he], by simp only [he]⟩

end Session

/-! ## The bytes of replies -/

theorem replyBytes_eq (replies : List Reply) :
    replyBytes replies = lineBytes (replies.flatMap Reply.lines) := by
  rw [replyBytes, Session.transcript, lineBytes, List.flatMap_assoc]
  rfl

/-- One reply comes back for one line. -/
theorem Session.answer_eq (s : Session) {line : Text} (hline : line.IsOneLine)
    (hfit : line.FitsInMemory) (store : Store) :
    s.answer line store =
      ((lineBytes (s.respond line store).1.reply.lines, !(s.respond line store).1.close),
        (s.respond line store).2) := by
  have hbytes : Utf8.encode (line ++ ['\n']) = lineBytes [line] := by
    rw [lineBytes, List.flatMap_singleton]
  have hread : readAll s.limit (lineBytes [line]) = [readAs s.limit line, .ended] :=
    readAll_lineBytes s.limit (List.forall_mem_singleton.mpr ⟨hline, hfit⟩)
  simp only [Session.answer, hbytes, hread, respond, readAs]
  split
  · simp only [serve, Outcome.goOn, replyBytes_eq, List.flatMap_singleton]
  · simp only [serve]
    split
    · next hclose => simp only [replyBytes_eq, List.flatMap_singleton, hclose]
    · next hclose =>
        simp only [replyBytes_eq, List.flatMap_singleton, Bool.eq_false_iff.mpr hclose]

end ToolRegistry
