import ToolRegistry.Proofs.CutEntries
import ToolRegistry.Proofs.Refinement

/-!
# Replies that break off

A connection may be closed in the middle of a reply. To a client the end of
the stream ends a line as well as a line feed does, so what is left of a line
is taken for a line. This module finds out what comes of it, for every
operation and every place where a reply can break off.

Most cuts are noticed, or cost no more than a line feed. Four kinds are not
(`IsMisleading`): a number at the end of the status line can lose digits, a
text its end, an entry line its last pairs, and the dot that was put in front
of a text with a dot of its own passes for the end of a list. Nothing in such
a reply tells how long it is, so a client takes what is left for the answer.
-/

namespace ToolRegistry

open Wire Exchange

/-- A peer that answers the first line on a connection with some bytes and then closes it. -/
def Peer.closing (bytes : Bytes) : Peer Unit where
  dial _ _ := (.ok [], ())
  answer _ _ _ := ((bytes, false), ())

/-! ## Status lines that are cut off -/

theorem Wire.Status.parse?_eq_ok {t p : Text} (h : Status.parse? t = some (.ok p)) :
    t = (Status.ok p).line ∨ t = Status.okMark ++ p ∧ p.head? ≠ some ' ' := by
  have hafter : Status.payloadAfter? Status.okMark t = some p := by
    rw [Status.parse?] at h
    split at h
    · next heq =>
        cases h
        exact heq
    · cases herr : Status.payloadAfter? Status.errMark t <;> rw [herr] at h <;> cases h
  rw [Status.payloadAfter?] at hafter
  split at hafter
  · next heq =>
      cases hafter
      exact .inl (Text.after?_eq_some_iff.mp heq)
  · next other hother =>
      refine .inr ⟨Text.after?_eq_some_iff.mp hafter, fun hhead => ?_⟩
      cases p with
      | nil => cases hhead
      | cons c p =>
          cases hhead
          exact hother p hafter

theorem judge_eq_ok {c : Command} {t p : Text} (h : judge c t = .ok p) :
    t = (Status.ok p).line ∨ t = Status.okMark ++ p ∧ p.head? ≠ some ' ' := by
  refine Status.parse?_eq_ok ?_
  rw [judge] at h
  split at h
  · next heq =>
      cases h
      exact heq
  · cases h
  · cases h

theorem isPlain_line {payload : Text} (h : payload.IsPlain) : (Status.ok payload).line.IsPlain := by
  rw [Status.line, ← List.singleton_append, Text.isPlain_append, Text.isPlain_append]
  exact ⟨by decide, by decide, h⟩

/-- What is left of a successful status line tells of success with what is left of its payload. -/
theorem judge_cut_ok {payload p : Text} (hplain : payload.IsPlain) {q : Bytes}
    (hq : q <+: Utf8.encode (Status.ok payload).line) {c : Command}
    (h : judge c (Utf8.decodeLossy q) = .ok p) :
    p <+: payload ∧ (p = [] ∨ q = Utf8.encode (Status.ok p).line) := by
  obtain ⟨henc, hcut⟩ := Text.prefix_encode_plain (isPlain_line hplain) hq
  rcases judge_eq_ok h with heq | ⟨heq, hhead⟩
  · rw [heq] at henc hcut
    rw [Status.line, Status.line, List.prefix_append_right_inj, List.cons_prefix_cons] at hcut
    exact ⟨hcut.2, .inr henc⟩
  · rw [heq, Status.line, List.prefix_append_right_inj] at hcut
    rcases List.prefix_cons_iff.mp hcut with rfl | ⟨u, rfl, -⟩
    · exact ⟨List.nil_prefix, .inl rfl⟩
    · exact absurd rfl hhead

/-- Nothing that is left of a refusal tells of success. -/
theorem judge_cut_err {payload : Text} {q : Bytes}
    (hq : q <+: Utf8.encode (Status.err payload).line) (c : Command) :
    ∃ e, judge c (Utf8.decodeLossy q) = .error e := by
  have hline : (Status.err payload).line = '-' :: ("ERR".toList ++ ' ' :: payload) := rfl
  have hcut := Text.isCut_decodeLossy hq
  rw [hline] at hcut
  cases hj : judge c (Utf8.decodeLossy q) with
  | error e => exact ⟨e, rfl⟩
  | ok p =>
      exfalso
      rcases hcut.cons_cases (by decide) with hd | ⟨w, hd, -⟩ <;>
        rcases judge_eq_ok hj with heq | ⟨heq, -⟩ <;>
        rw [hd] at heq <;> cases heq

/-! ## What a client hears -/

namespace Operation

variable {α : Type} {op : Operation α} {l : Link}

/-- What a client takes for the answer to an operation if these bytes are all that comes back. -/
def heard (op : Operation α) (l : Link) (bytes : Bytes) : Except RegistryError α :=
  ((op.call (Peer.closing bytes)).carryOut l ()).1

theorem heard_eq (hl : l.inbox = [] ∧ l.listening = true) {bytes : Bytes}
    {r : Except RegistryError α} {s : Standing Unit}
    (h : (op.call (Peer.closing bytes)).Leads ⟨[], true, ()⟩ r s) : op.heard l bytes = r :=
  h.result (by rw [Link.standing, hl.1, hl.2])

theorem sendLine_closing (bytes : Bytes) (line : Text) :
    (sendLine (Peer.closing bytes) line).Leads ⟨[], true, ()⟩ (.ok ()) ⟨bytes, false, ()⟩ :=
  Leads.sendLine fun _ => rfl

/-- A whole status line, and what is collected from the bytes behind it. -/
theorem heard_line (hcheck : op.check = .ok ()) (hl : l.inbox = [] ∧ l.listening = true)
    {status : Text} (hone : status.IsOneLine) (hfit : status.FitsInMemory) {payload : Text}
    (hjudge : judge op.command status = .ok payload) {rest : Bytes} {r : Except RegistryError α}
    {s : Standing Unit} (hcollect : (op.collect payload).Leads ⟨rest, false, ()⟩ r s) :
    op.heard l (Utf8.encode status ++ lineFeed :: rest) = r := by
  have hask := Leads.request (sendLine_closing (Utf8.encode status ++ lineFeed :: rest)
    op.command.encode) (Leads.readLine_line hone hfit)
  rw [hjudge] at hask
  exact heard_eq hl (call_leads hcheck hask hcollect)

/-- Nothing at all. -/
theorem heard_nil (hcheck : op.check = .ok ()) (hl : l.inbox = [] ∧ l.listening = true) :
    op.heard l [] = .error .disconnected :=
  heard_eq hl (call_leads_error hcheck
    (Leads.request_error (sendLine_closing [] op.command.encode) Leads.readLine_end))

section

variable (hcheck : op.check = .ok ()) (hl : l.inbox = [] ∧ l.listening = true)
  {status : Text} (hone : status.IsOneLine) (hfit : status.FitsInMemory) {q : Bytes}
  (hq : q <+: Utf8.encode status) (hne : q ≠ [])

include hcheck hl hone hfit hq hne

/-- A part of a status line that tells of success. -/
theorem heard_cut_ok {payload : Text}
    (hjudge : judge op.command (Utf8.decodeLossy q) = .ok payload) {r : Except RegistryError α}
    {s : Standing Unit} (hcollect : (op.collect payload).Leads ⟨[], false, ()⟩ r s) :
    op.heard l q = r := by
  have hask := Leads.request (sendLine_closing q op.command.encode)
    (Leads.readLine_cut hone hfit hq hne)
  rw [hjudge] at hask
  exact heard_eq hl (call_leads hcheck hask hcollect)

/-- A part of a status line that does not tell of success. -/
theorem heard_cut_error {e : RegistryError}
    (hjudge : judge op.command (Utf8.decodeLossy q) = .error e) : op.heard l q = .error e := by
  have hask := Leads.request (sendLine_closing q op.command.encode)
    (Leads.readLine_cut hone hfit hq hne)
  rw [hjudge] at hask
  exact heard_eq hl (call_leads_error hcheck hask)

end

/-- Whatever is left of a refusal is a failure. -/
theorem heard_refusal (hcheck : op.check = .ok ()) (hl : l.inbox = [] ∧ l.listening = true)
    {payload : Text} (hone : (Status.err payload).line.IsOneLine)
    (hfit : (Status.err payload).line.FitsInMemory) {cut : Bytes}
    (hcut : cut <+: lineBytes [(Status.err payload).line])
    (hne : cut ≠ lineBytes [(Status.err payload).line]) :
    ∃ e, op.heard l cut = .error e := by
  rcases prefix_lineBytes_cons hcut hne with hq | ⟨r, -, hr, hrne⟩
  · by_cases hnil : cut = []
    · rw [hnil]
      exact ⟨_, heard_nil hcheck hl⟩
    · obtain ⟨e, he⟩ := judge_cut_err hq op.command
      exact ⟨e, heard_cut_error hcheck hl hone hfit hq hnil he⟩
  · exact absurd (List.prefix_nil.mp hr) hrne

end Operation

/-! ## Numbers -/

/-- Some digits, but not all, are left of the number at the end of a payload. -/
def NumberCut (template : Text) (n : Nat) (payload : Text) : Prop :=
  ∃ d, d ≠ [] ∧ d <+: Decimal.ofNat n ∧ d ≠ Decimal.ofNat n ∧ Nat.ofDigitChars 10 d 0 < 2 ^ 63 ∧
    payload = Template.render template [d]

namespace NumberCut

variable {template first : Text} {bits n : Nat} {p : Text}

theorem render_last (ht : Template.pieces template = [first, []]) (d : Text) :
    Template.render template [d] = first ++ d := by
  rw [Template.render_cons ht, Template.interleave, List.append_nil, List.append_nil]

/-- A number is read from what is left of a payload only if some of its digits are left. -/
theorem of_firstNumber (ht : Template.pieces template = [first, []])
    (hp : p <+: Template.render template [Decimal.ofNat n]) {m : Nat}
    (hm : firstNumber bits template p = .ok m) :
    p = Template.render template [Decimal.ofNat n] ∨ NumberCut template n p := by
  rw [render_last ht] at hp ⊢
  obtain ⟨d, hne, hd, rfl⟩ := Template.firstNumber_prefix_last ht hp hm
  obtain ⟨rfl, hlt, -⟩ :=
    (Template.firstNumber_digits ht hne (Decimal.isDigit_of_mem_cut hd)).mp hm
  by_cases hall : d = Decimal.ofNat n
  · exact .inl (by rw [hall])
  · exact .inr ⟨d, hne, hd, hall, hlt, (render_last ht d).symm⟩

theorem ne_nil (h : NumberCut template n p) (ht : Template.pieces template = [first, []]) :
    p ≠ [] := by
  obtain ⟨d, hne, -, -, -, rfl⟩ := h
  rw [render_last ht]
  exact List.append_ne_nil_of_right_ne_nil _ hne

theorem prefix_render (h : NumberCut template n p)
    (ht : Template.pieces template = [first, []]) :
    p <+: Template.render template [Decimal.ofNat n] := by
  obtain ⟨d, -, hd, -, -, rfl⟩ := h
  rw [render_last ht, render_last ht]
  exact (List.prefix_append_right_inj _).mpr hd

/-- What is read is a smaller number. -/
theorem firstNumber_lt (h : NumberCut template n p) (ht : Template.pieces template = [first, []])
    (hbits : ∀ m ≤ n, m < 2 ^ 63 → m < 2 ^ bits) :
    ∃ m < n, firstNumber bits template p = .ok m := by
  obtain ⟨d, hne, hd, hall, hlt, rfl⟩ := h
  refine ⟨Nat.ofDigitChars 10 d 0, ?_, ?_⟩
  · rcases Decimal.ofDigitChars_cut hd hall with hnil | hless
    · exact absurd hnil hne
    · exact hless
  · rw [render_last ht]
    exact (Template.firstNumber_digits ht hne (Decimal.isDigit_of_mem_cut hd)).mpr
      ⟨rfl, hlt, hbits _ (Decimal.ofDigitChars_le hd) hlt⟩

end NumberCut

/-- The whole payload can tell no other number than its own. -/
theorem firstNumber_render_last {template first : Text}
    (ht : Template.pieces template = [first, []]) {bits n m : Nat}
    (h : firstNumber bits template (Template.render template [Decimal.ofNat n]) = .ok m) :
    m = n := by
  rw [NumberCut.render_last ht] at h
  have hvalue := (Template.firstNumber_digits ht (Decimal.ofNat_ne_nil n)
    fun _ => Decimal.isDigit_of_mem_ofNat).mp h
  rw [hvalue.1, Decimal.ofNat, Nat.ofDigitChars_ten_toDigits]

/-! ## Bodies -/

theorem eq_terminator_of_cut {t : Text} {q : Bytes} (hq : q <+: Utf8.encode t)
    (h : Utf8.decodeLossy q = terminator) : q = Utf8.encode terminator ∧ terminator <+: t :=
  Text.eq_encode_of_decodeLossy (by decide) hq h

theorem dot_of_stuff {t : Text} (h : terminator <+: stuff t) : ∃ u, t = '.' :: u := by
  obtain ⟨u, hu⟩ := h
  unfold stuff at hu
  split at hu
  · exact ⟨_, rfl⟩
  · exact ⟨u, hu.symm⟩

/-- A cut in the lines of a body falls into one of them or into the terminator. -/
theorem bodyLines_split {body before after : List Text} {t : Text}
    (h : bodyLines body = before ++ t :: after) :
    ∃ lines, before = lines.map stuff ∧
      (lines = body ∧ t = terminator ∨ ∃ u rest, body = lines ++ u :: rest ∧ t = stuff u) := by
  rw [bodyLines] at h
  rcases List.eq_nil_or_concat after with rfl | ⟨after, z, rfl⟩
  · obtain ⟨rfl, hlast⟩ := List.append_inj' h rfl
    cases hlast
    exact ⟨body, rfl, .inl ⟨rfl, rfl⟩⟩
  · rw [List.concat_eq_append, ← List.cons_append, ← List.append_assoc] at h
    obtain ⟨hmap, -⟩ := List.append_inj' h rfl
    obtain ⟨lines, more, rfl, rfl, hmore⟩ := List.map_eq_append_iff.mp hmap
    obtain ⟨u, rest, rfl, rfl, -⟩ := List.map_eq_cons_iff.mp hmore
    exact ⟨lines, rfl, .inr ⟨u, rest, rfl, rfl⟩⟩

/-- A body breaks off before a line that begins with a dot, and the dot is left. -/
def BodyCut (body lines : List Text) : Prop := ∃ t after, body = lines ++ ('.' :: t) :: after

/-- What becomes of a body that breaks off. -/
theorem Exchange.Leads.readBody_broken {body : List Text} (hline : ∀ t ∈ body, t.IsOneLine)
    (hfit : ∀ t ∈ bodyLines body, t.FitsInMemory) {q : Bytes}
    (hq : q <+: lineBytes (bodyLines body)) (hne : q ≠ lineBytes (bodyLines body)) :
    ∃ r, (Exchange.readBody : Exchange Unit (List Text)).Leads ⟨q, false, ()⟩ r ⟨[], false, ()⟩ ∧
      (r = .error .disconnected ∨ r = .ok body ∨ ∃ lines, r = .ok lines ∧ BodyCut body lines ∧
        q = lineBytes (lines.map stuff) ++ Utf8.encode terminator) := by
  obtain ⟨before, t, after, u, hsplit, hu, rfl⟩ := prefix_lineBytes hq hne
  obtain ⟨lines, rfl, hcases⟩ := bodyLines_split hsplit
  rw [hsplit] at hfit
  have hfitLines : ∀ t ∈ lines.map stuff, t.FitsInMemory :=
    fun t ht => hfit t (List.mem_append_left _ ht)
  have hfitT : t.FitsInMemory := hfit t (List.mem_append_right _ List.mem_cons_self)
  rcases hcases with ⟨rfl, rfl⟩ | ⟨v, rest, rfl, rfl⟩
  · refine ⟨_, readBody_cut hline hfitLines (by decide) hfitT hu, ?_⟩
    split
    · exact .inr (.inl rfl)
    · exact .inl rfl
  · obtain ⟨hlines, hv⟩ := List.forall_mem_append.mp hline
    refine ⟨_, readBody_cut hlines hfitLines (isOneLine_stuff (hv v List.mem_cons_self)) hfitT
      hu, ?_⟩
    split
    · next hend =>
        obtain ⟨rfl, hdot⟩ := eq_terminator_of_cut hu hend
        obtain ⟨w, rfl⟩ := dot_of_stuff hdot
        exact .inr (.inr ⟨lines, rfl, ⟨w, rest, rfl⟩, rfl⟩)
    · exact .inl rfl

/-! ## Every operation -/

namespace Operation

variable {α : Type}

/-- The status line of the reply that tells an answer. -/
def statusLine (op : Operation α) (v : α) : Text := (Status.ok (op.payload v)).line

theorem isOneLine_statusLine (op : Operation α) (v : α) : (op.statusLine v).IsOneLine :=
  isOneLine_ok (op.isPlain_payload v).isOneLine

theorem lineBytes_reply (op : Operation α) (store : Store) (v : α) :
    lineBytes (op.reply store v).lines = Utf8.encode (op.statusLine v) ++
      lineFeed :: lineBytes (Session.following store op.command).sent :=
  lineBytes_cons _ _

/-- The cuts of the reply with some answer after which a client takes another answer for it. A
number is cut between two digits, at the end of the status line. A text is cut anywhere. An entry
line is cut where an entry line could end. A list of texts is cut after the dot that was put in
front of a text that begins with a dot itself. -/
def IsMisleading : Operation α → α → Bytes → Prop
  | createEntry _, id, cut =>
      ∃ p, NumberCut Payload.created id.toNat p ∧ cut = Utf8.encode (Status.ok p).line
  | changeEntry id _, _, cut =>
      ∃ p, NumberCut Payload.changed id.toNat p ∧ cut = Utf8.encode (Status.ok p).line
  | storeString _ _, n, cut =>
      ∃ p, NumberCut Payload.stringAdded n p ∧ cut = Utf8.encode (Status.ok p).line
  | fillEntry id, r, cut =>
      ∃ q, q <+: Utf8.encode (formatEntryLine r) ∧ r.EntryCut (Utf8.decodeLossy q) ∧
        Utf8.decodeLossy q ≠ formatEntryLine r ∧
        cut = Utf8.encode ((fillEntry id).statusLine r) ++ lineFeed :: q
  | getStringAt id pos, t, cut =>
      ∃ q, q <+: Utf8.encode t ∧ q ≠ [] ∧ Utf8.decodeLossy q ≠ t ∧
        cut = Utf8.encode ((getStringAt id pos).statusLine t) ++ lineFeed :: q
  | listStrings id, ts, cut =>
      ∃ lines, BodyCut ts lines ∧ cut = Utf8.encode ((listStrings id).statusLine ts) ++
        lineFeed :: (lineBytes (lines.map stuff) ++ Utf8.encode terminator)
  | _, _, _ => False

/-- What can come of a reply that breaks off: a failure, the answer of the whole reply, or another
answer. -/
def Outcomes (op : Operation α) (store : Store) (v : α) (cut : Bytes)
    (r : Except RegistryError α) : Prop :=
  (∃ e, r = .error e) ∨
    (∃ s, (op.collect (op.payload v) : Exchange Unit α).Leads
      ⟨lineBytes (Session.following store op.command).sent, false, ()⟩ r s) ∨
    op.IsMisleading v cut

variable {op : Operation α} {store next : Store} {v : α}

/-! ### Numbers at the end of the status line -/

/-- The answer to an operation is made of a number that ends the status line, and nothing follows
it. -/
structure EndsInNumber (op : Operation α) (v : α) (template first : Text) (bits n : Nat)
    (f : Nat → α) : Prop where
  /-- The number ends the payload. -/
  pieces : Template.pieces template = [first, []]
  payload : op.payload v = Template.render template [Decimal.ofNat n]
  /-- Nothing follows the status line. -/
  tail : ∀ store, (Session.following store op.command).sent = []
  /-- The answer is made of the number. -/
  collect : ∀ p s, (op.collect p : Exchange Unit α).Leads s ((firstNumber bits template p).map f) s
  /-- A smaller number would be admitted, and it would make another answer. -/
  admits : ∀ m ≤ n, m < 2 ^ 63 → m < 2 ^ bits
  differs : ∀ m < n, f m ≠ f n
  /-- The number can be cut. -/
  misleading : ∀ cut, op.IsMisleading v cut ↔
    ∃ p, NumberCut template n p ∧ cut = Utf8.encode (Status.ok p).line

theorem leads_map {β : Type} (r : Except RegistryError Nat) (f : Nat → β) (s : Standing Unit) :
    (do return f (← liftM r) : Exchange Unit β).Leads s (r.map f) s := by
  cases r with
  | error e => exact (Leads.lift _).bind_error
  | ok n => exact (Leads.lift_ok rfl).bind (Leads.pure _)

theorem leads_id (r : Except RegistryError Nat) (s : Standing Unit) :
    (liftM r : Exchange Unit Nat).Leads s (r.map id) s := by
  cases r <;> exact Leads.lift _

theorem entryId_admits (id : EntryId) : ∀ m ≤ id.toNat, m < 2 ^ 63 → m < 2 ^ 32 :=
  fun _ hle _ => Nat.lt_of_le_of_lt hle id.toNat_lt

theorem entryId_differs (id : EntryId) :
    ∀ m < id.toNat, UInt32.ofNat m ≠ UInt32.ofNat id.toNat := by
  intro m hlt heq
  have hm := congrArg UInt32.toNat heq
  rw [UInt32.ofNat_toNat, UInt32.toNat_ofNat_of_lt' (Nat.lt_trans hlt id.toNat_lt)] at hm
  exact absurd hm (Nat.ne_of_lt hlt)

theorem endsInNumber_createEntry (e : EntryFields) (id : EntryId) :
    EndsInNumber (createEntry e) id Payload.created "entry ID is ".toList 32 id.toNat
      UInt32.ofNat where
  pieces := Template.pieces_created
  payload := rfl
  tail _ := rfl
  collect _ _ := leads_map _ _ _
  admits := entryId_admits id
  differs := entryId_differs id
  misleading _ := Iff.rfl

theorem endsInNumber_changeEntry (id r : EntryId) (s : FieldSet) :
    EndsInNumber (changeEntry id s) r Payload.changed "applied changes to entry ".toList 32
      id.toNat UInt32.ofNat where
  pieces := Template.pieces_changed
  payload := rfl
  tail _ := rfl
  collect _ _ := leads_map _ _ _
  admits := entryId_admits id
  differs := entryId_differs id
  misleading _ := Iff.rfl

theorem endsInNumber_storeString (owner : EntryId) (t : Text) (n : Nat) :
    EndsInNumber (storeString owner t) n Payload.stringAdded "string ID is ".toList 64 n id where
  pieces := Template.pieces_stringAdded
  payload := rfl
  tail _ := rfl
  collect _ _ := leads_id _ _
  admits _ _ hlt := Nat.lt_trans hlt (by decide)
  differs _ hlt := Nat.ne_of_lt hlt
  misleading _ := Iff.rfl

theorem EndsInNumber.outcomes {template first : Text} {bits n : Nat} {f : Nat → α}
    (h : EndsInNumber op v template first bits n f) {p : Text} (hp : p <+: op.payload v)
    {cut : Bytes} (hcut : p = [] ∨ cut = Utf8.encode (Status.ok p).line) :
    ∃ r s, (op.collect p : Exchange Unit α).Leads ⟨[], false, ()⟩ r s ∧
      op.Outcomes store v cut r := by
  refine ⟨_, _, h.collect p _, ?_⟩
  cases hm : firstNumber bits template p with
  | error e => exact .inl ⟨e, rfl⟩
  | ok m =>
      rw [h.payload] at hp
      rcases NumberCut.of_firstNumber h.pieces hp hm with rfl | hnumber
      · refine .inr (.inl ⟨⟨lineBytes [], false, ()⟩, ?_⟩)
        rw [h.tail, h.payload, ← hm]
        exact h.collect _ _
      · rcases hcut with rfl | rfl
        · exact absurd rfl (hnumber.ne_nil h.pieces)
        · exact .inr (.inr ((h.misleading _).mpr ⟨p, hnumber, rfl⟩))

/-! ### Numbers with more text behind them -/

/-- A number is only found if some of the text behind it is left. -/
theorem outcomes_guarded (op : Operation α) (v : α) {template first piece : Text}
    {more vs : List Text} (ht : Template.pieces template = first :: piece :: more)
    (hpiece : piece ≠ []) (hend : Decimal.EndsNumber piece) {bits n : Nat} {f : Nat → α}
    (hpayload : op.payload v = Template.render template (Decimal.ofNat n :: vs))
    (hwhole : n < 2 ^ 63 → f n = v ∧ op.counted v < 2 ^ 63) (hstore : store.IsSound)
    (hv : op.perform store = .ok (v, next))
    (htail : (Session.following store op.command).sent = []) {p : Text} (hp : p <+: op.payload v)
    {cut : Bytes} :
    op.Outcomes store v cut ((firstNumber bits template p).map f) := by
  cases hm : firstNumber bits template p with
  | error e => exact .inl ⟨e, rfl⟩
  | ok m =>
      rw [hpayload, Template.render_cons ht] at hp
      obtain ⟨rfl, hlt, -⟩ := Template.firstNumber_prefix_guarded ht hpiece hend hp hm
      obtain ⟨hfv, hcount⟩ := hwhole hlt
      have hsent := @collect_sent Unit α store next hstore op v hv hcount
        (by rw [htail]; exact List.forall_mem_nil _) [] false ()
      rw [List.append_nil] at hsent
      exact .inr (.inl ⟨_, by rw [Except.map, hfv]; exact hsent⟩)

/-! ### Status lines that break off -/

/-- What is collected when the status line breaks off. -/
theorem collect_cutStatus (hstore : store.IsSound) (hv : op.perform store = .ok (v, next))
    {p : Text} (hp : p <+: op.payload v) {cut : Bytes}
    (hcut : p = [] ∨ cut = Utf8.encode (Status.ok p).line) :
    ∃ r s, (op.collect p : Exchange Unit α).Leads ⟨[], false, ()⟩ r s ∧
      op.Outcomes store v cut r := by
  have hentries : (readEntries : Exchange Unit (List EntryRecord)).Leads ⟨[], false, ()⟩
      (.error .disconnected) ⟨[], false, ()⟩ := Leads.readBody_end.bind_error
  cases op with
  | createEntry e => exact (endsInNumber_createEntry e v).outcomes hp hcut
  | changeEntry id s => exact (endsInNumber_changeEntry id v s).outcomes hp hcut
  | storeString id t => exact (endsInNumber_storeString id t v).outcomes hp hcut
  | deleteEntry id =>
      refine ⟨_, _, leads_map _ _ _, outcomes_guarded (deleteEntry id) v Template.pieces_deleted
        (by decide) (by decide) rfl (fun _ => ⟨?_, Nat.two_pow_pos 63⟩) hstore hv rfl hp⟩
      rw [UInt32.ofNat_toNat, Store.delete_id hv]
  | clean =>
      exact ⟨_, _, leads_id _ _, outcomes_guarded clean v Template.pieces_cleaned (by decide)
        (by decide) rfl (fun _ => ⟨rfl, Nat.two_pow_pos 63⟩) hstore hv rfl hp⟩
  | countStrings id =>
      exact ⟨_, _, leads_id _ _, outcomes_guarded (countStrings id) v
        Template.pieces_stringsCounted (by decide) (by decide) rfl (fun hlt => ⟨rfl, hlt⟩)
        hstore hv rfl hp⟩
  | deleteString id pos => exact ⟨_, _, Leads.pure (), .inr (.inl ⟨_, Leads.pure ()⟩)⟩
  | queryEntries | listEntries => exact ⟨_, _, hentries, .inl ⟨_, rfl⟩⟩
  | openEntry s => exact ⟨_, _, hentries.bind_error, .inl ⟨_, rfl⟩⟩
  | fillEntry id => exact ⟨_, _, Leads.readLine_end.bind_error, .inl ⟨_, rfl⟩⟩
  | getStringAt id pos => exact ⟨_, _, Leads.readLine_end, .inl ⟨_, rfl⟩⟩
  | listStrings | help => exact ⟨_, _, Leads.readBody_end, .inl ⟨_, rfl⟩⟩

/-! ### Data lines and bodies that break off -/

/-- A data line that breaks off. -/
theorem outcomes_dataLine (op : Operation α) (v : α) {t : Text}
    (hsent : (Session.following store op.command).sent = [t])
    {g : Text → Except RegistryError α} (hcollect : op.collect (op.payload v) =
      (Exchange.readLine >>= fun t => liftM (g t) : Exchange Unit α))
    (hone : t.IsOneLine) (hfit : t.FitsInMemory) {q : Bytes} (hq : q <+: lineBytes [t])
    (hne : q ≠ lineBytes [t]) {cut : Bytes} (hmisleading : q <+: Utf8.encode t → q ≠ [] →
      ∀ a, g (Utf8.decodeLossy q) = .ok a → Utf8.decodeLossy q ≠ t → op.IsMisleading v cut) :
    ∃ r s, (op.collect (op.payload v) : Exchange Unit α).Leads ⟨q, false, ()⟩ r s ∧
      op.Outcomes store v cut r := by
  rcases prefix_lineBytes_cons hq hne with hq | ⟨r, -, hr, hrne⟩
  · by_cases hnil : q = []
    · rw [hnil, hcollect]
      exact ⟨_, _, Leads.readLine_end.bind_error, .inl ⟨_, rfl⟩⟩
    · refine ⟨g (Utf8.decodeLossy q), ⟨[], false, ()⟩, ?_, ?_⟩
      · rw [hcollect]
        exact (Leads.readLine_cut hone hfit hq hnil).bind (Leads.lift _)
      · cases hg : g (Utf8.decodeLossy q) with
        | error e => exact .inl ⟨e, rfl⟩
        | ok a =>
            by_cases hall : Utf8.decodeLossy q = t
            · refine .inr (.inl ⟨⟨[], false, ()⟩, ?_⟩)
              rw [hsent, lineBytes_cons, lineBytes_nil, hcollect, ← hg, hall]
              exact (Leads.readLine_line hone hfit).bind (Leads.lift _)
            · exact .inr (.inr (hmisleading hq hnil a hg hall))
  · exact absurd (List.prefix_nil.mp hr) hrne

/-- A body that breaks off. -/
theorem outcomes_body (op : Operation α) (v : α) {body : List Text}
    (hsent : (Session.following store op.command).sent = bodyLines body)
    {g : List Text → Except RegistryError α} (hcollect : op.collect (op.payload v) =
      (Exchange.readBody >>= fun lines => liftM (g lines) : Exchange Unit α))
    (hline : ∀ t ∈ body, t.IsOneLine) (hfit : ∀ t ∈ bodyLines body, t.FitsInMemory) {q : Bytes}
    (hq : q <+: lineBytes (bodyLines body)) (hne : q ≠ lineBytes (bodyLines body)) {cut : Bytes}
    (hmisleading : ∀ lines, BodyCut body lines →
      q = lineBytes (lines.map stuff) ++ Utf8.encode terminator → op.IsMisleading v cut) :
    ∃ r s, (op.collect (op.payload v) : Exchange Unit α).Leads ⟨q, false, ()⟩ r s ∧
      op.Outcomes store v cut r := by
  obtain ⟨r, hread, hcases⟩ := Leads.readBody_broken hline hfit hq hne
  rcases hcases with rfl | rfl | ⟨lines, rfl, hcut, hbytes⟩
  · rw [hcollect]
    exact ⟨_, _, hread.bind_error, .inl ⟨_, rfl⟩⟩
  · refine ⟨g body, ⟨[], false, ()⟩, ?_, .inr (.inl ⟨⟨[], false, ()⟩, ?_⟩)⟩
    · rw [hcollect]
      exact hread.bind (Leads.lift _)
    · have hwhole := @Leads.readBody Unit body hline hfit [] false ()
      rw [List.append_nil] at hwhole
      rw [hsent, hcollect]
      exact hwhole.bind (Leads.lift _)
  · refine ⟨g lines, ⟨[], false, ()⟩, ?_, .inr (.inr (hmisleading lines hcut hbytes))⟩
    rw [hcollect]
    exact hread.bind (Leads.lift _)

theorem not_bodyCut {body lines : List Text} (h : ∀ t ∈ body, t.head? ≠ some '.') :
    ¬BodyCut body lines := by
  rintro ⟨t, after, rfl⟩
  exact h _ (List.mem_append_right _ List.mem_cons_self) rfl

theorem head?_formatEntryLine (records : List EntryRecord) :
    ∀ t ∈ records.map formatEntryLine, t.head? ≠ some '.' := by
  intro t ht
  obtain ⟨r, -, rfl⟩ := List.mem_map.mp ht
  rw [formatEntryLine_eq]
  exact (by decide : some 'I' ≠ some '.')

theorem bind_liftM_ok {β : Type} (x : Exchange Unit β) :
    (x >>= fun a => (liftM (Except.ok a : Except RegistryError β) : Exchange Unit β)) = x := by
  have hpure : ∀ a : β, (liftM (Except.ok a : Except RegistryError β) : Exchange Unit β) =
      pure a := fun _ => rfl
  simp only [hpure, bind_pure]

/-- What is collected when the reply breaks off behind its status line. -/
theorem collect_cutTail (hstore : store.IsSound) (hv : op.perform store = .ok (v, next))
    (hfit : ∀ t ∈ (Session.following store op.command).sent, t.FitsInMemory) {q : Bytes}
    (hq : q <+: lineBytes (Session.following store op.command).sent)
    (hne : q ≠ lineBytes (Session.following store op.command).sent) :
    ∃ r s, (op.collect (op.payload v) : Exchange Unit α).Leads ⟨q, false, ()⟩ r s ∧
      op.Outcomes store v (Utf8.encode (op.statusLine v) ++ lineFeed :: q) r := by
  have hlines := Session.isOneLine_following hstore op.command
  cases op with
  | createEntry | changeEntry | deleteEntry | clean | storeString | countStrings
  | deleteString => exact absurd (List.prefix_nil.mp hq) hne
  | queryEntries s =>
      exact outcomes_body (queryEntries s) v rfl rfl hlines hfit hq hne fun lines hcut _ =>
        absurd hcut (not_bodyCut (head?_formatEntryLine _))
  | listEntries =>
      exact outcomes_body listEntries v rfl rfl hlines hfit hq hne fun lines hcut _ =>
        absurd hcut (not_bodyCut (head?_formatEntryLine _))
  | openEntry s =>
      have hcollect : (openEntry s).collect ((openEntry s).payload v) =
          (Exchange.readBody >>= fun lines =>
            liftM ((lines.mapM entryOf).map (·.head?.map EntryRecord.id)) :
              Exchange Unit (Option EntryId)) := by
        rw [collect, readEntries, bind_assoc]
        congr 1
        funext lines
        cases lines.mapM entryOf <;> rfl
      exact outcomes_body (openEntry s) v rfl hcollect hlines hfit hq hne fun lines hcut _ =>
        absurd hcut (not_bodyCut (head?_formatEntryLine _))
  | help =>
      have hcollect : help.collect (help.payload v) =
          (Exchange.readBody >>= fun lines => liftM (Except.ok lines) :
            Exchange Unit (List Text)) := (bind_liftM_ok _).symm
      exact outcomes_body help v rfl hcollect hlines hfit hq hne fun lines hcut _ =>
        absurd hcut (not_bodyCut (by decide))
  | listStrings id =>
      obtain ⟨ts, hts, hv⟩ := Except.map_eq_ok.mp hv
      cases hv
      have hsent : Session.following store (listStrings id).command = .body v := by
        simp only [command, Session.following, hts]
      have hcollect : (listStrings id).collect ((listStrings id).payload v) =
          (Exchange.readBody >>= fun lines => liftM (Except.ok lines) :
            Exchange Unit (List Text)) := (bind_liftM_ok _).symm
      rw [hsent] at hlines hfit hq hne
      exact outcomes_body (listStrings id) v (by rw [hsent]; rfl) hcollect hlines hfit hq hne
        fun lines hcut hbytes => ⟨lines, hcut, by rw [hbytes]⟩
  | getStringAt id pos =>
      obtain ⟨t, ht, hv⟩ := Except.map_eq_ok.mp hv
      cases hv
      have hsent : Session.following store (getStringAt id pos).command = .dataLine v := by
        simp only [command, Session.following, ht]
      have hcollect : (getStringAt id pos).collect ((getStringAt id pos).payload v) =
          (Exchange.readLine >>= fun t => liftM (Except.ok t) : Exchange Unit Text) :=
        (bind_liftM_ok _).symm
      rw [hsent] at hlines hfit hq hne
      exact outcomes_dataLine (getStringAt id pos) v (by rw [hsent]; rfl) hcollect
        (hlines v List.mem_cons_self) (hfit v List.mem_cons_self) hq hne
        fun hq hnil _ _ hcut => ⟨q, hq, hnil, hcut, rfl⟩
  | fillEntry id =>
      obtain ⟨r, hr, hv⟩ := Except.map_eq_ok.mp hv
      cases hv
      have hsent : Session.following store (fillEntry id).command =
          .dataLine (formatEntryLine v) := by
        simp only [command, Session.following, hr]
      rw [hsent] at hlines hfit hq hne
      refine outcomes_dataLine (fillEntry id) v (by rw [hsent]; rfl) rfl
        (hlines _ List.mem_cons_self) (hfit _ List.mem_cons_self) hq hne
        fun hq hnil a ha hcut => ⟨q, hq, ?_, hcut, rfl⟩
      have hparse : parseEntryLine? (Utf8.decodeLossy q) = some a := by
        rw [entryOf] at ha
        split at ha
        · next heq => cases ha; exact heq
        · cases ha
      exact EntryRecord.entryCut_of_isCut ((hstore.fetch hr).2.mono fun _ ht => ht.1)
        (Text.isCut_decodeLossy hq) hparse

/-! ## Whole calls -/

section

variable {l : Link} (hstore : store.IsSound) (hcheck : op.check = .ok ())
  (hl : l.inbox = [] ∧ l.listening = true) (hv : op.perform store = .ok (v, next))
  (hfit : (lineBytes (op.reply store v).lines).length < 2 ^ 64)

include hstore hcheck hl hv hfit

/-- What a client hears of a successful reply that breaks off: a failure, what it would have heard
of the whole reply, or something else. -/
theorem heard_cut_cases {cut : Bytes} (hcut : cut <+: lineBytes (op.reply store v).lines)
    (hne : cut ≠ lineBytes (op.reply store v).lines) :
    (∃ e, op.heard l cut = .error e) ∨
      op.heard l cut = op.heard l (lineBytes (op.reply store v).lines) ∨
      op.IsMisleading v cut := by
  have hfits := fitsInMemory_of_lineBytes hfit
  have hone := op.isOneLine_statusLine v
  have hstatus : (op.statusLine v).FitsInMemory := hfits _ List.mem_cons_self
  -- In either case the whole reply leads to what is collected behind the whole status line.
  have hcases : ∀ {r}, op.heard l cut = r → op.Outcomes store v cut r →
      (∃ e, op.heard l cut = .error e) ∨
        op.heard l cut = op.heard l (lineBytes (op.reply store v).lines) ∨
        op.IsMisleading v cut := by
    rintro r rfl (herror | ⟨s, hwhole⟩ | hmisleading)
    · exact .inl herror
    · refine .inr (.inl ?_)
      rw [lineBytes_reply]
      exact (heard_line hcheck hl hone hstatus (judge_ok _ _) hwhole).symm
    · exact .inr (.inr hmisleading)
  rcases prefix_lineBytes_cons hcut hne with hq | ⟨q, rfl, hq, hqne⟩
  · by_cases hnil : cut = []
    · rw [hnil]
      exact .inl ⟨_, heard_nil hcheck hl⟩
    · cases hj : judge op.command (Utf8.decodeLossy cut) with
      | error e => exact .inl ⟨e, heard_cut_error hcheck hl hone hstatus hq hnil hj⟩
      | ok p =>
          obtain ⟨hp, hbytes⟩ := judge_cut_ok (op.isPlain_payload v) hq hj
          obtain ⟨r, s, hleads, hr⟩ := collect_cutStatus hstore hv hp hbytes
          exact hcases (heard_cut_ok hcheck hl hone hstatus hq hnil hj hleads) hr
  · obtain ⟨r, s, hleads, hr⟩ := collect_cutTail hstore hv
      (fun t ht => hfits t (List.mem_cons_of_mem _ ht)) hq hqne
    exact hcases (heard_line hcheck hl hone hstatus (judge_ok _ _) hleads) hr

/-- What a client hears of a whole reply is the answer, if its numbers can be counted. -/
theorem heard_whole (hcount : op.counted v < 2 ^ 63) :
    op.heard l (lineBytes (op.reply store v).lines) = .ok v := by
  have hfits := fitsInMemory_of_lineBytes hfit
  have hsent := @collect_sent Unit α store next hstore op v hv hcount
    (fun t ht => hfits t (List.mem_cons_of_mem _ ht)) [] false ()
  rw [List.append_nil] at hsent
  rw [lineBytes_reply]
  exact heard_line hcheck hl (op.isOneLine_statusLine v) (hfits _ List.mem_cons_self)
    (judge_ok _ _) hsent

omit hstore hv in
theorem EndsInNumber.heard {template first : Text} {bits n : Nat} {f : Nat → α}
    (h : EndsInNumber op v template first bits n f) {p : Text} (hp : NumberCut template n p) :
    ∃ w, op.heard l (Utf8.encode (Status.ok p).line) = .ok w ∧
      op.heard l (lineBytes (op.reply store v).lines) ≠ .ok w := by
  have hfits := fitsInMemory_of_lineBytes hfit
  have hone := op.isOneLine_statusLine v
  have hstatus : (op.statusLine v).FitsInMemory := hfits _ List.mem_cons_self
  obtain ⟨m, hlt, hm⟩ := hp.firstNumber_lt h.pieces h.admits
  refine ⟨f m, ?_, fun hwhole => ?_⟩
  · have hprefix : Utf8.encode (Status.ok p).line <+: Utf8.encode (op.statusLine v) := by
      obtain ⟨rest, hrest⟩ := hp.prefix_render h.pieces
      rw [← h.payload] at hrest
      refine ⟨Utf8.encode rest, ?_⟩
      rw [← Utf8.encode_append, statusLine, ← hrest]
      simp only [Status.line, List.append_assoc, List.cons_append]
    have hcollect := h.collect p ⟨[], false, ()⟩
    rw [hm] at hcollect
    refine heard_cut_ok hcheck hl hone hstatus hprefix ?_ ?_ hcollect
    · exact fun hnil => absurd (Utf8.encode_eq_nil_iff.mp hnil) (List.cons_ne_nil _ _)
    · rw [Utf8.decodeLossy_encode, judge_ok]
  · rw [lineBytes_reply, h.tail, heard_line hcheck hl hone hstatus (judge_ok _ _) (h.collect _ _),
      h.payload] at hwhole
    obtain ⟨k, hk, hf⟩ := Except.map_eq_ok.mp hwhole
    rw [firstNumber_render_last h.pieces hk] at hf
    exact h.differs m hlt hf.symm

/-- A client takes something else for the answer after a misleading cut. -/
theorem IsMisleading.heard {cut : Bytes} (h : op.IsMisleading v cut) :
    ∃ w, op.heard l cut = .ok w ∧ op.heard l (lineBytes (op.reply store v).lines) ≠ .ok w := by
  have hfits := fitsInMemory_of_lineBytes hfit
  have hone := op.isOneLine_statusLine v
  have hstatus : (op.statusLine v).FitsInMemory := hfits _ List.mem_cons_self
  have htail : ∀ t ∈ (Session.following store op.command).sent, t.FitsInMemory :=
    fun t ht => hfits t (List.mem_cons_of_mem _ ht)
  have hlines := Session.isOneLine_following hstore op.command
  have hwhole := heard_whole hstore hcheck hl hv hfit
  cases op with
  | deleteEntry | clean | countStrings | deleteString | queryEntries | openEntry | listEntries
  | help => exact absurd h id
  | createEntry e =>
      obtain ⟨p, hp, rfl⟩ := h
      exact (endsInNumber_createEntry e v).heard hcheck hl hfit hp
  | changeEntry id s =>
      obtain ⟨p, hp, rfl⟩ := h
      exact (endsInNumber_changeEntry id v s).heard hcheck hl hfit hp
  | storeString id t =>
      obtain ⟨p, hp, rfl⟩ := h
      exact (endsInNumber_storeString id t v).heard hcheck hl hfit hp
  | fillEntry id =>
      obtain ⟨q, hq, hentry, hcut, rfl⟩ := h
      obtain ⟨r, hr, hv⟩ := Except.map_eq_ok.mp hv
      cases hv
      simp only [command, Session.following, hr] at hlines htail
      obtain ⟨hcomplete, htexts⟩ := hstore.fetch hr
      obtain ⟨r', hparse, hdiffers⟩ :=
        hentry.parse (htexts.mono fun _ ht => ht.1) hcomplete hcut
      have hnil : q ≠ [] := by
        rintro rfl
        cases hparse
      have hread : entryOf (Utf8.decodeLossy q) = .ok r' := by simp only [entryOf, hparse]
      refine ⟨r', heard_line hcheck hl hone hstatus (judge_ok _ _) (Leads.bind
        (Leads.readLine_cut (hlines _ List.mem_cons_self) (htail _ List.mem_cons_self) hq hnil)
        (Leads.lift_ok hread)), ?_⟩
      rw [hwhole (Nat.two_pow_pos 63)]
      exact fun heq => hdiffers (Except.ok.inj heq).symm
  | getStringAt id pos =>
      obtain ⟨q, hq, hnil, hcut, rfl⟩ := h
      obtain ⟨t, ht, hv⟩ := Except.map_eq_ok.mp hv
      cases hv
      simp only [command, Session.following, ht] at hlines htail
      refine ⟨Utf8.decodeLossy q, heard_line hcheck hl hone hstatus (judge_ok _ _)
        (Leads.readLine_cut (hlines _ List.mem_cons_self) (htail _ List.mem_cons_self) hq hnil),
        ?_⟩
      rw [hwhole (Nat.two_pow_pos 63)]
      exact fun heq => hcut (Except.ok.inj heq).symm
  | listStrings id =>
      obtain ⟨lines, ⟨t, after, rfl⟩, rfl⟩ := h
      obtain ⟨ts, hts, hv⟩ := Except.map_eq_ok.mp hv
      cases hv
      simp only [command, Session.following, hts, Following.sent, Following.lines, bodyLines,
        List.map_append, List.map_cons, List.forall_mem_append, List.forall_mem_cons]
        at hlines htail
      have hdot : Utf8.encode terminator <+: Utf8.encode (stuff ('.' :: t)) :=
        ⟨Utf8.encode ('.' :: t), rfl⟩
      have hread : (Exchange.readBody : Exchange Unit (List Text)).Leads
          ⟨lineBytes (lines.map stuff) ++ Utf8.encode terminator, false, ()⟩ (.ok lines)
          ⟨[], false, ()⟩ := by
        simpa only [Utf8.decodeLossy_encode, if_true] using Leads.readBody_cut hlines.1 htail.1.1
          (isOneLine_stuff hlines.2.1) htail.1.2.1 hdot
      refine ⟨lines, heard_line hcheck hl hone hstatus (judge_ok _ _) hread, ?_⟩
      rw [hwhole (Nat.two_pow_pos 63)]
      intro heq
      have hlength := congrArg List.length (Except.ok.inj heq)
      simp at hlength

end

/-- A request that a client sends is refused, or it is carried out and its answer is told. -/
theorem respond_sent (s : Session) {op : Operation α} (hop : op.command.AllTexts IsEncodable)
    (store : Store) :
    (∃ payload, s.respond op.command.encode store = (.goOn (.err payload), store) ∧
        payload.IsOneLine) ∨
      ∃ v next, op.perform store = .ok (v, next) ∧
        s.respond op.command.encode store = (.goOn (op.reply store v), next) := by
  by_cases hargs : op.command.HasArguments ('"' ∉ ·)
  · rw [Session.respond_command (hargs.of_allTexts hop)]
    split
    · exact .inl ⟨_, rfl, s.isOneLine_overlongPayload⟩
    · cases op.perform store with
      | error e => exact .inl ⟨_, rfl, Session.isOneLine_failurePayload _ e⟩
      | ok answer => exact .inr ⟨answer.1, answer.2, rfl, rfl⟩
  · -- An id or a position of zero is sent, and it is the session that refuses it.
    obtain ⟨e, he⟩ := parse_encode_error (hop.mono fun _ ht => ht.1) hargs
    rcases s.respond_cases (isOneLine_encodable hop) store with
      ⟨payload, hresp, hpayload, -⟩ | ⟨c, o, next, -, hc, -⟩
    · exact .inl ⟨payload, hresp, hpayload⟩
    · rw [he] at hc
      cases hc

/-- Where a reply that breaks off passes for another answer. Of all replies that sessions give to
operations, and of all places where they can break off, it is exactly the misleading ones after
which a client reports an answer that the whole reply does not tell. -/
theorem heard_cut_iff {op : Operation α} {store : Store} {s : Session}
    (hstore : store.Reachable) (hcheck : op.check = .ok ())
    (hrequest : op.command.encode.FitsInMemory) {reply cut : Bytes}
    (hreply : (s.answer op.command.encode store).1.1 = reply) (hfit : reply.length < 2 ^ 64)
    (hcut : cut <+: reply) (hne : cut ≠ reply) {l : Link}
    (hl : l.inbox = [] ∧ l.listening = true) :
    (∃ w, op.heard l cut = .ok w ∧ op.heard l reply ≠ .ok w) ↔
      ∃ v next, op.perform store = .ok (v, next) ∧ reply = lineBytes (op.reply store v).lines ∧
        op.IsMisleading v cut := by
  have hop := check_eq_ok.mp hcheck
  rw [s.answer_eq (isOneLine_encodable hop) hrequest] at hreply
  constructor
  · rintro ⟨w, hw, hother⟩
    rcases respond_sent s hop store with ⟨payload, hresp, hpayload⟩ | ⟨v, next, hv, hresp⟩
    · rw [hresp] at hreply
      subst hreply
      have hrefused := heard_refusal hcheck hl (isOneLine_err hpayload)
        (fitsInMemory_of_lineBytes hfit _ List.mem_cons_self) hcut hne
      obtain ⟨e, he⟩ := hrefused
      rw [hw] at he
      cases he
    · rw [hresp] at hreply
      subst hreply
      refine ⟨v, next, hv, rfl, ?_⟩
      rcases heard_cut_cases hstore.isSound hcheck hl hv hfit hcut hne with
        ⟨e, he⟩ | hsame | hmisleading
      · rw [hw] at he
        cases he
      · exact absurd (hsame.symm.trans hw) hother
      · exact hmisleading
  · rintro ⟨v, next, hv, rfl, hmisleading⟩
    exact hmisleading.heard hstore.isSound hcheck hl hv hfit

/-- The line of an entry that breaks off after the id is an entry without values. -/
theorem heard_cut_iff_fillEntry :
    let e : EntryFields :=
      { app := "a", site := "s", mach := "m", node := "n", port := 1, pid := 2, comp := "c",
        tag := "t" }
    let store : Store := ⟨[(1, ⟨e, []⟩)], 2, List.pairwise_singleton _ _⟩
    let s : Session := ⟨"here", 7, 64⟩
    let op := fillEntry 1
    let reply := (s.answer op.command.encode store).1.1
    let cut := Utf8.encode "+OK showing entry 1\nID 1".toList
    let l : Link := { location := ⟨"here", 7⟩, inbox := [] }
    store.Reachable ∧ cut <+: reply ∧ cut ≠ reply ∧
      ∃ w, op.heard l cut = .ok w ∧ op.heard l reply ≠ .ok w := by
  intro e store s op reply cut l
  have hop : op.command.HasArguments IsEncodable := by decide
  have hreach : store.Reachable :=
    Store.Reachable.start.execute (s := s) (c := .create (.ofFields e)) (by decide) (by decide)
      (o := .goOn (Session.success Payload.created [Session.idText 1])) rfl
  have hreply : reply = lineBytes ["+OK showing entry 1".toList, formatEntryLine ⟨1, e⟩] := by
    have hanswer := @Session.answer_eq s op.command.encode (by decide) (by decide) store
    rw [Session.respond_command hop] at hanswer
    exact congrArg (·.1.1) hanswer
  have hcut : cut <+: reply := by
    rw [hreply]
    decide
  have hne : cut ≠ reply := by
    rw [hreply]
    decide
  have hshort : reply.length < 2 ^ 64 := by
    rw [hreply]
    decide
  refine ⟨hreach, hcut, hne, ?_⟩
  refine (heard_cut_iff hreach rfl (by decide) rfl hshort hcut hne ⟨rfl, rfl⟩).mpr
    ⟨⟨1, e⟩, store, rfl, hreply, Utf8.encode "ID 1".toList, by decide, ?_, by decide, by decide⟩
  rw [Utf8.decodeLossy_encode]
  exact .id (d := "1".toList) (by decide) (by decide)

/-- A text of five characters that breaks off after the third is a text of three characters. -/
theorem heard_cut_getStringAt :
    let e : EntryFields :=
      { app := "a", site := "s", mach := "m", node := "n", port := 1, pid := 2, comp := "c",
        tag := "t" }
    let store : Store := ⟨[(1, ⟨e, ["hello".toList]⟩)], 2, List.pairwise_singleton _ _⟩
    let s : Session := ⟨"here", 7, 64⟩
    let op := getStringAt 1 1
    let reply := (s.answer op.command.encode store).1.1
    let cut := Utf8.encode "+OK string 1 of entry 1 size 5\nhel".toList
    let l : Link := { location := ⟨"here", 7⟩, inbox := [] }
    store.Reachable ∧ cut <+: reply ∧ cut ≠ reply ∧ op.heard l reply = .ok "hello".toList ∧
      op.heard l cut = .ok "hel".toList := by
  intro e store s op reply cut l
  have hop : op.command.HasArguments IsEncodable := by decide
  have hcreated : Store.Reachable ⟨[(1, ⟨e, []⟩)], 2, List.pairwise_singleton _ _⟩ :=
    Store.Reachable.start.execute (s := s) (c := .create (.ofFields e)) (by decide) (by decide)
      (o := .goOn (Session.success Payload.created [Session.idText 1])) rfl
  have hreach : store.Reachable :=
    hcreated.execute (s := s) (c := .addString 1 "hello".toList) (by decide) (by decide)
      (o := .goOn (Session.success Payload.stringAdded [Session.natText 1])) rfl
  have hreply : reply = lineBytes ["+OK string 1 of entry 1 size 5".toList, "hello".toList] := by
    have hanswer := @Session.answer_eq s op.command.encode (by decide) (by decide) store
    rw [Session.respond_command hop] at hanswer
    exact congrArg (·.1.1) hanswer
  have hcut : cut <+: reply := by
    rw [hreply]
    decide
  have hne : cut ≠ reply := by
    rw [hreply]
    decide
  have hcollect : (op.collect (op.payload "hello".toList) : Exchange Unit Text).Leads
      ⟨Utf8.encode "hel".toList, false, ()⟩ (.ok "hel".toList) ⟨[], false, ()⟩ := by
    have hread := @Leads.readLine_cut Unit false () "hello".toList (by decide) (by decide)
      (Utf8.encode "hel".toList) (by decide) (by decide)
    rwa [Utf8.decodeLossy_encode] at hread
  refine ⟨hreach, hcut, hne, ?_, ?_⟩
  · have hwhole := @heard_whole _ op store store "hello".toList l hreach.isSound rfl ⟨rfl, rfl⟩ rfl
      (by decide) (by decide)
    rw [hreply]
    exact hwhole
  · exact @heard_line _ op l rfl ⟨rfl, rfl⟩ (op.statusLine "hello".toList) (by decide)
      (by decide) _ (judge_ok _ _) _ _ _ hcollect

end Operation

end ToolRegistry
