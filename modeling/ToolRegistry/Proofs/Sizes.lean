import Mathlib.Algebra.GroupWithZero.Nat
import ToolRegistry.Proofs.CutReplies
import ToolRegistry.Proofs.InPlace

/-!
# What is said about a store that fits in memory

A line is read whole only if its bytes can be counted, so whatever is said of
a conversation has to keep an eye on the lengths of lines. The texts that are
kept in a store are the only ones without a bound of their own. Everything else
in a reply is a fixed text and some numbers of 64 bits, which are short. So a
store whose own texts fit in memory (`Store.FitsInMemory`) is one of which only
lines are sent that fit as well. A list of texts is the one exception, since a
text that begins with a dot is sent with one more.

From this comes what there is to know of a single call (`call_answered`): its
reply is read whole and nothing is read behind it, whichever peer it is that
answers as a session does.
-/

namespace ToolRegistry

open Wire

/-! ## Lengths -/

namespace Utf8

theorem length_encode_le (t : Text) : (encode t).length ≤ 4 * t.length := by
  induction t with
  | nil => exact Nat.le_refl 0
  | cons c t ih =>
      have hchar : (encodeChar c).length ≤ 4 := by
        rcases encodeChar_cases (c := c) rfl with
          ⟨-, h⟩ | ⟨-, -, h⟩ | ⟨-, -, -, h⟩ | ⟨-, -, h⟩ <;> simp [h]
      have hcons : encode (c :: t) = encodeChar c ++ encode t := rfl
      rw [hcons, List.length_append, List.length_cons]
      omega

end Utf8

theorem Text.fitsInMemory_of_length {t : Text} (h : t.length < 2 ^ 32) : t.FitsInMemory := by
  have := Utf8.length_encode_le t
  rw [Text.FitsInMemory]
  omega

theorem Decimal.length_ofNat_le {n : Nat} (h : n < 2 ^ 64) : (ofNat n).length ≤ 20 :=
  (Nat.length_toDigits_le_iff (by decide) (by decide)).mpr (by omega)

namespace Wire.Template

theorem length_interleave_le {vs : List Text} {n : Nat} (h : ∀ v ∈ vs, v.length ≤ n)
    (ps : List Text) :
    (interleave ps vs).length ≤ (ps.map List.length).sum + n * vs.length := by
  induction ps generalizing vs with
  | nil => cases vs <;> exact Nat.zero_le _
  | cons p ps ih =>
      cases vs with
      | nil =>
          have := ih h
          simp only [interleave, List.length_append, List.map_cons, List.sum_cons] at this ⊢
          omega
      | cons v vs =>
          obtain ⟨hv, hvs⟩ := List.forall_mem_cons.mp h
          have := ih hvs
          simp only [interleave, List.length_append, List.map_cons, List.sum_cons,
            List.length_cons, Nat.mul_succ] at this ⊢
          omega

theorem length_pieces_le (template : Text) :
    ((pieces template).map List.length).sum ≤ template.length := by
  induction template using pieces.induct with
  | case1 => exact Nat.le_refl 0
  | case2 rest ih =>
      rw [pieces, List.map_cons, List.sum_cons, List.length_cons, List.length_cons]
      simp only [List.length_nil]
      omega
  | case3 c rest hno first more hp ih =>
      rw [pieces, hp]
      · rw [hp] at ih
        simp only [List.map_cons, List.sum_cons, List.length_cons] at ih ⊢
        omega
      · exact hno
  | case4 c rest hno hp ih =>
      rw [pieces, hp]
      · simp
      · exact hno

/-- A filled template is no longer than the template and the values together. -/
theorem length_render_le (template : Text) {vs : List Text} {n : Nat}
    (h : ∀ v ∈ vs, v.length ≤ n) :
    (render template vs).length ≤ template.length + n * vs.length := by
  have hpieces := length_pieces_le template
  rw [render]
  split
  · next first more heq =>
      have := length_interleave_le h more
      rw [heq, List.map_cons, List.sum_cons] at hpieces
      rw [List.length_append]
      omega
  · exact Nat.zero_le _

end Wire.Template

/-! ## Requests -/

namespace Wire

theorem length_argumentText_le {args : List Text} {n : Nat} (h : ∀ a ∈ args, a.length ≤ n) :
    (argumentText args).length ≤ (n + 1) * args.length := by
  induction args with
  | nil => exact Nat.zero_le _
  | cons a args ih =>
      obtain ⟨hlen, hrest⟩ := List.forall_mem_cons.mp h
      have ih := ih hrest
      rw [List.length_cons, Nat.mul_succ]
      by_cases ha : a = []
      · have hskip : argumentText (a :: args) = argumentText args := by
          rw [argumentText, List.filter_cons_of_neg (by simp [ha]), argumentText]
        rw [hskip]
        omega
      · rw [argumentText_cons ha, List.length_cons, List.length_append]
        omega

/-- A command whose arguments are numbers is a short line. -/
theorem Command.fitsInMemory_encode {c : Command} (ns : List Nat)
    (hargs : c.arguments = ns.map Decimal.ofNat) (hlen : ns.length ≤ 2)
    (hns : ∀ n ∈ ns, n < 2 ^ 64) : c.encode.FitsInMemory := by
  have hname : c.kind.name.length ≤ 10 := by cases c.kind <;> decide
  have hdigits : ∀ a ∈ c.arguments, a.length ≤ 20 := by
    intro a ha
    rw [hargs] at ha
    obtain ⟨n, hn, rfl⟩ := List.mem_map.mp ha
    exact Decimal.length_ofNat_le (hns n hn)
  have hcount : c.arguments.length ≤ 2 := by rwa [hargs, List.length_map]
  have htext := length_argumentText_le hdigits
  refine Text.fitsInMemory_of_length ?_
  rw [encode_eq, List.length_append]
  omega

end Wire

/-! ## Refusals -/

theorem Reply.err_injective {p q : Text} (h : Reply.err p = Reply.err q) : p = q := by
  have hline := List.head_eq_of_cons_eq (congrArg Reply.lines h)
  exact List.tail_eq_of_cons_eq (List.append_cancel_left hline)

theorem Session.length_refusal_lt {s : Session} {c : Command} {store next : Store} {payload : Text}
    (h : s.respond c.encode store = (.goOn (.err payload), next)) : payload.length < 1000 := by
  have husage : ∀ reason : Text, reason.length ≤ 100 → ∀ kind : CommandKind,
      (reason ++ ' ' :: kind.usage).length < 1000 := by
    intro reason hreason kind
    have hkind : kind.usage.length ≤ 200 := by cases kind <;> decide +kernel
    rw [List.length_append, List.length_cons]
    omega
  have hpayload : ∀ {q : Text} {last : Store},
      (Outcome.goOn (Reply.err q), last) = (.goOn (.err payload), next) → payload = q :=
    fun hq => (Reply.err_injective (congrArg (·.1.reply) hq)).symm
  rw [respond] at h
  split at h
  · have hlimit := Decimal.length_ofNat_le s.limit.toNat_lt
    rw [hpayload h]
    simp only [List.length_append]
    have hbad : Payload.badFormat.length ≤ 100 := by decide
    have hexceeds : " line exceeds ".toList.length = 14 := rfl
    have hbytes : " bytes".toList.length = 6 := rfl
    omega
  · rw [dispatch] at h
    cases hparse : Command.parse c.encode with
    | error e =>
        rw [hparse] at h
        cases e with
        | unknown token =>
            rw [parse_encode_eq] at hparse
            exact absurd hparse parseArguments_ne_unknown
        | badFormat kind reason =>
            rw [hpayload h]
            exact husage _ (by decide) kind
        | incomplete kind reason =>
            rw [hpayload h]
            exact husage _ (by decide) kind
    | ok c' =>
        rw [hparse] at h
        cases hexec : s.execute c' store with
        | error e =>
            simp only [hexec, failure_eq] at h
            rw [hpayload h]
            cases e with
            | noEntry id => exact (by decide : Payload.noEntry.length < 1000)
            | noString id pos => exact (by decide : Payload.noString.length < 1000)
            | incomplete missing => exact husage _ (by decide) _
        | ok answer =>
            simp only [hexec] at h
            have hok := isOk_of_execute hexec
            rw [h] at hok
            cases hok

/-! ## Successful replies -/

/-- Everything that is kept can be held by a program: the texts of an entry can be counted, and the
line of the entry and those texts fit in memory. -/
def Store.FitsInMemory (s : Store) : Prop :=
  s.CountsStrings ∧ ∀ row ∈ s.rows, (formatEntryLine ⟨row.1, row.2.fields⟩).FitsInMemory ∧
    ∀ t ∈ row.2.strings, t.FitsInMemory

instance (s : Store) : Decidable s.FitsInMemory := inferInstanceAs (Decidable (_ ∧ _))

namespace Store.FitsInMemory

variable {s : Store}

theorem search (h : s.FitsInMemory) {predicate : FieldSet} {r : EntryRecord}
    (hr : r ∈ s.search predicate) : (formatEntryLine r).FitsInMemory := by
  obtain ⟨row, hrow, rfl⟩ := List.mem_map.mp hr
  exact (h.2 row (List.mem_filter.mp hrow).1).1

theorem fetch (h : s.FitsInMemory) {id : EntryId} {r : EntryRecord} (hr : s.fetch id = .ok r) :
    (formatEntryLine r).FitsInMemory := by
  obtain ⟨stored, hget, hr⟩ := Except.bind_eq_ok.mp hr
  cases hr
  exact (h.2 _ (get_eq_ok hget)).1

theorem getString (h : s.FitsInMemory) {id : EntryId} {pos : UInt64} {t : Text}
    (ht : s.getString id pos = .ok t) : t.FitsInMemory := by
  obtain ⟨stored, hfind, -, hfound⟩ := getString_eq_ok ht
  exact (h.2 _ (mem_of_find? hfind)).2 t (List.mem_of_getElem? hfound)

end Store.FitsInMemory

theorem stuff_formatEntryLine (r : EntryRecord) : stuff (formatEntryLine r) = formatEntryLine r :=
  rfl

namespace Operation

variable {α : Type}

/-- Whether an operation is one of those with which entries are fetched together with their
texts. -/
def isFetching : Operation α → Bool
  | queryEntries _ | fillEntry _ | countStrings _ | getStringAt _ _ => true
  | _ => false

/-- Only a search can be a long line. -/
theorem fitsInMemory_command {op : Operation α} (hop : op.isFetching = true)
    (hshort : ∀ predicate, op.command ≠ .search predicate) : op.command.encode.FitsInMemory := by
  have hid : ∀ id : EntryId, id.toNat < 2 ^ 64 := fun id => by have := id.toNat_lt; omega
  cases op with
  | queryEntries predicate => exact absurd rfl (hshort predicate)
  | fillEntry id =>
      exact Command.fitsInMemory_encode [id.toNat] rfl (by simp)
        (List.forall_mem_singleton.mpr (hid id))
  | countStrings id =>
      exact Command.fitsInMemory_encode [id.toNat] rfl (by simp)
        (List.forall_mem_singleton.mpr (hid id))
  | getStringAt id pos =>
      exact Command.fitsInMemory_encode [id.toNat, pos.toNat] rfl (by simp)
        (List.forall_mem_cons.mpr ⟨hid id, List.forall_mem_singleton.mpr pos.toNat_lt⟩)
  | _ => cases hop

/-- The store is only looked at. -/
theorem perform_fetching {op : Operation α} (hop : op.isFetching = true) {store next : Store}
    {v : α} (hv : op.perform store = .ok (v, next)) : next = store := by
  cases op with
  | queryEntries => cases hv; rfl
  | fillEntry | countStrings | getStringAt =>
      obtain ⟨_, -, hv⟩ := Except.map_eq_ok.mp hv
      cases hv
      rfl
  | _ => cases hop

theorem fitsInMemory_rendered (template : Text) (htemplate : template.length ≤ 100)
    (ns : List Nat) (hlen : ns.length ≤ 3) (hns : ∀ n ∈ ns, n < 2 ^ 64) :
    (Status.ok (Template.render template (ns.map Decimal.ofNat))).line.FitsInMemory := by
  have hdigits : ∀ t ∈ ns.map Decimal.ofNat, t.length ≤ 20 := by
    intro t ht
    obtain ⟨n, hn, rfl⟩ := List.mem_map.mp ht
    exact Decimal.length_ofNat_le (hns n hn)
  have hlength := Template.length_render_le template hdigits
  have hmark : Status.okMark.length = 3 := rfl
  rw [List.length_map] at hlength
  refine Text.fitsInMemory_of_length ?_
  rw [Status.line, List.length_append, List.length_cons]
  omega

theorem fitsInMemory_statusLine {op : Operation α} {store next : Store}
    (hfits : store.FitsInMemory) {v : α} (hv : op.perform store = .ok (v, next)) :
    (op.statusLine v).FitsInMemory := by
  have hid : ∀ id : EntryId, id.toNat < 2 ^ 64 := fun id => by have := id.toNat_lt; omega
  have hone : ∀ {n : Nat}, n < 2 ^ 64 → ∀ m ∈ [n], m < 2 ^ 64 := by
    intro n hn
    exact List.forall_mem_singleton.mpr hn
  have htwo : ∀ {n : Nat}, n < 2 ^ 64 → ∀ id : EntryId, ∀ m ∈ [n, id.toNat], m < 2 ^ 64 :=
    fun hn id => List.forall_mem_cons.mpr ⟨hn, hone (hid id)⟩
  cases op with
  | queryEntries | openEntry => exact (by decide : (Status.ok Payload.found).line.FitsInMemory)
  | help => exact (by decide : (Status.ok Payload.help).line.FitsInMemory)
  | createEntry e =>
      exact fitsInMemory_rendered Payload.created (by decide) [v.toNat] (by simp) (hone (hid v))
  | changeEntry id fields =>
      exact fitsInMemory_rendered Payload.changed (by decide) [id.toNat] (by simp) (hone (hid id))
  | deleteEntry id =>
      exact fitsInMemory_rendered Payload.deleted (by decide) [id.toNat] (by simp) (hone (hid id))
  | fillEntry id =>
      exact fitsInMemory_rendered Payload.fetched (by decide) [id.toNat] (by simp) (hone (hid id))
  | listEntries =>
      cases hv
      have hsize : store.list.length ≤ store.size := by
        rw [Store.list, Store.search, List.length_map]
        exact List.length_filter_le _ _
      have := store.size_le
      exact fitsInMemory_rendered Payload.listed (by decide) [store.list.length] (by simp)
        (hone (by omega))
  | clean =>
      cases hv
      have := store.size_le
      exact fitsInMemory_rendered Payload.cleaned (by decide) [store.size] (by simp)
        (hone (by omega))
  | storeString id t =>
      obtain ⟨stored, hfind, rfl, -⟩ := Store.addString_eq_ok hv
      have hcount : stored.strings.length < 2 ^ 63 := hfits.1 _ (Store.mem_of_find? hfind)
      exact fitsInMemory_rendered Payload.stringAdded (by decide) [stored.strings.length + 1]
        (by simp) (hone (by omega))
  | countStrings id =>
      obtain ⟨n, hn, hv⟩ := Except.map_eq_ok.mp hv
      cases hv
      have hcount := hfits.1.countStrings hn
      exact fitsInMemory_rendered Payload.stringsCounted (by decide) [v, id.toNat] (by simp)
        (htwo (by omega) id)
  | getStringAt id pos =>
      obtain ⟨t, ht, hv⟩ := Except.map_eq_ok.mp hv
      cases hv
      have hsize : v.FitsInMemory := hfits.getString ht
      rw [Text.FitsInMemory] at hsize
      exact fitsInMemory_rendered Payload.stringFetched (by decide)
        [pos.toNat, id.toNat, (Utf8.encode v).length] (by simp)
        (List.forall_mem_cons.mpr ⟨pos.toNat_lt,
          List.forall_mem_cons.mpr ⟨hid id, hone (by omega)⟩⟩)
  | deleteString id pos =>
      exact fitsInMemory_rendered Payload.stringDeleted (by decide) [pos.toNat, id.toNat]
        (by simp) (htwo pos.toNat_lt id)
  | listStrings id =>
      obtain ⟨ts, hts, hv⟩ := Except.map_eq_ok.mp hv
      cases hv
      rw [Store.listStrings_eq] at hts
      obtain ⟨stored, hget, rfl⟩ := Except.map_eq_ok.mp hts
      have hcount : stored.strings.length < 2 ^ 63 := hfits.1 _ (Store.get_eq_ok hget)
      exact fitsInMemory_rendered Payload.stringsListed (by decide)
        [stored.strings.length, id.toNat] (by simp) (htwo (by omega) id)

/-- Every line of a reply fits in memory. A list of texts is a case of its own, because a dot is put
in front of some of them. -/
theorem fitsInMemory_reply {op : Operation α} {store next : Store} (hfits : store.FitsInMemory)
    (hlisted : ∀ id, op.command = .listStrings id →
      ∀ row ∈ store.rows, ∀ t ∈ row.2.strings, (stuff t).FitsInMemory)
    {v : α} (hv : op.perform store = .ok (v, next)) :
    ∀ t ∈ (op.reply store v).lines, t.FitsInMemory := by
  refine List.forall_mem_cons.mpr ⟨fitsInMemory_statusLine hfits hv, ?_⟩
  have hsearch : ∀ predicate,
      ∀ t ∈ Exchange.bodyLines ((store.search predicate).map formatEntryLine), t.FitsInMemory := by
    intro predicate
    refine List.forall_mem_append.mpr ⟨fun t ht => ?_, by decide⟩
    obtain ⟨line, hline, rfl⟩ := List.mem_map.mp ht
    obtain ⟨r, hr, rfl⟩ := List.mem_map.mp hline
    rw [stuff_formatEntryLine]
    exact hfits.search hr
  cases op with
  | queryEntries predicate | openEntry predicate => exact hsearch predicate
  | listEntries => exact hsearch ∅
  | fillEntry id =>
      obtain ⟨r, hr, -⟩ := Except.map_eq_ok.mp hv
      simp only [command, Session.following, hr]
      exact List.forall_mem_singleton.mpr (hfits.fetch hr)
  | getStringAt id pos =>
      obtain ⟨t, ht, -⟩ := Except.map_eq_ok.mp hv
      simp only [command, Session.following, ht]
      exact List.forall_mem_singleton.mpr (hfits.getString ht)
  | listStrings id =>
      obtain ⟨ts, hts, -⟩ := Except.map_eq_ok.mp hv
      simp only [command, Session.following, hts]
      rw [Store.listStrings_eq] at hts
      obtain ⟨stored, hget, rfl⟩ := Except.map_eq_ok.mp hts
      refine List.forall_mem_append.mpr ⟨fun t ht => ?_, by decide⟩
      obtain ⟨u, hu, rfl⟩ := List.mem_map.mp ht
      exact hlisted id rfl _ (Store.get_eq_ok hget) u hu
  | help =>
      exact (by decide +kernel : ∀ t ∈ Exchange.bodyLines (CommandKind.all.map Session.helpLine),
        t.FitsInMemory)
  | createEntry | changeEntry | deleteEntry | clean | storeString | countStrings | deleteString =>
      exact List.forall_mem_nil _

/-! ## Whole calls -/

/-- What follows a status line is read, whatever number the line tells. -/
theorem collect_leads {ω : Type} {store next : Store} (hstore : store.IsSound) {op : Operation α}
    {v : α} (hv : op.perform store = .ok (v, next))
    (hfit : ∀ t ∈ (Session.following store op.command).sent, t.FitsInMemory) {rest : Bytes}
    {listening : Bool} {w : ω} :
    ∃ r, (op.collect (op.payload v) : Exchange ω α).Leads
        ⟨lineBytes (Session.following store op.command).sent ++ rest, listening, w⟩ r
        ⟨rest, listening, w⟩ ∧
      (op.counted v < 2 ^ 63 → r = .ok v) := by
  by_cases hcount : op.counted v < 2 ^ 63
  · exact ⟨_, collect_sent hstore hv hcount hfit, fun _ => rfl⟩
  · cases op with
    | storeString | countStrings =>
        exact ⟨_, Exchange.Leads.lift _, fun h => absurd h hcount⟩
    | _ => exact absurd (Nat.two_pow_pos 63) hcount

/-- A call of a client whose peer answers as a session does, and remembers of the store what `after`
tells. Unless the client finds fault with its own arguments, the reply is read whole. It is a
refusal, or it tells what the store answers. -/
theorem call_answered {ω : Type} {p : Peer ω} {s : Session} {store : Store}
    (hstore : store.IsSound) (hfits : store.FitsInMemory) {op : Operation α}
    (hlisted : ∀ id, op.command = .listStrings id →
      ∀ row ∈ store.rows, ∀ t ∈ row.2.strings, (stuff t).FitsInMemory)
    {w : ω} (after : Store → ω)
    (hanswer : op.command.AllTexts IsEncodable → ∀ target, p.answer target op.command.encode w =
      ((lineBytes (s.respond op.command.encode store).1.reply.lines,
        !(s.respond op.command.encode store).1.close),
        after (s.respond op.command.encode store).2)) :
    (∃ e, op.check = .error e ∧ (op.call p).Leads ⟨[], true, w⟩ (.error e) ⟨[], true, w⟩) ∨
      (∃ e payload, s.respond op.command.encode store = (.goOn (.err payload), store) ∧
        (op.call p).Leads ⟨[], true, w⟩ (.error e) ⟨[], true, after store⟩) ∨
      ∃ v next r, op.check = .ok () ∧ op.perform store = .ok (v, next) ∧
        s.respond op.command.encode store = (.goOn (op.reply store v), next) ∧
        (op.call p).Leads ⟨[], true, w⟩ r ⟨[], true, after next⟩ ∧
        (op.counted v < 2 ^ 63 → r = .ok v) := by
  cases hcheck : op.check with
  | error e =>
      left
      refine ⟨e, rfl, ?_⟩
      rw [call_eq, hcheck]
      exact (Exchange.Leads.lift (.error e)).bind_error
  | ok u =>
      right
      have hsent := check_eq_ok.mp hcheck
      have hanswer := hanswer hsent
      rcases respond_sent s hsent store with
        ⟨payload, hrespond, hpayload⟩ | ⟨v, next, hv, hrespond⟩
      · left
        have hfit : (Status.err payload).line.FitsInMemory := by
          have hshort := Session.length_refusal_lt hrespond
          have hmark : Status.errMark.length = 4 := rfl
          refine Text.fitsInMemory_of_length ?_
          rw [Status.line, List.length_append, List.length_cons]
          omega
        rw [hrespond] at hanswer
        have hask := Exchange.Leads.request_answered hanswer ⟨isOneLine_err hpayload, hfit⟩
        rw [Exchange.judge_err] at hask
        exact ⟨_, payload, hrespond, call_leads_error hcheck hask⟩
      · right
        obtain ⟨hstatus, hfollowing⟩ :=
          List.forall_mem_cons.mp (fitsInMemory_reply hfits hlisted hv)
        rw [hrespond] at hanswer
        have hask := Exchange.Leads.request_answered hanswer ⟨op.isOneLine_statusLine v, hstatus⟩
        rw [Exchange.judge_ok] at hask
        obtain ⟨r, hcollect, hr⟩ := @collect_leads α ω store next hstore op v hv hfollowing []
          true (after next)
        rw [List.append_nil] at hcollect
        exact ⟨v, next, r, rfl, hv, hrespond, call_leads hcheck hask hcollect, hr⟩

end Operation

end ToolRegistry
