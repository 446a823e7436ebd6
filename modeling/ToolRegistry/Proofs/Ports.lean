import Mathlib.Order.WellFounded
import ToolRegistry.Listen

/-!
# Which ports are tried

A server that is refused its port goes up, by steps that are not known
beforehand. Whatever they are, the ports it tries go up, their number is
bounded by the retries, and no port number wraps around at the end of the
range: a step that leads past it ends the search. What is found is the first
of the tried ports that is free, and if nothing is found there is a reason for
it, which is the last retry or the end of the range.

The search is told by a relation with one constructor for each way a trial can
turn out (`Climb`). Each of these statements is an induction on it, and where
only steps of one are allowed there is a stronger one: no port is left out, so
the search finds the least free port that is within its reach.

Nothing is assumed about why a port is refused. It may be taken, or there may be
no address for the host. If there is one, the ports that are refused are those
that are taken.

There is no difference between port 0 and any other port for the loop itself
(`search`). Only its guard keeps it from asking twice for any free port.
-/

namespace ToolRegistry.Listen

variable {α : Type} {ask : UInt16 → Except SystemError α} {steps : Nat → Nat} {left : Nat}
  {port q : UInt16} {ports : List UInt16} {answer : Except SystemError α} {a : α}

/-! ## Steps -/

/-- Steps up to the greatest one are all that can be chosen. -/
theorem exists_step_eq {maxStep : UInt16} {n : Nat} (hn : 1 ≤ n) (hbound : n ≤ stepBound maxStep) :
    ∃ choice, step maxStep choice = n := by
  refine ⟨n - 1, ?_⟩
  rw [step, Nat.mod_eq_of_lt (by omega)]
  omega

theorem step_eq_one {maxStep : UInt16} (h : maxStep ≤ 1) (choice : Nat) :
    step maxStep choice = 1 := by
  have hbound : stepBound maxStep = 1 := by
    have hmax : maxStep.toNat ≤ 1 := UInt16.le_iff_toNat_le.mp h
    rw [stepBound]
    omega
  rw [step, hbound, Nat.mod_one]

/-- How far the first steps lead. The steps are numbered by the retries that are left. -/
def rise (steps : Nat → Nat) : Nat → Nat → Nat
  | _, 0 => 0
  | left, count + 1 => steps (left - 1) + rise steps (left - 1) count

theorem rise_le {bound : Nat} (hsteps : ∀ i, steps i ≤ bound) (left count : Nat) :
    rise steps left count ≤ count * bound := by
  induction count generalizing left with
  | zero => exact Nat.zero_le _
  | succ count ih =>
      rw [rise, Nat.succ_mul, Nat.add_comm]
      exact Nat.add_le_add (ih _) (hsteps _)

/-! ## Trials -/

/-- Whether a port is granted to a server that asks for it. -/
def granted (ask : UInt16 → Except SystemError α) (port : UInt16) : Bool := (ask port).isOk

theorem granted_of_ok (h : ask port = .ok a) : granted ask port = true := by
  rw [granted, h]
  rfl

theorem not_granted {e : SystemError} (h : ask port = .error e) : granted ask port = false := by
  rw [granted, h]
  rfl

/-- How trials go that start at a port: the ports that are asked for and the last answer. -/
inductive Climb {α : Type} (ask : UInt16 → Except SystemError α) (steps : Nat → Nat) :
    Nat → UInt16 → List UInt16 → Except SystemError α → Prop
  | given {left : Nat} {port : UInt16} {a : α} (h : ask port = .ok a) :
      Climb ask steps left port [port] (.ok a)
  | spent {port : UInt16} {e : SystemError} (h : ask port = .error e) :
      Climb ask steps 0 port [port] (.error e)
  | past {left : Nat} {port : UInt16} {e : SystemError} (h : ask port = .error e)
      (hpast : 65535 < port.toNat + steps left) :
      Climb ask steps (left + 1) port [port] (.error e)
  | higher {left : Nat} {port next : UInt16} {ports : List UInt16} {e : SystemError}
      {answer : Except SystemError α} (h : ask port = .error e)
      (hnext : next.toNat = port.toNat + steps left)
      (hrest : Climb ask steps left next ports answer) :
      Climb ask steps (left + 1) port (port :: ports) answer

theorem above?_cases (port : UInt16) (n : Nat) :
    (above? port n = none ∧ 65535 < port.toNat + n) ∨
      ∃ next, above? port n = some next ∧ next.toNat = port.toNat + n := by
  simp only [above?]
  split
  · next hlt => exact .inr ⟨_, rfl, UInt16.toNat_ofNat_of_lt hlt⟩
  · exact .inl ⟨rfl, by omega⟩

/-- A server that asks for a port of its own climbs. -/
theorem climb (ask : UInt16 → Except SystemError α) (steps : Nat → Nat) (left : Nat)
    {port : UInt16} (hport : port ≠ 0) :
    Climb ask steps left port (search ask steps left port).1 (search ask steps left port).2 := by
  induction left generalizing port with
  | zero =>
      rw [search]
      cases h : ask port with
      | ok a => exact .given h
      | error e => exact .spent h
  | succ left ih =>
      rw [search]
      cases h : ask port with
      | ok a => exact .given h
      | error e =>
          simp only [if_neg hport]
          rcases above?_cases port (steps left) with ⟨habove, hpast⟩ | ⟨next, habove, hnext⟩
          · rw [habove]
            exact .past h hpast
          · have hne : next ≠ 0 := by
              intro hzero
              rw [hzero, UInt16.toNat_zero] at hnext
              exact hport (UInt16.toNat_inj.mp (show port.toNat = 0 by omega))
            rw [habove]
            exact .higher h hnext (ih hne)

/-- Whoever asks for any port does so once, whatever the answer. -/
theorem search_zero (ask : UInt16 → Except SystemError α) (steps : Nat → Nat) (left : Nat) :
    search ask steps left 0 = ([0], ask 0) := by
  cases left with
  | zero => rw [search]
  | succ left =>
      rw [search]
      cases ask 0 <;> rfl

namespace Climb

theorem head? (h : Climb ask steps left port ports answer) : ports.head? = some port := by
  cases h <;> rfl

theorem length_le (h : Climb ask steps left port ports answer) : ports.length ≤ left + 1 := by
  induction h with
  | given | spent | past => simp
  | higher _ _ _ ih =>
      rw [List.length_cons]
      omega

/-- Each port is as far above the first as the steps say, so none has wrapped around. -/
theorem toNat_eq (h : Climb ask steps left port ports answer) {i : Nat}
    (hi : ports[i]? = some q) : q.toNat = port.toNat + rise steps left i := by
  induction h generalizing i with
  | given | spent | past =>
      cases i with
      | zero =>
          cases hi
          rfl
      | succ i => cases hi
  | higher _ hnext _ ih =>
      cases i with
      | zero =>
          cases hi
          rfl
      | succ i =>
          rw [List.getElem?_cons_succ] at hi
          rw [ih hi, hnext, rise, Nat.add_sub_cancel, Nat.add_assoc]

theorem le_of_mem (h : Climb ask steps left port ports answer) (hq : q ∈ ports) :
    port.toNat ≤ q.toNat := by
  obtain ⟨i, hi⟩ := List.getElem?_of_mem hq
  rw [h.toNat_eq hi]
  exact Nat.le_add_right _ _

theorem pairwise (h : Climb ask steps left port ports answer) (hsteps : ∀ i, 1 ≤ steps i) :
    ports.Pairwise (· < ·) := by
  induction h with
  | given | spent | past => exact List.pairwise_singleton _ _
  | @higher left port next _ _ _ _ hnext hrest ih =>
      refine List.pairwise_cons.mpr ⟨fun q hq => ?_, ih⟩
      have hle := hrest.le_of_mem hq
      have hone := hsteps left
      exact UInt16.lt_iff_toNat_lt.mpr (by omega)

/-- The answer is the one to the last request, and only that one may be granted. -/
theorem find?_cases (h : Climb ask steps left port ports answer) :
    ∃ last, ports.getLast? = some last ∧ answer = ask last ∧
      ports.find? (granted ask) = if granted ask last then some last else none := by
  induction h with
  | @given _ port _ h =>
      have hport := granted_of_ok h
      exact ⟨port, rfl, h.symm, by rw [List.find?_cons_of_pos hport, if_pos hport]⟩
  | @spent port _ h | @past _ port _ h =>
      have hport := Bool.not_eq_true _ ▸ not_granted h
      exact ⟨port, rfl, h.symm, by rw [List.find?_cons_of_neg hport, if_neg hport, List.find?_nil]⟩
  | higher h _ _ ih =>
      obtain ⟨last, hlast, hanswer, hfind⟩ := ih
      have hport := Bool.not_eq_true _ ▸ not_granted h
      refine ⟨last, ?_, hanswer, by rw [List.find?_cons_of_neg hport, hfind]⟩
      rw [List.getLast?_cons, hlast, Option.getD_some]

theorem find?_of_ok (h : Climb ask steps left port ports answer) (ha : answer = .ok a) :
    ∃ last, ports.getLast? = some last ∧ ask last = .ok a ∧
      ports.find? (granted ask) = some last := by
  obtain ⟨last, hlast, hanswer, hfind⟩ := h.find?_cases
  have hask : ask last = .ok a := hanswer ▸ ha
  exact ⟨last, hlast, hask, by rw [hfind, if_pos (granted_of_ok hask)]⟩

theorem find?_of_error (h : Climb ask steps left port ports answer) {e : SystemError}
    (he : answer = .error e) :
    ∃ last, ports.getLast? = some last ∧ ask last = .error e ∧
      ports.find? (granted ask) = none := by
  obtain ⟨last, hlast, hanswer, hfind⟩ := h.find?_cases
  have hask : ask last = .error e := hanswer ▸ he
  exact ⟨last, hlast, hask, by rw [hfind, not_granted hask, if_neg Bool.false_ne_true]⟩

/-- If nothing is found, the retries have been used up or the next port is past the last. -/
theorem ended (h : Climb ask steps left port ports answer) {e : SystemError}
    (he : answer = .error e) :
    ports.length = left + 1 ∨
      ∃ last, ports.getLast? = some last ∧ ports.length ≤ left ∧
        65535 < last.toNat + steps (left - ports.length) := by
  induction h with
  | given => cases he
  | spent => exact .inl rfl
  | past _ hpast => exact .inr ⟨_, rfl, Nat.succ_le_succ (Nat.zero_le _), hpast⟩
  | higher _ _ _ ih =>
      rcases ih he with hlen | ⟨last, hlast, hlen, hpast⟩
      · left
        rw [List.length_cons, hlen]
      · right
        refine ⟨last, ?_, Nat.succ_le_succ hlen, ?_⟩
        · rw [List.getLast?_cons, hlast, Option.getD_some]
        · rwa [List.length_cons, Nat.add_sub_add_right]

theorem le_reach (h : Climb ask steps left port ports answer) {bound : Nat}
    (hsteps : ∀ i, steps i ≤ bound) (hq : q ∈ ports) : q.toNat ≤ port.toNat + left * bound := by
  obtain ⟨i, hi⟩ := List.getElem?_of_mem hq
  obtain ⟨hlt, -⟩ := List.getElem?_eq_some_iff.mp hi
  have hlen := h.length_le
  calc q.toNat = port.toNat + rise steps left i := h.toNat_eq hi
    _ ≤ port.toNat + i * bound := Nat.add_le_add_left (rise_le hsteps left i) _
    _ ≤ port.toNat + left * bound := Nat.add_le_add_left (Nat.mul_le_mul_right _ (by omega)) _

/-- With steps of one no port is left out. -/
theorem find?_iff (h : Climb ask steps left port ports answer) (hsteps : ∀ i, steps i = 1) :
    ports.find? (granted ask) = some q ↔
      (granted ask q = true ∧ port ≤ q ∧ q.toNat ≤ port.toNat + left) ∧
        ∀ lower, port ≤ lower → lower < q → granted ask lower = false := by
  simp only [UInt16.le_iff_toNat_le, UInt16.lt_iff_toNat_lt]
  induction h with
  | @given left port _ h =>
      have h := granted_of_ok h
      rw [List.find?_cons_of_pos h, Option.some.injEq]
      constructor
      · rintro rfl
        exact ⟨⟨h, Nat.le_refl _, Nat.le_add_right _ _⟩, fun _ _ _ => by omega⟩
      · rintro ⟨⟨-, hle, -⟩, hlower⟩
        rcases Nat.eq_or_lt_of_le hle with he | hlt
        · exact UInt16.toNat_inj.mp he
        · rw [hlower port (Nat.le_refl _) hlt] at h
          cases h
  | @spent port _ h =>
      have h := not_granted h
      rw [List.find?_cons_of_neg (by rw [h]; decide)]
      refine ⟨fun hq => (by cases hq), ?_⟩
      rintro ⟨⟨hq, hle, hreach⟩, -⟩
      rw [← UInt16.toNat_inj.mp (Nat.le_antisymm hle hreach), h] at hq
      cases hq
  | @past left port _ h hpast =>
      have h := not_granted h
      rw [List.find?_cons_of_neg (by rw [h]; decide)]
      refine ⟨fun hq => (by cases hq), ?_⟩
      rintro ⟨⟨hq, hle, -⟩, -⟩
      rw [hsteps left] at hpast
      have hlt := q.toNat_lt
      rw [← UInt16.toNat_inj.mp (show port.toNat = q.toNat by omega), h] at hq
      cases hq
  | @higher left port next ports _ answer h hnext _ ih =>
      have h := not_granted h
      rw [hsteps left] at hnext
      rw [List.find?_cons_of_neg (by rw [h]; decide), ih]
      constructor
      · rintro ⟨⟨hq, hle, hreach⟩, hlower⟩
        refine ⟨⟨hq, by omega, by omega⟩, fun lower hport hlt => ?_⟩
        rcases Nat.eq_or_lt_of_le hport with he | hpast
        · rwa [← UInt16.toNat_inj.mp he]
        · exact hlower lower (by omega) hlt
      · rintro ⟨⟨hq, hle, hreach⟩, hlower⟩
        have hne : port.toNat ≠ q.toNat := by
          intro he
          rw [← UInt16.toNat_inj.mp he, h] at hq
          cases hq
        exact ⟨⟨hq, by omega, by omega⟩, fun lower hnext hlt => hlower lower (by omega) hlt⟩

/-- So it is found whether any port within reach is free. -/
theorem isSome_iff (h : Climb ask steps left port ports answer) (hsteps : ∀ i, steps i = 1) :
    (ports.find? (granted ask)).isSome ↔
      ∃ q, granted ask q = true ∧ port ≤ q ∧ q.toNat ≤ port.toNat + left := by
  constructor
  · intro hsome
    obtain ⟨q, hq⟩ := Option.isSome_iff_exists.mp hsome
    exact ⟨q, ((h.find?_iff hsteps).mp hq).1⟩
  · intro hex
    obtain ⟨q, hq, hleast⟩ := (measure UInt16.toNat).wf.has_min
      {q | granted ask q = true ∧ port ≤ q ∧ q.toNat ≤ port.toNat + left} hex
    refine Option.isSome_iff_exists.mpr ⟨q, (h.find?_iff hsteps).mpr ⟨hq, fun lower hle hlt => ?_⟩⟩
    rw [← Bool.not_eq_true]
    intro hfree
    have hlt := UInt16.lt_iff_toNat_lt.mp hlt
    exact hleast lower ⟨hfree, hle, Nat.le_of_lt (Nat.lt_of_lt_of_le hlt hq.2.2)⟩ hlt

end Climb

/-! ## Servers -/

/-- Where there is an address for the host, the ports that are refused are those that are taken. -/
theorem listen_of_bound {m : Machine} {host : Text} {ip : IpAddress}
    (hbound : m.resolver.bound host q = .ok ip) (hq : q ≠ 0) :
    m.listen host q = if m.taken q then .error .addressInUse else .ok (ip, q) := by
  simp only [Machine.listen, hbound, if_neg hq]

/-- A server that is not given any port has the one that it has asked for. -/
theorem eq_of_listen {m : Machine} {host : Text} {b : IpAddress × UInt16}
    (h : m.listen host q = .ok b) (hq : q ≠ 0) : b.2 = q := by
  rw [Machine.listen] at h
  split at h
  · cases h
  · rw [if_neg hq] at h
    split at h
    · cases h
    · cases h
      rfl

/-- A server gets what its search finds. The ports that it asks for begin with the one it was told,
go up by the steps that were chosen, whatever they are, do not wrap around, and are one more than
the retries at most. It gets the first of them that is granted and asks for none behind it. If it
gets none, it has used up its retries or the next port would be past the last, and the last refusal
is the failure. With steps of one it gets the least port within reach that is granted, if there is
one. Where there is an address for the host, a port is granted if it is not taken. For any free port
a server asks once. -/
theorem bind_climbs (m : Machine) (o : ListenOptions) (choices : Nat → Nat) :
    let bound := max o.maxStep.toNat 1
    let retries := o.retries.toNat
    let steps := fun left => step o.maxStep (choices left)
    let ask := m.listen o.host
    let free := granted ask
    let ports := (search ask steps retries o.port).1
    bind m o choices = (search ask steps retries o.port).2.map (session m o) ∧
    (o.port ≠ 0 →
      ports.head? = some o.port ∧ ports.Pairwise (· < ·) ∧ ports.length ≤ retries + 1 ∧
      (∀ i q, ports[i]? = some q →
        q.toNat = o.port.toNat + rise steps retries i ∧
          o.port.toNat + rise steps retries i ≤ 65535) ∧
      (∃ last, ports.getLast? = some last ∧
        bind m o choices =
          match ports.find? free with
          | some q => (ask q).map (session m o)
          | none => (ask last).map (session m o)) ∧
      (∀ s, bind m o choices = .ok s → ports.getLast? = some s.port ∧ o.port ≤ s.port ∧
        s.port.toNat ≤ o.port.toNat + retries * bound) ∧
      (∀ e, bind m o choices = .error e → (∀ q ∈ ports, free q = false) ∧
        (ports.length = retries + 1 ∨ ∃ last, ports.getLast? = some last ∧
          ports.length ≤ retries ∧ 65535 < last.toNat + steps (retries - ports.length))) ∧
      (o.maxStep ≤ 1 →
        ((∃ s, bind m o choices = .ok s) ↔
          ∃ q, free q = true ∧ o.port ≤ q ∧ q.toNat ≤ o.port.toNat + retries) ∧
        ∀ s, bind m o choices = .ok s →
          free s.port = true ∧
            ∀ lower, o.port ≤ lower → lower < s.port → free lower = false)) ∧
    (∀ q ip, q ≠ 0 → m.resolver.bound o.host q = .ok ip →
      (free q = !m.taken q) ∧
        ask q = if m.taken q then .error .addressInUse else .ok (ip, q)) ∧
    (o.port = 0 → ∀ ask : UInt16 → Except SystemError (IpAddress × UInt16),
      search ask steps retries o.port = ([0], ask 0)) ∧
    (∀ i, 1 ≤ steps i ∧ steps i ≤ bound) ∧
    ∀ chosen : Nat → Nat, (∀ i, 1 ≤ chosen i ∧ chosen i ≤ bound) →
      ∃ choices : Nat → Nat, (fun left => step o.maxStep (choices left)) = chosen := by
  intro bound retries steps ask free ports
  have hone : ∀ i, 1 ≤ steps i := fun i => one_le_step o.maxStep (choices i)
  have hbound : ∀ i, steps i ≤ bound := fun i => step_le_bound o.maxStep (choices i)
  have hbind : bind m o choices = (search ask steps retries o.port).2.map (session m o) := rfl
  refine ⟨hbind, fun hport => ?_, fun q ip hq hip => ?_, fun hzero ask => ?_,
    fun i => ⟨hone i, hbound i⟩, fun chosen hchosen => ?_⟩
  · have hclimb : Climb ask steps retries o.port ports (search ask steps retries o.port).2 :=
      climb ask steps retries hport
    generalize (search ask steps retries o.port).2 = answer at hclimb hbind
    have hpos : ∀ q ∈ ports, q ≠ 0 := by
      intro q hq hzero
      have hle := hclimb.le_of_mem hq
      rw [hzero, UInt16.toNat_zero] at hle
      exact hport (UInt16.toNat_inj.mp (Nat.le_zero.mp hle))
    have hok : ∀ s, bind m o choices = .ok s →
        ports.getLast? = some s.port ∧ ports.find? free = some s.port := by
      intro s hs
      rw [hbind] at hs
      cases answer with
      | error e => cases hs
      | ok b =>
          cases hs
          obtain ⟨last, hlast, hask, hfind⟩ := hclimb.find?_of_ok rfl
          have hport : b.2 = last := eq_of_listen hask (hpos last (List.mem_of_getLast? hlast))
          exact ⟨by rw [hlast, ← hport]; rfl, by rw [hfind, ← hport]; rfl⟩
    have herror : ∀ e, bind m o choices = .error e → answer = .error e := by
      intro e he
      rw [hbind] at he
      cases answer with
      | error e => exact congrArg _ (Except.error.inj he)
      | ok b => cases he
    refine ⟨hclimb.head?, hclimb.pairwise hone, hclimb.length_le, fun i q hi => ?_, ?_,
      fun s hs => ?_, fun e he => ⟨fun q hq => ?_, ?_⟩, fun hstep => ⟨?_, fun s hs => ?_⟩⟩
    · have hq := hclimb.toNat_eq hi
      exact ⟨hq, hq ▸ Nat.le_of_lt_succ q.toNat_lt⟩
    · obtain ⟨last, hlast, hanswer, hfind⟩ := hclimb.find?_cases
      refine ⟨last, hlast, ?_⟩
      rw [hbind, hanswer, hfind]
      cases granted ask last <;> rfl
    · have hlast := (hok s hs).1
      have hmem := List.mem_of_getLast? hlast
      exact ⟨hlast, UInt16.le_iff_toNat_le.mpr (hclimb.le_of_mem hmem), hclimb.le_reach hbound hmem⟩
    · obtain ⟨-, -, -, hfind⟩ := hclimb.find?_of_error (herror e he)
      exact Bool.not_eq_true _ ▸ List.find?_eq_none.mp hfind q hq
    · exact hclimb.ended (herror e he)
    · rw [← hclimb.isSome_iff fun i => step_eq_one hstep (choices i)]
      constructor
      · rintro ⟨s, hs⟩
        rw [(hok s hs).2]
        rfl
      · intro hsome
        cases answer with
        | ok b => exact ⟨_, hbind⟩
        | error e =>
            obtain ⟨-, -, -, hfind⟩ := hclimb.find?_of_error rfl
            rw [hfind] at hsome
            cases hsome
    · have hleast := (hclimb.find?_iff fun i => step_eq_one hstep (choices i)).mp (hok s hs).2
      exact ⟨hleast.1.1, hleast.2⟩
  · have hask : ask q = _ := listen_of_bound hip hq
    refine ⟨?_, hask⟩
    simp only [free, granted, hask]
    cases m.taken q <;> rfl
  · rw [hzero, search_zero]
  · obtain ⟨choices, hchoices⟩ := Classical.axiomOfChoice fun i =>
      exists_step_eq (hchosen i).1 (hchosen i).2
    exact ⟨choices, funext hchoices⟩

/-- Steps of two, of four and of two lead to the last port. One more would lead past it, and there
are retries left. With steps of one the fourth port is the least free one. A port that may be any is
asked for once, even of a machine that has none. -/
theorem bind_climbs_end :
    let options (port retries maxStep : Nat) : ListenOptions :=
      ⟨"127.0.0.1", .ofNat port, none, .ofNat retries, .ofNat maxStep, 1024⟩
    let m : Machine :=
      ⟨fun port => port ≥ 65527 || (50001 ≤ port && port ≤ 50003), 0, some "node"⟩
    let choices : Nat → Nat := fun left => if left = 7 then 3 else 1
    let steps : Nat → Nat := fun left => step 4 (choices left)
    let ports : List UInt16 := [65527, 65529, 65533, 65535]
    let last := options 65527 9 4
    let least := options 50001 3 0
    let any := options 0 9 4
    (∀ q, m.resolver.bound "127.0.0.1" q = .ok (.v4 .own)) ∧
    (last.port ≠ 0 ∧ bind m last choices = .error .addressInUse ∧
      (search (m.listen last.host) steps 9 last.port).1 = ports ∧ ports.length ≠ 9 + 1 ∧
      ∃ q, ports.getLast? = some q ∧ 65535 < q.toNat + steps (9 - ports.length)) ∧
    (least.port ≠ 0 ∧ least.maxStep ≤ 1 ∧
      bind m least choices = .ok ⟨"127.0.0.1", 50004, 1024⟩ ∧
      ∀ lower, 50001 ≤ lower → lower < 50004 → m.taken lower = true) ∧
    any.port = 0 ∧ search (fun _ => (.error .addressInUse : Except _ (IpAddress × UInt16))) steps 9
      any.port = ([0], .error .addressInUse) := by
  intro options m choices steps ports last least any
  have hknown : Resolver.known? "127.0.0.1" = some (.v4 .own) := by decide +kernel
  have hhost : ∀ q, m.resolver.bound "127.0.0.1" q = .ok (.v4 .own) := by
    intro q
    simp only [m, Resolver.bound, hknown]
  have hlast : bind m last choices = .error .addressInUse := by decide +kernel
  have hports : (search (m.listen last.host) steps 9 last.port).1 = ports := by decide +kernel
  have hleast : bind m least choices = .ok ⟨"127.0.0.1", 50004, 1024⟩ := by decide +kernel
  obtain ⟨-, -, -, -, -, -, hfails, -⟩ := (bind_climbs m last choices).2.1 (by decide)
  obtain ⟨-, -, -, -, -, -, -, hone⟩ := (bind_climbs m least choices).2.1 (by decide)
  have hfree := (bind_climbs m least choices).2.2.1
  refine ⟨hhost, ⟨by decide, hlast, hports, by decide, ?_⟩,
    ⟨by decide, by decide, hleast, fun lower hle hlt => ?_⟩, rfl,
    (bind_climbs m any choices).2.2.2.1 rfl fun _ => .error .addressInUse⟩
  · have hfails := (hfails _ hlast).2
    rw [show last.retries.toNat = 9 from rfl, show last.maxStep = 4 from rfl, hports] at hfails
    rcases hfails with hlen | ⟨q, hq, -, hpast⟩
    · cases hlen
    · exact ⟨q, hq, hpast⟩
  · have hrefused := ((hone (by decide)).2 _ hleast).2 lower hle hlt
    have hne : lower ≠ 0 := by
      rintro rfl
      exact absurd hle (by decide)
    rw [(hfree lower _ hne (hhost lower)).1] at hrefused
    simpa using hrefused

end ToolRegistry.Listen
