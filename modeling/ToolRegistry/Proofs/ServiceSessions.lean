import ToolRegistry.Proofs.Conversations

/-!
# Which connection a call gets, and what is left of it

A service may be told to keep a connection. If it keeps none, a call opens one
for itself and ends it with a request to quit, however the call has gone. A
connection on which the greeting is refused is closed with nothing sent on it.
If a connection is kept, the call is on that one, and it stays unless the result
tells that it is broken.

Nothing is assumed of the peer. It may greet or not, answer what it likes and
stop in the middle, so what has been sent on a connection is told in terms of
what has been heard on it (`Plan.asked`). Two things are left to see, and a step
of a script has both of them (`Follows`). Every connection that the peer accepts
is a link of the service, open or closed, so none is opened on the side. And a
closed one stays as it is through every script, for no step has access to
anything but the kept connection and the one that it opens (`follows_after`).
-/

namespace ToolRegistry

open Wire

variable {ω α : Type} {p : Peer ω}

theorem Command.kind_eq_of_encode_eq {c c' : Command} (h : c.encode = c'.encode) :
    c.kind = c'.kind := by
  have hname : c.kind.name = c'.kind.name := by
    have hword := congrArg (fun t => (splitToken t).1) h
    simpa only [splitToken_encode] using hword
  have hfound := congrArg CommandKind.ofToken? hname
  rw [CommandKind.ofToken?_name, CommandKind.ofToken?_name] at hfound
  exact Option.some.inj hfound

/-- A connection that is closed after a plan has been asked to quit once. -/
theorem Plan.count_quit (x : Plan α) (p : Peer ω) (l : Link) (w : ω) :
    ((x.asked p l w).map Command.encode ++ [Command.quit.encode]).count Command.quit.encode = 1 := by
  have hnone : Command.quit.encode ∉ (x.asked p l w).map Command.encode := by
    intro hmem
    obtain ⟨c, hc, hquit⟩ := List.mem_map.mp hmem
    exact (x.asked_sound l w c hc).2 (Command.kind_eq_of_encode_eq hquit)
  rw [List.count_append, List.count_eq_zero.mpr hnone, List.count_singleton_self]

/-! ## Opening -/

theorem dialAgain_cases (p : Peer ω) (target : Location) (more : Nat) (w : ω) :
    (∃ bytes w', dialAgain p target more w = (.ok bytes, w') ∧ p.Accepts 1 w w') ∨
      ∃ e w', dialAgain p target more w = (.error e, w') ∧ p.Accepts 0 w w' := by
  induction more generalizing w with
  | zero =>
      rcases hdial : p.dial target w with ⟨e | bytes, w'⟩
      · exact .inr ⟨e, w', by rw [dialAgain, hdial], (Peer.Accepts.still w).refused hdial⟩
      · exact .inl ⟨bytes, w', by rw [dialAgain, hdial], (Peer.Accepts.still w).accepted hdial⟩
  | succ more ih =>
      rcases hdial : p.dial target w with ⟨e | bytes, w'⟩
      · have hrefused := (Peer.Accepts.still w).refused hdial
        simp only [dialAgain, hdial]
        rcases ih w' with ⟨bytes, w'', hagain, haccepts⟩ | ⟨e', w'', hagain, haccepts⟩
        · exact .inl ⟨bytes, w'', hagain, hrefused.trans haccepts⟩
        · exact .inr ⟨e', w'', hagain, hrefused.trans haccepts⟩
      · simp only [dialAgain, hdial]
        exact .inl ⟨bytes, w', rfl, (Peer.Accepts.still w).accepted hdial⟩

theorem dial_cases (p : Peer ω) (target : Location) (attempts : Nat) (w : ω) :
    (∃ l w', dial p target attempts w = (.ok l, w') ∧ l.sentLines = [] ∧ p.Accepts 1 w w') ∨
      ∃ cause w', dial p target attempts w = (.error (.connection target cause), w') ∧
        p.Accepts 0 w w' := by
  rw [dial]
  rcases dialAgain_cases p target (attempts - 1) w with ⟨bytes, w', h, haccepts⟩ |
    ⟨e, w', h, haccepts⟩
  · simp only [h]
    exact .inl ⟨_, w', rfl, rfl, haccepts⟩
  · simp only [h]
    exact .inr ⟨e, w', rfl, haccepts⟩

theorem Client.sentLines_greet (l : Link) : (Client.greet l).2.sentLines = l.sentLines := by
  rw [← l.sentLines_receive, greet]
  rcases l.receive with ⟨e | line, l'⟩
  · rfl
  · simp only
    split <;> rfl

theorem Exchange.Sends.perform {x : Exchange ω α} {c : Client} {w : ω} {lines : List Text}
    (h : x.Sends p c.link w lines) :
    ∃ l' w', c.perform x w = ((x.carryOut c.link w).1, { c with link := l' }, w') ∧
      l'.sentLines = c.link.sentLines ++ lines ∧ p.Accepts 0 w w' := by
  obtain ⟨r, l', w', hrun, hsent, hpeer⟩ := h
  exact ⟨l', w', by rw [Client.perform, hrun], hsent, hpeer⟩

namespace Service

variable {s : Service} {w : ω}

/-! ## One call -/

/-- A call for which no connection is kept. The peer cannot be reached, or it accepts one
connection, which is closed in the end. -/
theorem call_alone (hs : s.client = none) (x : Plan α) (p : Peer ω) (w : ω) :
    (∃ cause w', s.call p (x.exchange p) w = (.error (.connection s.location cause), s, w') ∧
      p.Accepts 0 w w') ∨
    ∃ greeting w₁ r l w', dial p s.location s.attempts w = (.ok greeting, w₁) ∧
      s.call p (x.exchange p) w = (r, s.forget l, w') ∧ p.Accepts 1 w w' ∧
      (∀ e l₁, Client.greet greeting = (.error e, l₁) → r = .error e ∧ l.sentLines = []) ∧
      ∀ welcome l₁, Client.greet greeting = (.ok welcome, l₁) →
        r = ((x.exchange p).carryOut l₁ w₁).1 ∧
          l.sentLines = (x.asked p l₁ w₁).map Command.encode ++ [Command.quit.encode] := by
  rw [call, hs]
  simp only [openClient]
  rcases dial_cases p s.location s.attempts w with ⟨greeting, w₁, hdial, hfresh, haccepts⟩ |
    ⟨cause, w', hdial, haccepts⟩
  · right
    simp only [hdial]
    -- Nothing has been sent on a connection when its greeting is read.
    have hsent := Client.sentLines_greet greeting
    rw [hfresh] at hsent
    rcases hgreet : Client.greet greeting with ⟨e | welcome, l₁⟩
    · rw [hgreet] at hsent
      refine ⟨greeting, w₁, .error e, l₁, w₁, rfl, rfl, haccepts, fun e' l' h => ?_,
        fun welcome l' h => ?_⟩
      · cases hgreet.symm.trans h
        exact ⟨rfl, hsent⟩
      · cases hgreet.symm.trans h
    · rw [hgreet] at hsent
      obtain ⟨l₂, w₂, hperform, hasked, hanswered⟩ :=
        (x.sends (p := p) l₁ w₁).perform (c := ⟨l₁, welcome⟩)
      -- Whatever the result is, it is kept until the connection is closed and returned after that.
      obtain ⟨l₃, w', hclose, hquit, hclosed⟩ :=
        (Exchange.sends_close p l₂ w₂).perform (c := ⟨l₂, welcome⟩)
      refine ⟨greeting, w₁, ((x.exchange p).carryOut l₁ w₁).1, l₃, w', rfl,
        by simp only [hperform, hclose], (haccepts.trans hanswered).trans hclosed, fun e' l' h => ?_, fun welcome' l' h => ?_⟩
      · cases hgreet.symm.trans h
      · cases hgreet.symm.trans h
        refine ⟨rfl, ?_⟩
        have hnothing : l₁.sentLines = [] := hsent
        rw [hquit, hasked, hnothing, List.nil_append]
  · left
    simp only [hdial]
    exact ⟨cause, w', rfl, haccepts⟩

/-- A call on the connection that is kept. -/
theorem call_kept {c : Client} (hs : s.client = some c) (x : Plan α) (p : Peer ω) (w : ω) :
    ∃ r l w', r = ((x.exchange p).carryOut c.link w).1 ∧
      s.call p (x.exchange p) w =
        (r, if isBroken r then s.forget l else { s with client := some { c with link := l } }, w') ∧
      p.Accepts 0 w w' ∧
      l.sentLines = c.link.sentLines ++ (x.asked p c.link w).map Command.encode := by
  rw [call, hs]
  obtain ⟨l, w', hperform, hasked, hanswered⟩ := (x.sends (p := p) c.link w).perform
  simp only [hperform]
  exact ⟨_, l, w', rfl, rfl, hanswered, hasked⟩

/-! ## Scripts -/

/-- A step of a script, as far as the service and the peer are concerned. -/
def step (p : Peer ω) : Step → Service → ω → Service × ω
  | .connect, s, w => (s.connect p w).2
  | .disconnect, s, w => (s.disconnect p w).2
  | .call c, s, w => (s.call p (c.exchange p) w).2

/-- The service and the peer after a script. -/
def after (p : Peer ω) : List Step → Service → ω → Service × ω
  | [], s, w => (s, w)
  | a :: steps, s, w =>
      let (s, w) := s.step p a w
      after p steps s w

/-- From one moment to another the service has taken over every connection that the peer has
accepted, and it has left the closed ones alone. -/
structure Follows (p : Peer ω) (s : Service) (w : ω) (s' : Service) (w' : ω) : Prop where
  accepts : ∃ n, p.Accepts n w w' ∧ s'.links.length = s.links.length + n
  past : s.past <+: s'.past

namespace Follows

variable {s' s'' : Service} {w' w'' : ω}

theorem trans (h : Follows p s w s' w') (h' : Follows p s' w' s'' w'') :
    Follows p s w s'' w'' := by
  obtain ⟨n, haccepts, hlinks⟩ := h.accepts
  obtain ⟨n', haccepts', hlinks'⟩ := h'.accepts
  exact ⟨⟨n + n', haccepts.trans haccepts', by omega⟩, h.past.trans h'.past⟩

theorem same (h : p.Accepts 0 w w') : Follows p s w s w' := ⟨⟨0, h, rfl⟩, List.prefix_rfl⟩

/-- The kept connection is still kept. -/
theorem keep {c c' : Client} (hs : s.client = some c) (h : p.Accepts 0 w w') :
    Follows p s w { s with client := some c' } w' := by
  refine ⟨⟨0, h, ?_⟩, List.prefix_rfl⟩
  simp [links, hs]

/-- The kept connection is closed. -/
theorem close {c : Client} (hs : s.client = some c) (h : p.Accepts 0 w w') (l : Link) :
    Follows p s w (s.forget l) w' := by
  refine ⟨⟨0, h, ?_⟩, List.prefix_append _ _⟩
  simp [links, forget, hs]

/-- A connection has been opened to be kept. -/
theorem take (hs : s.client = none) (h : p.Accepts 1 w w') (c : Client) :
    Follows p s w { s with client := some c } w' := by
  refine ⟨⟨1, h, ?_⟩, List.prefix_rfl⟩
  simp [links, hs]

/-- A connection has been opened and closed. -/
theorem pass (hs : s.client = none) (h : p.Accepts 1 w w') (l : Link) :
    Follows p s w (s.forget l) w' := by
  refine ⟨⟨1, h, ?_⟩, List.prefix_append _ _⟩
  simp [links, forget, hs]

end Follows

theorem follows_connect (p : Peer ω) (s : Service) (w : ω) :
    Follows p s w (s.connect p w).2.1 (s.connect p w).2.2 := by
  rw [connect]
  cases hs : s.client with
  | some c =>
      simp only [isConnected, hs, Option.isSome_some, if_true]
      exact .same (.still w)
  | none =>
      simp only [isConnected, hs, Option.isSome_none, Bool.false_eq_true, if_false, openClient]
      rcases dial_cases p s.location s.attempts w with ⟨greeting, w₁, hdial, -, haccepts⟩ |
        ⟨cause, w', hdial, haccepts⟩
      · simp only [hdial]
        rcases Client.greet greeting with ⟨e | welcome, l⟩
        · exact .pass hs haccepts l
        · exact .take hs haccepts ⟨l, welcome⟩
      · simp only [hdial]
        exact .same haccepts

theorem follows_disconnect (p : Peer ω) (s : Service) (w : ω) :
    Follows p s w (s.disconnect p w).2.1 (s.disconnect p w).2.2 := by
  rw [disconnect]
  cases hs : s.client with
  | none => exact .same (.still w)
  | some c =>
      obtain ⟨l, w', hclose, -, hanswered⟩ := (Exchange.sends_close p c.link w).perform
      simp only [hclose]
      exact .close hs hanswered l

theorem follows_call (p : Peer ω) (x : Plan α) (s : Service) (w : ω) :
    Follows p s w (s.call p (x.exchange p) w).2.1 (s.call p (x.exchange p) w).2.2 := by
  cases hs : s.client with
  | none =>
      rcases call_alone hs x p w with ⟨cause, w', hcall, haccepts⟩ |
        ⟨greeting, w₁, r, l, w', -, hcall, haccepts, -⟩
      · rw [hcall]
        exact .same haccepts
      · rw [hcall]
        exact .pass hs haccepts l
  | some c =>
      obtain ⟨r, l, w', -, hcall, hanswered, -⟩ := call_kept hs x p w
      rw [hcall]
      show Follows p s w (if isBroken r then _ else _) w'
      split
      · exact .close hs hanswered l
      · exact .keep hs hanswered

theorem follows_step (p : Peer ω) (a : Step) (s : Service) (w : ω) :
    Follows p s w (s.step p a w).1 (s.step p a w).2 := by
  cases a with
  | connect => exact follows_connect p s w
  | disconnect => exact follows_disconnect p s w
  | call c =>
      rw [step, c.exchange_eq]
      exact follows_call p c.plan s w

theorem follows_after (p : Peer ω) (steps : List Step) (s : Service) (w : ω) :
    Follows p s w (after p steps s w).1 (after p steps s w).2 := by
  induction steps generalizing s w with
  | nil => exact .same (.still w)
  | cons a steps ih => exact (follows_step p a s w).trans (ih _ _)

/-! ## A call in a script -/

/-- After any script and against any peer, a call without a kept connection opens one, if the peer
can be reached, and keeps none. It sends nothing if the greeting is refused, and otherwise what its
plan asks for and then one request to quit. A call with a kept connection opens none, sends what its
plan asks for, and gives the connection up if the result tells that it is broken. All connections
that the peer accepts are links of the service, and no later script touches those that are closed. -/
theorem call_sessions {script : List Step} {s₀ s s' : Service} {w₀ w w' : ω}
    (hscript : after p script s₀ w₀ = (s, w)) {c : Call} {r : Except RegistryError Answer}
    (hcall : s.call p (c.exchange p) w = (r, s', w')) :
    Follows p s₀ w₀ s w ∧ Follows p s w s' w' ∧
    (∀ later, Follows p s' w' (after p later s' w').1 (after p later s' w').2) ∧
    (s.isConnected = false → s'.isConnected = false ∧
      ((∃ cause, r = .error (.connection s.location cause) ∧ s' = s ∧ p.Accepts 0 w w') ∨
        ∃ greeting w₁ l, dial p s.location s.attempts w = (.ok greeting, w₁) ∧
          s' = s.forget l ∧ p.Accepts 1 w w' ∧
          (∀ e l₁, Client.greet greeting = (.error e, l₁) → r = .error e ∧ l.sentLines = []) ∧
          ∀ welcome l₁, Client.greet greeting = (.ok welcome, l₁) →
            r = ((c.exchange p).carryOut l₁ w₁).1 ∧
            l.sentLines = (c.plan.asked p l₁ w₁).map Command.encode ++ [Command.quit.encode] ∧
            l.sentLines.count Command.quit.encode = 1)) ∧
    ∀ kept, s.client = some kept →
      p.Accepts 0 w w' ∧ r = ((c.exchange p).carryOut kept.link w).1 ∧
      s'.isConnected = !isBroken r ∧
      ∃ l, l.sentLines = kept.link.sentLines ++ (c.plan.asked p kept.link w).map Command.encode ∧
        s' = if isBroken r then s.forget l else { s with client := some { kept with link := l } } := by
  have hbefore := follows_after p script s₀ w₀
  rw [hscript] at hbefore
  rw [c.exchange_eq] at hcall
  have hnow := follows_call p c.plan s w
  rw [hcall] at hnow
  refine ⟨hbefore, hnow, fun later => follows_after p later s' w', fun hnone => ?_,
    fun kept hkept => ?_⟩
  · have hs : s.client = none := Option.not_isSome_iff_eq_none.mp (Bool.eq_false_iff.mp hnone)
    rcases call_alone hs c.plan p w with ⟨cause, w'', hcall', haccepts⟩ |
      ⟨greeting, w₁, r', l, w'', hdial, hcall', haccepts, hrefused, hgreeted⟩
    · cases hcall.symm.trans hcall'
      exact ⟨hnone, .inl ⟨cause, rfl, rfl, haccepts⟩⟩
    · cases hcall.symm.trans hcall'
      refine ⟨rfl, .inr ⟨greeting, w₁, l, hdial, rfl, haccepts, hrefused, fun welcome l₁ h => ?_⟩⟩
      obtain ⟨hr, hsent⟩ := hgreeted welcome l₁ h
      rw [c.exchange_eq]
      exact ⟨hr, hsent, by rw [hsent]; exact c.plan.count_quit p l₁ w₁⟩
  · obtain ⟨r', l, w'', hr, hcall', hanswered, hsent⟩ := call_kept hkept c.plan p w
    cases hcall.symm.trans hcall'
    rw [c.exchange_eq]
    refine ⟨hanswered, hr, ?_, l, hsent, rfl⟩
    cases isBroken r <;> rfl

/-- The peer ends the connection that is kept in the middle of an entry with two texts. The next call
has one of its own, and since its text cannot be sent, there is nothing to say on it but to quit. -/
theorem call_sessions_cut :
    let e : EntryFields :=
      { app := "a", site := "b", mach := "c", node := "d", port := 1, pid := 2, comp := "e",
        tag := "f" }
    let shown := formatEntryLine ⟨1, e⟩
    let p : Peer (List Bytes) := .scripted
    let s₀ : Service := { location := ⟨"here", 7⟩, attempts := 1 }
    let told : List Text := ["+OK", shown, "+OK 2 strings stored for entry 1", "+OK", "x"]
    let greeting : List Text := ["+OK"]
    let kept : Client :=
      ⟨{ location := s₀.location, inbox := lineBytes told, events := [.received "+OK"] }, ""⟩
    let s : Service := { s₀ with client := some kept }
    let l : Link := {
      location := s₀.location
      inbox := []
      events := [.received "+OK", .sent "SHOW 1", .received "+OK", .received shown,
        .sent "COUNTSTR 1", .received "+OK 2 strings stored for entry 1", .sent "GETSTR 1 1",
        .received "+OK", .received "x", .sent "GETSTR 1 2", .ended] }
    let l' : Link := {
      location := s₀.location
      inbox := []
      events := [.received "+OK", .sent "QUIT", .ended] }
    let get : Call := .getEntry 1 true
    let add : Call := .addString 1 "\""
    let asked : List Command := [.fetch 1, .countStrings 1, .getString 1 1, .getString 1 2]
    let w : List Bytes := [lineBytes greeting]
    after p [.connect] s₀ (lineBytes (greeting ++ told) :: w) = (s, w) ∧
      s.call p (get.exchange p) w = (.error .disconnected, s.forget l, w) ∧
      (s.forget l).isConnected = !isBroken (.error .disconnected : Except RegistryError Answer) ∧
      get.plan.asked p kept.link w = asked ∧
      l.sentLines = kept.link.sentLines ++ asked.map Command.encode ∧
      after p [.connect, .call get] s₀ (lineBytes (greeting ++ told) :: w) = (s.forget l, w) ∧
      (s.forget l).call p (add.exchange p) w =
        (.error (.badFormat (.unencodable "string")), (s.forget l).forget l', []) ∧
      l'.sentLines.count Command.quit.encode = 1 ∧
      ∀ later, Follows p ((s.forget l).forget l') [] (after p later ((s.forget l).forget l') []).1
        (after p later ((s.forget l).forget l') []).2 := by
  intro e shown p s₀ told greeting kept s l l' get add asked w
  have hconnect : after p [.connect] s₀ (lineBytes (greeting ++ told) :: w) = (s, w) := by
    decide +kernel
  have hget : s.call p (get.exchange p) w = (.error .disconnected, s.forget l, w) := by
    decide +kernel
  have hafter : after p [.connect, .call get] s₀ (lineBytes (greeting ++ told) :: w) =
      (s.forget l, w) := by
    decide +kernel
  have hadd : (s.forget l).call p (add.exchange p) w =
      (.error (.badFormat (.unencodable "string")), (s.forget l).forget l', []) := by
    decide +kernel
  have hlink : ∀ {t : Service} {l₁ l₂ : Link}, t.forget l₁ = t.forget l₂ → l₁ = l₂ := by
    intro t l₁ l₂ h
    exact List.singleton_inj.mp (List.append_cancel_left (congrArg Service.past h))
  obtain ⟨-, -, -, -, hkept⟩ := call_sessions hconnect hget
  obtain ⟨-, -, hlost, l₁, hsent, hforget⟩ := hkept kept rfl
  have hasked : get.plan.asked p kept.link w = asked := by decide +kernel
  rw [hasked] at hsent
  have hbroken : isBroken (.error .disconnected : Except RegistryError Answer) = true := rfl
  rw [if_pos hbroken] at hforget
  cases hlink hforget
  -- No connection is kept any more, so the next call has to dial.
  obtain ⟨-, -, hlater, halone, -⟩ := call_sessions hafter hadd
  obtain ⟨-, ⟨cause, hr, -⟩ | ⟨first, w₁, l₂, hdial, hforget', -, -, hgreeted⟩⟩ := halone rfl
  · cases hr
  cases hlink hforget'
  have hfirst : dial p s₀.location s₀.attempts w =
      (.ok { location := s₀.location, inbox := lineBytes greeting }, []) := by
    decide +kernel
  cases hfirst.symm.trans hdial
  have hgreet : Client.greet { location := s₀.location, inbox := lineBytes greeting } =
      (.ok "", { location := s₀.location, inbox := [], events := [.received "+OK"] }) := by
    decide +kernel
  obtain ⟨-, -, hquit⟩ := hgreeted _ _ hgreet
  exact ⟨hconnect, hget, hlost, hasked, hsent, hafter, hadd, hquit, hlater⟩

end Service

end ToolRegistry
