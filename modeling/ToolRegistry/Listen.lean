import ToolRegistry.Resolver
import ToolRegistry.Session

/-!
# Listening

A server listens on a port of its own. If the port it would like is taken, it
tries higher ones: after each failure it goes up by some step, between one
and the greatest step allowed, as long as it has retries left and the port
number still fits. Random steps keep servers that start at the same time from
racing up the same ladder, so which steps are taken is not known beforehand.
Here they are given as data, one for each retry, and everything said about
listening holds for every sequence of them.

Port 0 asks for any free port. There is nothing above it to try, so it is
tried once.

What the machine answers to a request for a port is not decided here either.
The address that belongs to the host is told by the resolver, and it may be
none, whatever the port.

A server shows itself under the host it was told to advertise. Without one it
shows the address it is bound to, in the usual form of addresses, and if that
is every address of the machine, the machine's own name. A machine may have no
name, and then it is shown as it knows itself.
-/

namespace ToolRegistry

/-- How and where a server listens. -/
structure ListenOptions where
  /-- The address to bind to. -/
  host : Text
  /-- The first port to try; 0 for any free port. -/
  port : UInt16
  /-- The host to show, if it is not to be found out. -/
  advertise : Option Text
  /-- How many more ports may be tried after the first. -/
  retries : UInt32
  /-- The greatest step between two ports that are tried. -/
  maxStep : UInt16
  /-- The greatest length of a request line in bytes. -/
  limit : UInt64
deriving DecidableEq, Repr

/-- What the machine tells a server that listens. -/
structure Machine where
  /-- Whether a port is taken. -/
  taken : UInt16 → Bool
  /-- The port given to a server that asks for any. -/
  anyPort : UInt16
  /-- The machine's own name, if it has one. -/
  ownName : Option Text
  /-- How it finds out which address a host is. -/
  [resolver : Resolver]

/-- What a server gets that asks for a port: the address and the port that it is bound to. -/
def Machine.listen (m : Machine) (host : Text) (port : UInt16) :
    Except SystemError (IpAddress × UInt16) :=
  match m.resolver.bound host port with
  | .error e => .error e
  | .ok ip =>
      if port = 0 then .ok (ip, m.anyPort)
      else if m.taken port then .error .addressInUse
      else .ok (ip, port)

namespace Listen

/-! ## Steps -/

/-- The greatest step that is taken, which is at least one. -/
def stepBound (maxStep : UInt16) : Nat := max maxStep.toNat 1

/-- A choice brought between one and the greatest step. -/
def step (maxStep : UInt16) (choice : Nat) : Nat := choice % stepBound maxStep + 1

theorem one_le_step (maxStep : UInt16) (choice : Nat) : 1 ≤ step maxStep choice := by
  simp only [step]; omega

theorem step_le_bound (maxStep : UInt16) (choice : Nat) :
    step maxStep choice ≤ stepBound maxStep := by
  have h : choice % stepBound maxStep < stepBound maxStep :=
    Nat.mod_lt _ (by simp only [stepBound]; omega)
  simp only [step]; omega

/-! ## Trying ports -/

/-- The port a step above another, if there is one. -/
def above? (port : UInt16) (step : Nat) : Option UInt16 :=
  let next := port.toNat + step
  if next < 2 ^ 16 then some (UInt16.ofNat next) else none

/-- A server that asks for one port after the other until it is given one: the ports that it asks
for, in order, and the last answer. The steps are numbered by the retries that are left. -/
def search {α : Type} (ask : UInt16 → Except SystemError α) (steps : Nat → Nat) :
    Nat → UInt16 → List UInt16 × Except SystemError α
  | 0, port => ([port], ask port)
  | left + 1, port =>
      match ask port with
      | .ok given => ([port], .ok given)
      | .error e =>
          if port = 0 then ([port], .error e)
          else
            match above? port (steps left) with
            | some next =>
                let (ports, answer) := search ask steps left next
                (port :: ports, answer)
            | none => ([port], .error e)

/-! ## Binding -/

/-- The name of a machine that is bound to an address, or the address itself if it is one. -/
def advertisedHost (ownName : Option Text) (ip : IpAddress) : Text :=
  if ip.isEvery then ownName.getD ip.own.render else ip.render

/-- The host under which a server shows itself that is bound to an address. -/
def shownHost (m : Machine) (o : ListenOptions) (ip : IpAddress) : Text :=
  o.advertise.getD (advertisedHost m.ownName ip)

/-- The address and the port that a server is bound to. -/
def endpoint (m : Machine) (o : ListenOptions) (choices : Nat → Nat) :
    Except SystemError (IpAddress × UInt16) :=
  (search (m.listen o.host) (fun left => step o.maxStep (choices left)) o.retries.toNat o.port).2

/-- What the sessions of a server are like that is bound to an address and a port. -/
def session (m : Machine) (o : ListenOptions) (bound : IpAddress × UInt16) : Session :=
  ⟨shownHost m o bound.1, bound.2, o.limit⟩

/-- Binds a server: what its sessions are like. -/
def bind (m : Machine) (o : ListenOptions) (choices : Nat → Nat) : Except SystemError Session :=
  (endpoint m o choices).map (session m o)

end Listen

/-- Where clients find the server of a session. -/
def Session.location (s : Session) : Location := ⟨s.host, s.port⟩

end ToolRegistry
