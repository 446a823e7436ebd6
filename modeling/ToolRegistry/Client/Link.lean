import ToolRegistry.Error
import ToolRegistry.Wire.LineRead

/-!
# Connections, as the client sees them

A client holds one end of a connection and talks to a *peer*: a registry, a
registry that others use at the same time, or something that only pretends to
be one. To the client a peer is what it does on two occasions. When it is
dialled it accepts or not, and may send some bytes at once; when it receives
a line it may send some bytes back and may stop listening. Everything a peer
remembers between two occasions is its state `ω`, so that one client can be
run against any peer and any law about the client can speak of all of them.

What has arrived and has not been read yet is the inbox of the `Link`. The
end of the inbox is the end of the stream: a peer sends what it has to send
when it is spoken to, so a client that finds nothing there would wait in
vain. Each link also remembers, line by line, what was sent on it and read
from it.
-/

namespace ToolRegistry

open Wire

/-- The other end of connections, with a state `ω`. -/
structure Peer (ω : Type) where
  /-- What becomes of an attempt to connect: the bytes sent at once, or why there is no
  connection. -/
  dial : Location → ω → Except SystemError Bytes × ω
  /-- What comes back for a line received on a connection to a location, and whether more lines
  will be listened to. -/
  answer : Location → Text → ω → (Bytes × Bool) × ω

/-- Something that happens on a connection. -/
inductive Event where
  | sent (line : Text)
  | received (line : Text)
  /-- The client finds that nothing more will come. -/
  | ended
deriving DecidableEq, Repr

/-- The client's end of a connection. -/
structure Link where
  /-- Where it leads. -/
  location : Location
  /-- What has arrived and has not been read. -/
  inbox : Bytes
  /-- Whether the peer still listens. -/
  listening : Bool := true
  /-- What has happened, oldest first. -/
  events : List Event := []
deriving DecidableEq, Repr

namespace Link

/-- The link with one more event. -/
def note (l : Link) (e : Event) : Link := { l with events := l.events ++ [e] }

/-- The text of everything sent. -/
def sentText (l : Link) : Text :=
  l.events.flatMap fun
    | .sent line => line ++ ['\n']
    | _ => []

/-! ## Sending and receiving -/

/-- Sends a line. On a connection whose peer no longer listens nothing comes back. -/
def send {ω : Type} (p : Peer ω) (line : Text) (l : Link) (w : ω) : Link × ω :=
  let l := l.note (.sent line)
  if l.listening then
    let ((bytes, listening), w) := p.answer l.location line w
    ({ l with inbox := l.inbox ++ bytes, listening }, w)
  else (l, w)

/-- The greatest line that a client accepts: the registry bounds what it stores, so a reply is
read whole. -/
def noLimit : UInt64 := UInt64.ofNat (2 ^ 64 - 1)

/-- Reads a line. -/
def receive (l : Link) : Except RegistryError Text × Link :=
  match readLine noLimit l.inbox with
  | (.line t, rest) => (.ok t, { l with inbox := rest }.note (.received t))
  | (.unterminated t, rest) => (.ok t, { l with inbox := rest }.note (.received t))
  | (.tooLong, rest) => (.error (.protocol "response line too long"), { l with inbox := rest })
  | (.ended, rest) => (.error .disconnected, { l with inbox := rest }.note .ended)

/-- A line that has been read is no longer in the inbox. -/
theorem receive_length_lt {l l' : Link} {t : Text} (h : l.receive = (.ok t, l')) :
    l'.inbox.length < l.inbox.length := by
  have hne : l.inbox ≠ [] := by
    intro he
    simp [receive, he] at h
  have hlt := @readLine_length_lt noLimit l.inbox hne
  simp only [receive] at h
  split at h
  next heq =>
    cases h
    rw [heq] at hlt
    exact hlt
  next heq =>
    cases h
    rw [heq] at hlt
    exact hlt
  next => cases h
  next => cases h

end Link

end ToolRegistry
