import ToolRegistry.Client.Connection
import ToolRegistry.Listen

/-!
# Several registries

A network is the registries that listen at some moment, each bound to an
address and a port and each with a store of its own. As a peer it accepts a
connection where one of them listens and refuses it everywhere else, and a
line sent on a connection is answered by the registry that it leads to. All of
this happens on one machine, which has a name and an address for itself and
asks nobody else about hosts.
-/

namespace ToolRegistry

open Wire

/-- A registry that listens. -/
structure Listener where
  address : Text
  port : UInt16
  session : Session
  store : Store

namespace Listener

/-- A registry that has just been bound and keeps no entries. -/
def fresh (address : Text) (session : Session) : Listener := ⟨address, session.port, session, ∅⟩

/-- The address that connections to a host lead to. From the machine itself, every address of the
machine is as good as the one that it has for itself. -/
def addressOf (host : Text) : Text :=
  match Resolver.known? host with
  | some ip => if ip.isEvery then ip.own.render else ip.render
  | none => host

/-- Whether connections to a location lead to a registry. -/
def isAt (l : Listener) (target : Location) : Bool :=
  l.port == target.port &&
    ([Address.every.render, Address6.every.render, addressOf target.host].contains l.address)

end Listener

/-- The registries that listen. -/
abbrev Network := List Listener

namespace Network

/-- Attempts to connect: the greeting, or that nobody listens. -/
def dial (n : Network) (target : Location) : Except SystemError Bytes :=
  match n.find? (·.isAt target) with
  | some l => .ok (replyBytes [l.session.welcome])
  | none => .error .connectionRefused

/-- Has a line answered by the registry at a location. -/
def answer (target : Location) (line : Text) : Network → (Bytes × Bool) × Network
  | [] => (([], false), [])
  | l :: rest =>
      if l.isAt target then
        let (r, store) := l.session.answer line l.store
        (r, { l with store } :: rest)
      else
        let (r, rest) := answer target line rest
        (r, l :: rest)

end Network

/-- The registries of a network, as the other end of connections. -/
def Peer.ofNetwork : Peer Network where
  dial target n := (n.dial target, n)
  answer target line n := n.answer target line

end ToolRegistry
