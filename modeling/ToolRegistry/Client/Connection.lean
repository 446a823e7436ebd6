import ToolRegistry.Client.Exchange
import ToolRegistry.Session

/-!
# Opening connections

A client tries to connect a given number of times, at least once, and the
failure it reports is that of the last attempt. A connection counts as open
only when the peer has greeted the client with a successful status line,
whose payload is kept.

Two peers are defined here. `Peer.ofSession` is a registry at work: it
answers every line as its session does, on a store that all connections
share. `Peer.scripted` sends the same bytes whatever it is asked; its state
is what it will send on the connections to come.
-/

namespace ToolRegistry

open Wire

/-! ## Two peers -/

/-- The bytes sent for some replies. -/
def replyBytes (replies : List Reply) : Bytes := Utf8.encode (Session.transcript replies)

/-- What a session does with one line that ends in a line feed. -/
def Session.answer (s : Session) (line : Text) (store : Store) : (Bytes × Bool) × Store :=
  let served := s.serve (readAll s.limit (Utf8.encode (line ++ ['\n']))) store
  ((replyBytes served.replies, !served.closed), served.store)

namespace Peer

/-- A registry that serves every connection with the same kind of session. -/
def ofSession (s : Session) : Peer Store where
  dial _ store := (.ok (replyBytes [s.welcome]), store)
  answer _ line store := s.answer line store

/-- A peer that sends prepared bytes on each connection and nothing when it has none left. -/
def scripted : Peer (List Bytes) where
  dial
    | _, [] => (.ok [], [])
    | _, bytes :: rest => (.ok bytes, rest)
  answer _ _ w := (([], true), w)

end Peer

/-! ## Dialling -/

variable {ω : Type}

/-- Tries to connect up to `more + 1` times. -/
def dialAgain (p : Peer ω) (target : Location) : Nat → ω → Except SystemError Bytes × ω
  | 0, w => p.dial target w
  | more + 1, w =>
      match p.dial target w with
      | (.ok bytes, w) => (.ok bytes, w)
      | (.error _, w) => dialAgain p target more w

/-- Tries to connect up to `attempts` times, and at least once. -/
def dial (p : Peer ω) (target : Location) (attempts : Nat) (w : ω) :
    Except RegistryError Link × ω :=
  match dialAgain p target (attempts - 1) w with
  | (.ok bytes, w) => (.ok { location := target, inbox := bytes }, w)
  | (.error cause, w) => (.error (.connection target cause), w)

/-! ## Greeting -/

/-- A client with an open connection. -/
structure Client where
  /-- Its end of the connection. -/
  link : Link
  /-- The payload of the greeting. -/
  welcome : Text
deriving DecidableEq, Repr

namespace Client

/-- Reads the greeting. -/
def greet (l : Link) : Except RegistryError Text × Link :=
  match l.receive with
  | (.error e, l) => (.error e, l)
  | (.ok line, l) =>
      match Status.parse? line with
      | some (.ok payload) => (.ok payload, l)
      | _ => (.error (.protocol line), l)

/-- Connects and reads the greeting. -/
def connect (p : Peer ω) (target : Location) (attempts : Nat) (w : ω) :
    Except RegistryError Client × ω :=
  match dial p target attempts w with
  | (.error e, w) => (.error e, w)
  | (.ok l, w) =>
      match greet l with
      | (.error e, _) => (.error e, w)
      | (.ok welcome, l) => (.ok ⟨l, welcome⟩, w)

/-- Carries out an exchange over the connection of a client. -/
def perform {α : Type} (x : Exchange ω α) (c : Client) (w : ω) :
    Except RegistryError α × Client × ω :=
  let (r, l, w) := x.carryOut c.link w
  (r, { c with link := l }, w)

end Client

end ToolRegistry
