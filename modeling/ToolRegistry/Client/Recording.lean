import ToolRegistry.Client.Connection
import ToolRegistry.Client.Operations

/-!
# Recorded conversations

A client is a function of what its peer does, so a conversation can be
carried out in rounds. In each round the client talks to a recording of what
the real peer has done so far. Where the recording has nothing more to offer,
it notes what the client would like to have next: a connection, or the answer
to a line. Somebody outside gets it from the real peer and adds it to the
recording, and the next round goes one step further. A round that lacks
nothing is the conversation itself.

To be added as a whole, an answer must be known to have ended. `isWhole` says
so by reading it as a client reads the reply to a line it was given.
-/

namespace ToolRegistry

open Wire

/-- What a recording lacks. -/
inductive Wish where
  /-- The outcome of an attempt to connect. -/
  | connection (target : Location)
  /-- The answer to a line. -/
  | answer (line : Text)
deriving DecidableEq, Repr

/-- What a peer has done. -/
structure Recording where
  /-- The outcomes of attempts to connect. -/
  dials : List (Except SystemError Bytes) := []
  /-- The answers to lines. -/
  answers : List Bytes := []
  /-- The first thing that is lacking. -/
  wish : Option Wish := none

namespace Recording

/-- The recording with a wish, if it had none before. -/
def lacking (r : Recording) (w : Wish) : Recording := { r with wish := r.wish <|> some w }

end Recording

/-- A recording, as the other end of connections. -/
def Peer.recorded : Peer Recording where
  dial target r :=
    match r.dials with
    | outcome :: rest => (outcome, { r with dials := rest })
    | [] => (.error .connectionRefused, r.lacking (.connection target))
  answer _ line r :=
    match r.answers with
    | bytes :: rest => ((bytes, true), { r with answers := rest })
    | [] => (([], true), r.lacking (.answer line))

/-- A peer that answers every line with the same bytes. -/
def Peer.constant (bytes : Bytes) : Peer Unit where
  dial _ w := (.ok [], w)
  answer _ _ w := ((bytes, true), w)

/-- Whether bytes are the whole answer to a line. -/
def isWhole (line : Text) (bytes : Bytes) : Bool :=
  let l : Link := { location := ⟨[], 0⟩, inbox := [] }
  bytes.getLast? == some lineFeed &&
    match ((Client.raw (Peer.constant bytes) line).carryOut l ()).1 with
    | .error .disconnected => false
    | _ => true

end ToolRegistry
