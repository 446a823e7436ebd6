import ToolRegistry.Client.Link
import ToolRegistry.Wire.Command
import ToolRegistry.Wire.EntryLine
import ToolRegistry.Wire.Payload
import ToolRegistry.Wire.Reply

/-!
# Exchanges

An exchange is a piece of conversation over one connection: it sends lines,
reads lines, and ends with a value or with a failure. A failure does not undo
what was sent and read before it, so the link and the peer's state come out
of an exchange either way.

Every request is answered by a status line. A refusal is turned back into the
failure that it stands for, by the words that its payload begins with
(`refusal`); the ids and positions in that failure are those of the request,
because the reply does not repeat them. What follows a successful status line
is for the particular request to read: nothing, a data line, or a body.

Reading a body takes a line from the inbox at every step, which is why it
ends whatever the peer has sent.
-/

namespace ToolRegistry

open Wire

/-- A piece of conversation over one connection, with a peer whose state is `ω`. -/
abbrev Exchange (ω : Type) := ExceptT RegistryError (StateM (Link × ω))

namespace Exchange

variable {ω : Type}

/-- Carries out an exchange over a link. -/
def carryOut {α : Type} (x : Exchange ω α) (l : Link) (w : ω) : Except RegistryError α × Link × ω :=
  ExceptT.run x (l, w)

/-- A step that only reads. -/
def reading {α : Type} (f : Link → Except RegistryError α × Link) : Exchange ω α :=
  ExceptT.mk fun (l, w) =>
    let (r, l) := f l
    (r, l, w)

/-- Sends a line. -/
def sendLine (p : Peer ω) (line : Text) : Exchange ω Unit :=
  ExceptT.mk fun (l, w) => (.ok (), l.send p line w)

/-- Reads a line. -/
def readLine : Exchange ω Text := reading Link.receive

/-! ## Refusals -/

/-- The entry id and the position that a request names, and zero for what it does not name. -/
def subject : Command → EntryId × UInt64
  | .change id _ | .delete id | .fetch id | .addString id _ | .listStrings id
  | .countStrings id => (id, 0)
  | .getString id pos | .deleteString id pos => (id, pos)
  | _ => (0, 0)

/-- The failure that a refusal of a request stands for. -/
def refusal (payload : Text) (command : Command) : RegistryError :=
  let (id, pos) := subject command
  if Payload.noEntry.isPrefixOf payload then .entryNotFound id
  else if Payload.noString.isPrefixOf payload then .stringNotFound id pos
  else if Payload.incomplete.isPrefixOf payload then .incompleteData (.refused payload)
  else if Payload.badFormat.isPrefixOf payload then .badFormat (.refused payload)
  else
    match Text.after? Payload.unknownPrelude payload with
    | some token => .unknownCommand token
    | none => .server (.said payload)

/-! ## Requests and what follows them -/

/-- Sends a request and reads its status line: the payload, or the failure. -/
def request (p : Peer ω) (command : Command) : Exchange ω Text := do
  sendLine p command.encode
  let line ← readLine
  match Status.parse? line with
  | some (.ok payload) => return payload
  | some (.err payload) => throw (refusal payload command)
  | none => throw (.protocol line)

/-- The body lines in the inbox of a link, up to the terminator. -/
def takeBody (l : Link) : Except RegistryError (List Text) × Link :=
  match _h : l.receive with
  | (.error e, l) => (.error e, l)
  | (.ok line, l) =>
      if line = terminator then (.ok [], l)
      else
        match takeBody l with
        | (.error e, l) => (.error e, l)
        | (.ok lines, l) => (.ok (unstuff line :: lines), l)
termination_by l.inbox.length
decreasing_by exact Link.receive_length_lt _h

/-- Reads a body. -/
def readBody : Exchange ω (List Text) := reading takeBody

/-- The entry in an entry line. -/
def entryOf (line : Text) : Except RegistryError EntryRecord :=
  match parseEntryLine? line with
  | some r => .ok r
  | none => .error (.protocol line)

/-- Reads a body of entry lines. All of it is read before any of it is looked at. -/
def readEntries : Exchange ω (List EntryRecord) := do
  let lines ← readBody
  liftM (lines.mapM entryOf)

/-- The first number in a payload, which must be one of those below `2 ^ bits`. -/
def firstNumber (bits : Nat) (template payload : Text) : Except RegistryError Nat :=
  match Template.scan template payload with
  | some (value :: _) =>
      if 0 ≤ value ∧ value < 2 ^ bits then .ok value.toNat
      else .error (.protocol (Status.ok payload).line)
  | _ => .error (.protocol (Status.ok payload).line)

end Exchange

end ToolRegistry
