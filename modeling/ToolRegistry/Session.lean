import ToolRegistry.Store
import ToolRegistry.Wire.Command
import ToolRegistry.Wire.EntryLine
import ToolRegistry.Wire.LineRead
import ToolRegistry.Wire.Payload
import ToolRegistry.Wire.Reply

/-!
# Sessions

A session is what a server does on one connection: it greets the client, then
answers every line with one reply. The session itself holds only what the
greeting shows and how long a line may be. The store belongs to all sessions
together, so it is passed in with every request and handed back with the
answer; a request either succeeds and answers with the new store, or is
refused and leaves the store exactly as it was.

Serving a connection is defined on the sequence of lines read from it
(`serve`), because what the reader yields does not depend on the answers. It
ends with the first request to quit, or with the last line if that one has no
line end.
-/

namespace ToolRegistry

open Wire

/-- What a server shows of itself and how long a line it accepts. -/
structure Session where
  /-- The host in the greeting. -/
  host : Text
  /-- The port in the greeting. -/
  port : UInt16
  /-- The greatest length of a request line in bytes. -/
  limit : UInt64
deriving DecidableEq, Repr

/-- The answer to one request. -/
structure Outcome where
  reply : Reply
  close : Bool
deriving DecidableEq, Repr

namespace Outcome

/-- A reply after which the session goes on. -/
def goOn (reply : Reply) : Outcome := ⟨reply, false⟩

end Outcome

namespace Session

/-! ## Greeting -/

/-- The port in decimal. -/
def portText (s : Session) : Text := Decimal.ofNat s.port.toNat

/-- The first line sent on a connection. -/
def welcome (s : Session) : Reply :=
  .ok (Template.render Payload.welcome
    [s.host, s.portText, Payload.serverVersion, Payload.serverBuild])

/-! ## Carrying out a command -/

/-- A number as a value for a template. -/
def natText (n : Nat) : Text := Decimal.ofNat n

/-- An entry id as a value for a template. -/
def idText (id : EntryId) : Text := Decimal.ofNat id.toNat

/-- A position as a value for a template. -/
def posText (pos : UInt64) : Text := Decimal.ofNat pos.toNat

/-- One line of the help reply. -/
def helpLine (kind : CommandKind) : Text := kind.name.padLeft 10 ++ ' ' :: kind.description

/-- A successful reply with the values in the places of its template. -/
def success (template : Text) (values : List Text) : Reply := .ok (Template.render template values)

/-- Carries out a command. -/
def execute (s : Session) (command : Command) (store : Store) :
    Except StoreError (Outcome × Store) := do
  match command with
  | .quit => return (⟨success Payload.quitting [s.host, s.portText], true⟩, store)
  | .help =>
      return (.goOn ((Reply.ok Payload.help).withBody (CommandKind.all.map helpLine)), store)
  | .create fields =>
      let (id, store) ← store.create fields
      return (.goOn (success Payload.created [idText id]), store)
  | .search fields =>
      return (.goOn ((Reply.ok Payload.found).withBody
        ((store.search fields).map formatEntryLine)), store)
  | .change id fields =>
      let (_, store) ← store.change id fields
      return (.goOn (success Payload.changed [idText id]), store)
  | .delete id =>
      let (_, store) ← store.delete id
      return (.goOn (success Payload.deleted [idText id]), store)
  | .list =>
      let records := store.list
      return (.goOn ((success Payload.listed [natText records.length]).withBody
        (records.map formatEntryLine)), store)
  | .fetch id =>
      let record ← store.fetch id
      return (.goOn ((success Payload.fetched [idText id]).withLine (formatEntryLine record)),
        store)
  | .clean =>
      let (count, store) := store.clear
      return (.goOn (success Payload.cleaned [natText count]), store)
  | .addString id text =>
      let (pos, store) ← store.addString id text
      return (.goOn (success Payload.stringAdded [natText pos]), store)
  | .getString id pos =>
      let text ← store.getString id pos
      let size := natText (Utf8.encode text).length
      return (.goOn ((success Payload.stringFetched [posText pos, idText id, size]).withLine text),
        store)
  | .deleteString id pos =>
      let store ← store.deleteString id pos
      return (.goOn (success Payload.stringDeleted [posText pos, idText id]), store)
  | .listStrings id =>
      let strings ← store.listStrings id
      return (.goOn ((success Payload.stringsListed [natText strings.length, idText id]).withBody
        strings), store)
  | .countStrings id =>
      let count ← store.countStrings id
      return (.goOn (success Payload.stringsCounted [natText count, idText id]), store)

/-! ## Refusals -/

/-- The reply to a line that is no request. -/
def refusal : CommandError → Reply
  | .unknown token => .err (Template.render Payload.unknownCommand [token])
  | .badFormat kind _ => .errWithUsage Payload.badFormat kind.usage
  | .incomplete kind _ => .errWithUsage Payload.incomplete kind.usage

/-- The reply to a request that the store refuses. -/
def failure (kind : CommandKind) : StoreError → Reply
  | .noEntry _ => .err Payload.noEntry
  | .noString _ _ => .err Payload.noString
  | .incomplete _ => .errWithUsage Payload.incomplete kind.usage

/-- The reply to a line beyond the limit. -/
def overlong (s : Session) : Reply :=
  .err (Payload.badFormat ++ " line exceeds ".toList ++ Decimal.ofNat s.limit.toNat ++
    " bytes".toList)

/-! ## Serving -/

/-- Answers one request line. -/
def dispatch (s : Session) (line : Text) (store : Store) : Outcome × Store :=
  match Command.parse line with
  | .error e => (.goOn (refusal e), store)
  | .ok command =>
      match s.execute command store with
      | .ok answer => answer
      | .error e => (.goOn (failure command.kind e), store)

/-- What serving a connection leaves. -/
structure Served where
  replies : List Reply
  /-- Whether the client asked to end the session. -/
  closed : Bool
  store : Store

/-- Answers the lines read from a connection, in order. -/
def serve (s : Session) : List LineRead → Store → Served
  | [], store | .ended :: _, store => ⟨[], false, store⟩
  | .tooLong :: rest, store =>
      let served := s.serve rest store
      { served with replies := s.overlong :: served.replies }
  | .unterminated line :: _, store =>
      let (outcome, store) := s.dispatch line store
      ⟨[outcome.reply], outcome.close, store⟩
  | .line line :: rest, store =>
      let (outcome, store) := s.dispatch line store
      if outcome.close then ⟨[outcome.reply], true, store⟩
      else
        let served := s.serve rest store
        { served with replies := outcome.reply :: served.replies }

/-- Serves a whole connection: the replies, the greeting first, and the store afterwards. -/
def run (s : Session) (bytes : Bytes) (store : Store) : List Reply × Store :=
  let served := s.serve (readAll s.limit bytes) store
  (s.welcome :: served.replies, served.store)

/-- The text of some replies. -/
def transcript (replies : List Reply) : Text := replies.flatMap Reply.encode

end Session

end ToolRegistry
