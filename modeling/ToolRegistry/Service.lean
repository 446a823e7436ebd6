import ToolRegistry.Client.Connection
import ToolRegistry.Client.Operations

/-!
# The service

A service is for callers who talk to a registry now and then. Each call opens
a connection, does its work and closes the connection again, unless a
connection was opened beforehand to be kept (`connect`). A kept connection is
given up when a call finds it broken, and the next call opens one of its own.

The result of a call is the result of its work. Whether closing went well does
not matter any more, so closing failures are dropped.

An entry may be asked for together with its texts. They are fetched one by
one, first their number and then each position, and the first failure among
them is the failure of the call.

A service keeps the links of the connections it has closed, so that what was
said on every connection it ever had can be looked up.
-/

namespace ToolRegistry

open Wire

/-- An entry together with the texts attached to it, as far as they were asked for. -/
structure DetailedEntry where
  id : EntryId
  fields : EntryFields
  strings : List Text
deriving DecidableEq, Repr

/-- An entry of which no texts were asked for. -/
def DetailedEntry.ofRecord (r : EntryRecord) : DetailedEntry := ⟨r.id, r.fields, []⟩

namespace Exchange

variable {ω : Type}

/-- The texts at `count` positions from `pos` on, fetched one by one. -/
def stringsFrom (p : Peer ω) (id : EntryId) : Nat → Nat → Exchange ω (List Text)
  | _, 0 => return []
  | pos, count + 1 => do
      let t ← Client.getStringAt p id (UInt64.ofNat pos)
      let rest ← stringsFrom p id (pos + 1) count
      return t :: rest

/-- All texts of an entry, fetched one by one. -/
def fetchStrings (p : Peer ω) (id : EntryId) : Exchange ω (List Text) := do
  let count ← Client.countStrings p id
  stringsFrom p id 1 count

/-- Adds to an entry its texts, if they are asked for. -/
def detail (p : Peer ω) (withStrings : Bool) (r : EntryRecord) : Exchange ω DetailedEntry := do
  if withStrings then
    let strings ← fetchStrings p r.id
    return { DetailedEntry.ofRecord r with strings }
  else return .ofRecord r

/-- Adds to each entry its texts, if they are asked for. -/
def detailAll (p : Peer ω) (withStrings : Bool) :
    List EntryRecord → Exchange ω (List DetailedEntry)
  | [] => return []
  | r :: rest => do
      let d ← detail p withStrings r
      let ds ← detailAll p withStrings rest
      return d :: ds

/-- One entry, with its texts if they are asked for. They are those of the id asked for. -/
def getEntry (p : Peer ω) (id : EntryId) (withStrings : Bool) : Exchange ω DetailedEntry := do
  let r ← Client.fillEntry p id
  if withStrings then
    let strings ← fetchStrings p id
    return { DetailedEntry.ofRecord r with strings }
  else return .ofRecord r

/-- The entries that agree with some values, with their texts if they are asked for. -/
def queryDetailed (p : Peer ω) (s : FieldSet) (withStrings : Bool) :
    Exchange ω (List DetailedEntry) := do
  let records ← Client.queryEntries p s
  detailAll p withStrings records

end Exchange

/-- Access to one registry. -/
structure Service where
  location : Location
  /-- How often to try to connect. -/
  attempts : Nat
  /-- The connection that is kept, if there is one. -/
  client : Option Client := none
  /-- The connections that are closed, oldest first. -/
  past : List Link := []
deriving DecidableEq, Repr

namespace Service

variable {ω : Type}

/-- Whether a connection is kept. -/
def isConnected (s : Service) : Bool := s.client.isSome

/-- Every connection the service ever had, oldest first. -/
def links (s : Service) : List Link := s.past ++ (s.client.map Client.link).toList

/-- The service without the connection `l`, which is closed. -/
def forget (s : Service) (l : Link) : Service :=
  { s with client := none, past := s.past ++ [l] }

/-- Opens a connection. A connection whose greeting is refused is closed at once. -/
def openClient (p : Peer ω) (s : Service) (w : ω) : Except RegistryError Client × Service × ω :=
  match dial p s.location s.attempts w with
  | (.error e, w) => (.error e, s, w)
  | (.ok l, w) =>
      match Client.greet l with
      | (.error e, l) => (.error e, s.forget l, w)
      | (.ok welcome, l) => (.ok ⟨l, welcome⟩, s, w)

/-- Opens a connection to keep, if none is kept. -/
def connect (p : Peer ω) (s : Service) (w : ω) : Except RegistryError Unit × Service × ω :=
  if s.isConnected then (.ok (), s, w)
  else
    match s.openClient p w with
    | (.error e, s, w) => (.error e, s, w)
    | (.ok c, s, w) => (.ok (), { s with client := some c }, w)

/-- Closes the kept connection; true if there was none or the registry confirms it. -/
def disconnect (p : Peer ω) (s : Service) (w : ω) : Except RegistryError Bool × Service × ω :=
  match s.client with
  | none => (.ok true, s, w)
  | some c =>
      let (r, c, w) := c.perform (Client.close p) w
      (r, s.forget c.link, w)

/-- Whether a result tells that the connection is broken. -/
def isBroken {α : Type} : Except RegistryError α → Bool
  | .error e => e.isTransport
  | .ok _ => false

/-- Carries out an exchange over the kept connection, or over one opened for it. -/
def call {α : Type} (p : Peer ω) (x : Exchange ω α) (s : Service) (w : ω) :
    Except RegistryError α × Service × ω :=
  match s.client with
  | some c =>
      let (r, c, w) := c.perform x w
      (r, if isBroken r then s.forget c.link else { s with client := some c }, w)
  | none =>
      match s.openClient p w with
      | (.error e, s, w) => (.error e, s, w)
      | (.ok c, s, w) =>
          let (r, c, w) := c.perform x w
          let (_, c, w) := c.perform (Client.close p) w
          (r, s.forget c.link, w)

end Service

end ToolRegistry
