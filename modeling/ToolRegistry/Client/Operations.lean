import ToolRegistry.Client.Exchange

/-!
# What a client can ask for

One function for each request. Arguments are checked before anything is sent:
a text that cannot be written in quotes is refused on the spot, because it
would end the quotes or the line and turn the rest of the request into
something else.

`raw` sends a line as it is. The line is read here as the registry will read
it, for one purpose only: to know whether a data line or a body follows a
successful status line.
-/

namespace ToolRegistry.Client

open Wire Exchange

variable {ω : Type}

/-! ## Checking arguments -/

/-- Refuses a text that cannot be written in quotes. -/
def checkText (what t : Text) : Except RegistryError Unit :=
  if IsEncodable t then .ok () else .error (.badFormat (.unencodable what))

/-- Refuses the first field in a list whose given text cannot be written in quotes. -/
def checkFields (s : FieldSet) : List Field → Except RegistryError Unit
  | [] => .ok ()
  | f :: rest =>
      match s.text? f with
      | none => checkFields s rest
      | some t =>
          match checkText f.name t with
          | .error e => .error e
          | .ok () => checkFields s rest

/-- Refuses a set of values with a text that cannot be written in quotes. -/
def checkSet (s : FieldSet) : Except RegistryError Unit := checkFields s Field.all

/-! ## Entries -/

/-- Keeps a new entry and answers its id. -/
def createEntry (p : Peer ω) (e : EntryFields) : Exchange ω EntryId := do
  let s := FieldSet.ofFields e
  liftM (checkSet s)
  let payload ← request p (.create s)
  let n ← liftM (firstNumber 32 Payload.created payload)
  return UInt32.ofNat n

/-- Lays some values over an entry and answers its id. -/
def changeEntry (p : Peer ω) (id : EntryId) (s : FieldSet) : Exchange ω EntryId := do
  liftM (checkSet s)
  let payload ← request p (.change id s)
  let n ← liftM (firstNumber 32 Payload.changed payload)
  return UInt32.ofNat n

/-- Removes an entry and answers its id. -/
def deleteEntry (p : Peer ω) (id : EntryId) : Exchange ω EntryId := do
  let payload ← request p (.delete id)
  let n ← liftM (firstNumber 32 Payload.deleted payload)
  return UInt32.ofNat n

/-- The entries that agree with some values. -/
def queryEntries (p : Peer ω) (s : FieldSet) : Exchange ω (List EntryRecord) := do
  liftM (checkSet s)
  let _ ← request p (.search s)
  readEntries

/-- The id of the first entry that agrees with some values. -/
def openEntry (p : Peer ω) (s : FieldSet) : Exchange ω (Option EntryId) := do
  let records ← queryEntries p s
  return records.head?.map EntryRecord.id

/-- All entries. -/
def listEntries (p : Peer ω) : Exchange ω (List EntryRecord) := do
  let _ ← request p .list
  readEntries

/-- One entry. -/
def fillEntry (p : Peer ω) (id : EntryId) : Exchange ω EntryRecord := do
  let _ ← request p (.fetch id)
  let line ← readLine
  liftM (entryOf line)

/-- Removes all entries and answers how many there were. -/
def clean (p : Peer ω) : Exchange ω Nat := do
  let payload ← request p .clean
  liftM (firstNumber 64 Payload.cleaned payload)

/-! ## Attached texts -/

/-- Attaches a text to an entry and answers its position. -/
def storeString (p : Peer ω) (id : EntryId) (t : Text) : Exchange ω Nat := do
  if t = [] then throw (.badFormat .emptyString)
  liftM (checkText "string" t)
  let payload ← request p (.addString id t)
  liftM (firstNumber 64 Payload.stringAdded payload)

/-- How many texts an entry has. -/
def countStrings (p : Peer ω) (id : EntryId) : Exchange ω Nat := do
  let payload ← request p (.countStrings id)
  liftM (firstNumber 64 Payload.stringsCounted payload)

/-- The text at a position. -/
def getStringAt (p : Peer ω) (id : EntryId) (pos : UInt64) : Exchange ω Text := do
  let _ ← request p (.getString id pos)
  readLine

/-- Removes the text at a position. -/
def deleteString (p : Peer ω) (id : EntryId) (pos : UInt64) : Exchange ω Unit := do
  let _ ← request p (.deleteString id pos)

/-- All texts of an entry. -/
def listStrings (p : Peer ω) (id : EntryId) : Exchange ω (List Text) := do
  let _ ← request p (.listStrings id)
  readBody

/-! ## Everything else -/

/-- The commands, as the registry describes them. -/
def help (p : Peer ω) : Exchange ω (List Text) := do
  let _ ← request p .help
  readBody

/-- What follows a successful status line. -/
inductive Tail where
  | nothing
  | dataLine
  | body
deriving DecidableEq, Repr

/-- What follows a successful reply to a command of some kind. -/
def tailOf : CommandKind → Tail
  | .fetch | .getString => .dataLine
  | .help | .search | .list | .listStrings => .body
  | _ => .nothing

/-- What follows a successful reply to a line. -/
def tailOfLine (line : Text) : Tail :=
  match Command.parse line with
  | .ok command => tailOf command.kind
  | .error _ => .nothing

/-- Whether a status line tells of success. -/
def tellsOk (line : Text) : Bool :=
  match Status.parse? line with
  | some (.ok _) => true
  | _ => false

/-- Sends a line as it is and reads the whole reply, the status line first. -/
def raw (p : Peer ω) (line : Text) : Exchange ω (List Text) := do
  if '\r' ∈ line ∨ '\n' ∈ line then throw (.badFormat .severalLines)
  sendLine p line
  let status ← readLine
  if tellsOk status then
    match tailOfLine line with
    | .nothing => return [status]
    | .dataLine => return [status, ← readLine]
    | .body => return status :: (← readBody)
  else return [status]

/-- Asks to end the session; false if the registry does not confirm it. -/
def close (p : Peer ω) : Exchange ω Bool := do
  sendLine p Command.quit.encode
  tryCatch (tellsOk <$> readLine) fun
    | .disconnected => return false
    | e => throw e

end ToolRegistry.Client
