import ToolRegistry.CommandLine.Task
import ToolRegistry.Json
import ToolRegistry.Service

/-!
# Results of the client program

What a task answers is written as text for people or as JSON for programs.
As text, entries are rows of a table with tabs between the columns, one entry
is a list of its fields, and everything else is a line or one line for each
part.
-/

namespace ToolRegistry.CommandLine

/-! ## JSON -/

/-- The members for the values of an entry. -/
def fieldMembers (e : EntryFields) : List (Text × Json) :=
  [("app", .string e.app), ("site", .string e.site), ("mach", .string e.mach),
    ("node", .string e.node), ("port", .number e.port.toInt), ("pid", .number e.pid.toInt),
    ("comp", .string e.comp), ("tag", .string e.tag)]

/-- The member for an entry id. -/
def idMember (id : EntryId) : Text × Json := ("id", .nat id.toNat)

/-- An entry. -/
def recordJson (r : EntryRecord) : Json := .object (idMember r.id :: fieldMembers r.fields)

/-- An entry with its texts, which are left out if there are none. -/
def detailedJson (d : DetailedEntry) : Json :=
  let strings : List (Text × Json) :=
    if d.strings = [] then [] else [("strings", .array (d.strings.map .string))]
  .object (idMember d.id :: fieldMembers d.fields ++ strings)

/-! ## Text -/

/-- A text on a line. -/
def line (t : Text) : Text := t ++ ['\n']

/-- The written values of an entry, in the order of the fields. -/
def fieldTexts (e : EntryFields) : List Text :=
  [e.app, e.site, e.mach, e.node, Decimal.ofInt e.port.toInt, Decimal.ofInt e.pid.toInt, e.comp,
    e.tag]

/-- Columns, with tabs between them. -/
def row (columns : List Text) : Text := line (Text.join ['\t'] columns)

/-- The heads of the columns for entries. -/
def headRow : Text := row ["ID", "APP", "SITE", "MACH", "NODE", "PORT", "PID", "COMP", "TAG"]

/-- The row of an entry. -/
def recordRow (r : EntryRecord) : Text := row (Decimal.ofNat r.id.toNat :: fieldTexts r.fields)

/-- A field of an entry with its name. -/
def detailLine (name value : Text) : Text :=
  line (Text.padRight 5 (name ++ [':']) ++ ' ' :: value)

/-- The lines for texts, numbered from `pos` on. -/
def numbered : Nat → List Text → Text
  | _, [] => []
  | pos, t :: rest =>
      line ('[' :: Decimal.ofNat pos ++ "]  ".toList ++ t) ++ numbered (pos + 1) rest

/-- An entry with its texts. -/
def details (d : DetailedEntry) : Text :=
  detailLine "id" (Decimal.ofNat d.id.toNat) ++
    ((Field.all.map Field.name).zipWith detailLine (fieldTexts d.fields)).flatten ++
    numbered 1 d.strings

/-! ## Both -/

/-- What is written in one of the two formats. -/
def choose (f : Format) (text : Text) (json : Json) : Text :=
  match f with
  | .text => text
  | .json => json.render

/-- Reports that something was done to an entry. -/
def reportId (f : Format) (done : Text) (id : EntryId) : Text :=
  choose f (line (done ++ ' ' :: Decimal.ofNat id.toNat)) (.object [idMember id])

/-- Reports some lines. -/
def reportLines (f : Format) (lines : List Text) : Text :=
  choose f (lines.flatMap line) (.array (lines.map .string))

/-- Reports entries. -/
def reportRecords (f : Format) (rs : List EntryRecord) : Text :=
  choose f (headRow ++ rs.flatMap recordRow) (.array (rs.map recordJson))

/-- Reports a number that belongs to an entry. -/
def reportCount (f : Format) (id : EntryId) (name : Text) (n : Nat) : Text :=
  choose f (line (Decimal.ofNat n)) (.object [idMember id, (name, .nat n)])

/-- Reports the text at a position. -/
def reportString (f : Format) (id : EntryId) (pos : UInt64) (t : Text) : Text :=
  choose f (line t) (.object [idMember id, ("pos", .nat pos.toNat), ("text", .string t)])

/-- Reports that the text at a position was removed. -/
def reportRemoved (f : Format) (id : EntryId) (pos : UInt64) : Text :=
  choose f
    (line ("deleted string " ++ Decimal.ofNat pos.toNat ++ " of entry ".toList ++
      Decimal.ofNat id.toNat))
    (.object [idMember id, ("deleted", .nat pos.toNat)])

/-- Reports how many entries were removed. -/
def reportCleaned (f : Format) (n : Nat) : Text :=
  choose f (line (Decimal.ofNat n ++ " entries deleted".toList)) (.object [("deleted", .nat n)])

/-! ## Tasks -/

variable {ω : Type}

/-- One entry, with its texts if they are asked for. -/
def fetchDetailed (p : Peer ω) (id : EntryId) (withStrings : Bool) : Exchange ω DetailedEntry := do
  let r ← Client.fillEntry p id
  if withStrings then
    let strings ← Client.listStrings p id
    return { DetailedEntry.ofRecord r with strings }
  else return .ofRecord r

/-- Carries out a task and writes the result. -/
def Task.perform (p : Peer ω) (f : Format) : Task → Exchange ω Text
  | .create e => reportId f "created entry" <$> Client.createEntry p e
  | .change id s => (fun _ => reportId f "changed entry" id) <$> Client.changeEntry p id s
  | .delete id => (fun _ => reportId f "deleted entry" id) <$> Client.deleteEntry p id
  | .fetch id withStrings =>
      (fun d => choose f (details d) (detailedJson d)) <$> fetchDetailed p id withStrings
  | .list => reportRecords f <$> Client.listEntries p
  | .search s => reportRecords f <$> Client.queryEntries p s
  | .clean => reportCleaned f <$> Client.clean p
  | .addString id t => reportCount f id "pos" <$> Client.storeString p id t
  | .getString id pos => reportString f id pos <$> Client.getStringAt p id pos
  | .deleteString id pos => (fun _ => reportRemoved f id pos) <$> Client.deleteString p id pos
  | .listStrings id => reportLines f <$> Client.listStrings p id
  | .countStrings id => reportCount f id "count" <$> Client.countStrings p id
  | .help => reportLines f <$> Client.help p
  | .raw t => reportLines f <$> Client.raw p t

end ToolRegistry.CommandLine
