import ToolRegistry.Wire.CommandKind
import ToolRegistry.Wire.FieldPairs
import ToolRegistry.Wire.TextArgument

/-!
# Requests

A request is one line: the name of a command, then its arguments. `parse` is
what a server runs on every line it receives, and `encode` is what a client
sends; the two meet in the middle, so that whatever a client encodes within
the limits of the quoted form is read back as the same command.

Ids and positions are plain digits with a value above zero that fits the
width of the number; a sign is refused here, unlike in a numeric field.
Whatever follows the last argument is ignored, except after a list of pairs,
which extends to the end of the line.

A line is refused for one of three reasons. The first word may name no
command. The arguments may be malformed. Or, for the two commands that write
an entry, the pairs may be well formed while a number among them is not, which
counts as incomplete data rather than as bad format.
-/

namespace ToolRegistry.Wire

/-- A parsed request. -/
inductive Command where
  | quit
  | help
  | create (fields : FieldSet)
  | search (fields : FieldSet)
  | change (id : EntryId) (fields : FieldSet)
  | delete (id : EntryId)
  | list
  | fetch (id : EntryId)
  | clean
  | addString (id : EntryId) (text : Text)
  | getString (id : EntryId) (pos : UInt64)
  | deleteString (id : EntryId) (pos : UInt64)
  | listStrings (id : EntryId)
  | countStrings (id : EntryId)
deriving DecidableEq, Repr

/-- What is wrong with the arguments of a request. -/
inductive ArgumentError where
  /-- A pair or a text argument is at fault. -/
  | grammar (e : GrammarError)
  | missingId
  | invalidId (token : Text)
  | missingPos
  | invalidPos (token : Text)
deriving DecidableEq, Repr

/-- The wording of a faulty argument. -/
def ArgumentError.message : ArgumentError → Text
  | grammar e => e.message
  | missingId => "missing entry id"
  | invalidId token => "invalid entry id `" ++ token ++ "`".toList
  | missingPos => "missing string id"
  | invalidPos token => "invalid string id `" ++ token ++ "`".toList

/-- Why a line is no request. -/
inductive CommandError where
  /-- The first word names no command. -/
  | unknown (token : Text)
  /-- The arguments are malformed. -/
  | badFormat (kind : CommandKind) (reason : ArgumentError)
  /-- The arguments are well formed, but a number among them is not. -/
  | incomplete (kind : CommandKind) (reason : ArgumentError)
deriving DecidableEq, Repr

/-- The wording of a refusal. -/
def CommandError.message : CommandError → Text
  | unknown token => "unknown command: " ++ token
  | badFormat kind reason => "bad format for " ++ kind.name ++ ": ".toList ++ reason.message
  | incomplete kind reason =>
      "incomplete data for " ++ kind.name ++ ": ".toList ++ reason.message

/-! ## Arguments -/

/-- The value of a word of digits, if it is above zero and fits in `bits` bits. -/
def positive? (bits : Nat) (token : Text) : Option Nat :=
  (Decimal.digits? token).filter fun n => 0 < n ∧ n < 2 ^ bits

/-- Reads an entry id and leaves what follows it. -/
def takeId (kind : CommandKind) (t : Text) : Except CommandError (EntryId × Text) :=
  let (token, rest) := splitToken t
  match positive? 32 token with
  | some n => .ok (UInt32.ofNat n, rest)
  | none => .error (.badFormat kind (if token = [] then .missingId else .invalidId token))

/-- Reads a position. -/
def takePos (kind : CommandKind) (t : Text) : Except CommandError UInt64 :=
  let (token, _) := splitToken t
  match positive? 64 token with
  | some n => .ok (UInt64.ofNat n)
  | none => .error (.badFormat kind (if token = [] then .missingPos else .invalidPos token))

/-- The refusal for a fault in the pairs: a bad number is incomplete data for the commands that
write an entry, and bad format for a search. -/
def pairsError (kind : CommandKind) (e : GrammarError) : CommandError :=
  if e.isInvalidValue ∧ kind ≠ .search then .incomplete kind (.grammar e)
  else .badFormat kind (.grammar e)

/-- Reads the list of pairs that ends a request. -/
def takeFields (kind : CommandKind) (t : Text) : Except CommandError FieldSet :=
  match parseFieldSet t with
  | .ok fields => .ok fields
  | .error e => .error (pairsError kind e)

/-- Reads the text that ends a request. -/
def takeText (kind : CommandKind) (t : Text) : Except CommandError Text :=
  match parseTextArgument t with
  | .ok text => .ok text
  | .error e => .error (.badFormat kind (.grammar e))

namespace Command

/-- The kind of a command. -/
def kind : Command → CommandKind
  | quit => .quit
  | help => .help
  | create _ => .create
  | search _ => .search
  | change _ _ => .change
  | delete _ => .delete
  | list => .list
  | fetch _ => .fetch
  | clean => .clean
  | addString _ _ => .addString
  | getString _ _ => .getString
  | deleteString _ _ => .deleteString
  | listStrings _ => .listStrings
  | countStrings _ => .countStrings

/-! ## Reading -/

/-- Reads the arguments of a command of the given kind. -/
def parseArguments (kind : CommandKind) (rest : Text) : Except CommandError Command := do
  match kind with
  | .quit => return quit
  | .help => return help
  | .list => return list
  | .clean => return clean
  | .create => return create (← takeFields kind rest)
  | .search => return search (← takeFields kind rest)
  | .change =>
      let (id, rest) ← takeId kind rest
      return change id (← takeFields kind rest)
  | .delete => return delete (← takeId kind rest).1
  | .fetch => return fetch (← takeId kind rest).1
  | .listStrings => return listStrings (← takeId kind rest).1
  | .countStrings => return countStrings (← takeId kind rest).1
  | .addString =>
      let (id, rest) ← takeId kind rest
      return addString id (← takeText kind rest)
  | .getString =>
      let (id, rest) ← takeId kind rest
      return getString id (← takePos kind rest)
  | .deleteString =>
      let (id, rest) ← takeId kind rest
      return deleteString id (← takePos kind rest)

/-- Reads one request line, without its line end. -/
def parse (line : Text) : Except CommandError Command :=
  let (token, rest) := splitToken line
  match CommandKind.ofToken? token with
  | none => .error (.unknown token)
  | some kind => parseArguments kind rest

/-! ## Writing -/

/-- The arguments of a command, each as it appears on the line. -/
def arguments : Command → List Text
  | quit | help | list | clean => []
  | create fields | search fields => [encodeFieldSet fields]
  | change id fields => [Decimal.ofNat id.toNat, encodeFieldSet fields]
  | delete id | fetch id | listStrings id | countStrings id => [Decimal.ofNat id.toNat]
  | addString id text => [Decimal.ofNat id.toNat, quote text]
  | getString id pos | deleteString id pos => [Decimal.ofNat id.toNat, Decimal.ofNat pos.toNat]

/-- The request line, without a line end. Whether the texts can be written in quotes is for the
caller to check (`IsEncodable`); an empty list of pairs leaves no trace. -/
def encode (c : Command) : Text :=
  Text.join [' '] (c.kind.name :: c.arguments.filter (· ≠ []))

end Command

end ToolRegistry.Wire
