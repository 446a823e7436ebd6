import ToolRegistry.Location
import ToolRegistry.Store
import ToolRegistry.Text.Shown

/-!
# What can go wrong

A `RegistryError` says why a call to the registry failed. Each constructor is
one kind of failure, and the ones that can come about in several ways say
which. The wording is kept apart from the causes, in `message`, so that a
program can decide by the cause and a person can read the wording.

Two properties matter to callers. *Transport* failures (`isTransport`) tell
that the connection is of no more use, and that the request may or may not
have been carried out; all others are answers of a registry that works. And
every failure has an exit code for the command line, one code for each group
of kinds.
-/

namespace ToolRegistry

/-- What the operating system refuses to do. -/
inductive SystemError where
  | connectionRefused
  | addressInUse
  | notFound
  | alreadyExists
  | notADirectory
  | isADirectory
  | nameTooLong
  /-- What is to be renamed is a directory that the path passes through. -/
  | busy
  /-- There are too many links on the way. -/
  | tooManyLinks
  /-- There is a character in a path that no path can hold. -/
  | nulInPath
  | notUtf8
  /-- Anything else, in the words of the operating system. -/
  | other (words : Text)
deriving DecidableEq, Repr

/-- The wording of a refusal by the operating system. -/
def SystemError.message : SystemError → Text
  | connectionRefused => "Connection refused (os error 111)"
  | addressInUse => "Address already in use (os error 98)"
  | notFound => "No such file or directory (os error 2)"
  | alreadyExists => "File exists (os error 17)"
  | notADirectory => "Not a directory (os error 20)"
  | isADirectory => "Is a directory (os error 21)"
  | nameTooLong => "File name too long (os error 36)"
  | busy => "Device or resource busy (os error 16)"
  | tooManyLinks => "Too many levels of symbolic links (os error 40)"
  | nulInPath => "file name contained an unexpected NUL byte"
  | notUtf8 => "stream did not contain valid UTF-8"
  | other words => words

/-- Why a request has a bad format. -/
inductive FormatFault where
  | unencodable (what : Text)
  | emptyString
  /-- A request is one line. -/
  | severalLines
  /-- The registry says so. -/
  | refused (payload : Text)
deriving DecidableEq, Repr

/-- Why the data of a request is incomplete. -/
inductive DataFault where
  | missing (fields : List Field)
  /-- The registry says so. -/
  | refused (payload : Text)
deriving DecidableEq, Repr

/-- How a program ended. -/
inductive Ending where
  | exited (status : Nat)
  | killed
deriving DecidableEq, Repr

/-- What a server does that is of no known kind. -/
inductive ServerFault where
  /-- It refuses a request in these words. -/
  | said (payload : Text)
  /-- This program was started as a server and did not tell its location. -/
  | silent (program : Text) (ending : Ending)
deriving DecidableEq, Repr

/-- What is wrong with the settings or with where they come from. -/
inductive ConfigFault where
  /-- The setting is a number, and this is no number of its range. -/
  | invalidValue (key value : Text)
  | invalidLevel (value : Text)
  | unknownKey (key : Text)
  | noValue (key : Text)
  | invalidLocation (text : Text)
  /-- The variable that tells the location does not hold UTF-8. -/
  | variableNotUtf8 (value : Bytes)
  | malformedFile (path : Text)
  /-- A number is too large for the settings file. -/
  | notWritable
deriving DecidableEq, Repr

/-- Why a call to the registry failed. -/
inductive RegistryError where
  | badFormat (fault : FormatFault)
  | incompleteData (fault : DataFault)
  | entryNotFound (id : EntryId)
  | stringNotFound (id : EntryId) (pos : UInt64)
  | unknownCommand (command : Text)
  /-- The server fails in some other way. -/
  | server (fault : ServerFault)
  /-- This line is not what the protocol allows here. -/
  | protocol (line : Text)
  | disconnected
  | connection (target : Location) (cause : SystemError)
  | config (fault : ConfigFault)
  /-- The operating system refuses something else. -/
  | io (cause : SystemError)
deriving DecidableEq, Repr

/-! ## Wording -/

/-- The names of some fields, with commas between them. -/
def fieldNames (fields : List Field) : Text := Text.join ", " (fields.map Field.name)

/-- The log levels, from the quietest on. -/
def logLevels : List Text := ["error", "warn", "info", "debug", "trace"]

namespace FormatFault

/-- The wording of a bad format. -/
def message : FormatFault → Text
  | unencodable what => what ++ " must not contain quotes or line breaks".toList
  | emptyString => "string must not be empty"
  | severalLines => "request must be a single line"
  | refused payload => payload

end FormatFault

namespace DataFault

/-- The wording of incomplete data. -/
def message : DataFault → Text
  | missing fields => "missing or invalid: " ++ fieldNames fields
  | refused payload => payload

end DataFault

namespace Ending

/-- The wording of how a program ended. -/
def message : Ending → Text
  | exited status => "exit status: " ++ Decimal.ofNat status
  | killed => "signal: 9 (SIGKILL)"

end Ending

namespace ServerFault

/-- The wording of a server's failure. -/
def message : ServerFault → Text
  | said payload => payload
  | silent program ending =>
      program ++ " did not announce its address (".toList ++ ending.message ++ [')']

end ServerFault

namespace ConfigFault

/-- The words before the path of a settings file that is malformed. -/
def malformedPrelude : Text := "Failed to parse"

/-- The words for settings that cannot be written. -/
def notWritablePrelude : Text := "Failed to serialize config"

/-- The wording of a fault in the settings. -/
def message : ConfigFault → Text
  | invalidValue key value => "Invalid value for " ++ key ++ ": ".toList ++ value
  | invalidLevel value =>
      "Invalid log level: " ++ value ++ ". Must be one of: ".toList ++ Text.join ", " logLevels
  | unknownKey key => "Unknown configuration key: " ++ key
  | noValue key => "No value for " ++ key
  | invalidLocation text =>
      "Invalid registry location `" ++ text ++ "`, expected host:port".toList
  | variableNotUtf8 value =>
      Location.variableName ++ ": environment variable was not valid unicode: ".toList ++
        Shown.quoted value
  | malformedFile path =>
      malformedPrelude ++ ' ' :: path ++ ": not a settings file".toList
  | notWritable => notWritablePrelude ++ ": out-of-range value for u64 type".toList

end ConfigFault

namespace RegistryError

/-- The wording of a failure. -/
def message : RegistryError → Text
  | badFormat fault => "bad format: " ++ fault.message
  | incompleteData fault => "incomplete data: " ++ fault.message
  | entryNotFound id => "no such entry ID: " ++ Decimal.ofNat id.toNat
  | stringNotFound id pos =>
      "no such string ID " ++ Decimal.ofNat pos.toNat ++ " in entry ".toList ++
        Decimal.ofNat id.toNat
  | unknownCommand command => "unknown command: " ++ command
  | server fault => "server error: " ++ fault.message
  | protocol line => "unexpected response from registry: " ++ line
  | disconnected => "registry closed the connection"
  | connection target cause =>
      "cannot connect to registry at " ++ target.render ++ ": ".toList ++ cause.message
  | config fault => "configuration error: " ++ fault.message
  | io cause => "IO error: " ++ cause.message

/-! ## Classification -/

/-- Whether the connection, and not the request, is at fault. -/
def isTransport : RegistryError → Bool
  | connection _ _ | disconnected | io _ => true
  | _ => false

/-- The exit code of a program that ends with this failure. -/
def exitCode : RegistryError → Nat
  | connection _ _ | disconnected | io _ => 1
  | badFormat _ | unknownCommand _ => 2
  | incompleteData _ => 3
  | entryNotFound _ | stringNotFound _ _ => 4
  | server _ | protocol _ => 5
  | config _ => 6

/-- The failure of a call that the store refuses. -/
def ofStore : StoreError → RegistryError
  | .incomplete missing => incompleteData (.missing missing)
  | .noEntry id => entryNotFound id
  | .noString id pos => stringNotFound id pos

end RegistryError

namespace Location

/-- Reads a location, or says that the text is none. -/
def parse (t : Text) : Except RegistryError Location :=
  match parse? t with
  | some l => .ok l
  | none => .error (.config (.invalidLocation t))

/-- The location in the bytes of an environment variable that may be unset. -/
def ofVariable : Option Bytes → Except RegistryError (Option Location)
  | none => .ok none
  | some bytes =>
      match Utf8.decode? bytes with
      | none => .error (.config (.variableNotUtf8 bytes))
      | some t => (parse t).map some

end Location

end ToolRegistry
