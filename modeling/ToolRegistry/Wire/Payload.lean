import ToolRegistry.Wire.Template

/-!
# The texts of replies

The first line of a reply carries a text after its status. Those texts are
collected here: most of them are templates, and the ones that name a fault
are the words by which a client recognises it.
-/

namespace ToolRegistry.Wire.Payload

/-! ## The greeting -/

/-- Host, port, version and build of a server that greets a client. -/
def welcome : Text := "{}:{} PERISCOPE registry server ver. {} ({})"

/-- The version in the greeting. -/
def serverVersion : Text := "0.1.0"

/-- The build in the greeting. -/
def serverBuild : Text := "-"

/-! ## Success -/

/-- The answer to a request to end the session. -/
def quitting : Text := "{}:{} PERISCOPE registry server closing connection"

/-- The text before the list of commands. -/
def help : Text := "showing available commands"

/-- The id of a new entry. -/
def created : Text := "entry ID is {}"

/-- The text before the entries found. -/
def found : Text := "displaying search results"

/-- The id of a changed entry. -/
def changed : Text := "applied changes to entry {}"

/-- The id of a removed entry. -/
def deleted : Text := "entry {} deleted"

/-- How many entries are listed. -/
def listed : Text := "{} entries in registry"

/-- The id of the entry shown. -/
def fetched : Text := "showing entry {}"

/-- How many entries were removed. -/
def cleaned : Text := "{} entries deleted"

/-- The position of a new text. -/
def stringAdded : Text := "string ID is {}"

/-- Position, entry id and size in bytes of the text shown. -/
def stringFetched : Text := "string {} of entry {} size {}"

/-- Position and entry id of a removed text. -/
def stringDeleted : Text := "deleted string {} of entry {}"

/-- How many texts are listed, and of which entry. -/
def stringsListed : Text := "listing {} strings for entry {}"

/-- How many texts an entry has. -/
def stringsCounted : Text := "{} strings stored for entry {}"

/-! ## Failure -/

/-- The words before a command that nobody knows. -/
def unknownPrelude : Text := "unknown command: "

/-- The first word of the line names no command. -/
def unknownCommand : Text := unknownPrelude ++ "{}".toList

/-- The request is malformed. -/
def badFormat : Text := "bad format."

/-- The entry would lack a value. -/
def incomplete : Text := "incomplete data."

/-- No entry has this id. -/
def noEntry : Text := "no such entry ID"

/-- The entry has no text at this position. -/
def noString : Text := "no such string ID"

end ToolRegistry.Wire.Payload
