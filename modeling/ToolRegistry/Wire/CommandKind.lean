import ToolRegistry.Text

/-!
# The commands

There are fourteen commands. Each has the name that requests begin with, a
short description for the help reply, and a usage line for the reply to a
malformed request. Names are matched without regard to the case of ASCII
letters, and deleting an entry may be asked for under a short name as well.
-/

namespace ToolRegistry.Wire

/-- One of the fourteen commands. -/
inductive CommandKind where
  | quit
  | help
  | create
  | search
  | change
  | delete
  | list
  | fetch
  | clean
  | addString
  | getString
  | deleteString
  | listStrings
  | countStrings
deriving DecidableEq, Repr

namespace CommandKind

/-- Every command, in the order of the help reply. -/
def all : List CommandKind :=
  [quit, help, create, search, change, delete, list, fetch, clean, addString, getString,
    deleteString, listStrings, countStrings]

/-- The name that a request begins with. -/
def name : CommandKind → Text
  | quit => "QUIT"
  | help => "HELP"
  | create => "CREATE"
  | search => "SEARCH"
  | change => "CHANGE"
  | delete => "DELETE"
  | list => "LIST"
  | fetch => "SHOW"
  | clean => "CLEAN"
  | addString => "ADDSTR"
  | getString => "GETSTR"
  | deleteString => "DELSTR"
  | listStrings => "LISTSTR"
  | countStrings => "COUNTSTR"

/-- A second name for `delete`. -/
def deleteAlias : Text := "DEL"

/-- The command that a word names, without regard to the case of ASCII letters. -/
def ofToken? (token : Text) : Option CommandKind :=
  if token.sameIgnoringCase deleteAlias then some delete
  else all.find? fun kind => kind.name.sameIgnoringCase token

/-- What a command does, for the help reply. -/
def description : CommandKind → Text
  | quit => "terminates the connection"
  | help => "shows this message"
  | create => "creates a new entry"
  | search => "searches for entries"
  | change => "changes an existing entry"
  | delete => "deletes an entry"
  | list => "lists all entries"
  | fetch => "shows a specific entry"
  | clean => "deletes all entries (** DEBUGGING / use with care **)"
  | addString => "adds a string to an entry"
  | getString => "retrieves a specific string"
  | deleteString => "deletes the specified string"
  | listStrings => "lists all string for the specified entry"
  | countStrings => "counts the number of available strings for the specified entry"

/-- The optional field pairs, as a usage line names them. -/
def optionalFields : Text :=
  "[app=<app_name>] [site=<site_name>] [mach=<mach_name>] [node=<node_name>] " ++
    "[port=<port>] [pid=<pid>] [comp=<component>] [tag=<tag>]".toList

/-- How to write a request, for the reply to one that is malformed. -/
def usage : CommandKind → Text
  | quit => "Usage: QUIT"
  | help => "Usage: HELP"
  | create =>
      "Usage: CREATE app=<app_name> site=<site_name> mach=<mach_name> node=<node_name> " ++
        "port=<port> pid=<pid> comp=<component> tag=<tag>".toList
  | search => "Usage: SEARCH " ++ optionalFields
  | change => "Usage: CHANGE <entry id> " ++ optionalFields
  | delete => "Usage: DELETE <entry id>"
  | list => "Usage: LIST"
  | fetch => "Usage: SHOW <entry id>"
  | clean => "Usage: CLEAN"
  | addString => "Usage: ADDSTR <entry id> <string>"
  | getString => "Usage: GETSTR <entry id> <string id>"
  | deleteString => "Usage: DELSTR <entry id> <string id>"
  | listStrings => "Usage: LISTSTR <entry id>"
  | countStrings => "Usage: COUNTSTR <entry id>"

/-- Every command is found by its own name. -/
theorem ofToken?_name (kind : CommandKind) : ofToken? kind.name = some kind := by
  cases kind <;> decide

end CommandKind

end ToolRegistry.Wire
