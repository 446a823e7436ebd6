import ToolRegistry.Wire.Pair
import ToolRegistry.Wire.Token

/-!
# A free text as an argument

The request that attaches a text to an entry carries it as its last argument,
either in quotes or as one bare word. An empty text cannot be attached, in
either form. What follows the argument is ignored, and a bare word may hold
quotes as long as it does not begin with one.
-/

namespace ToolRegistry.Wire

/-- Refuses an empty text. -/
def nonEmpty (t : Text) : Except GrammarError Text :=
  if t = [] then .error .missingArgument else .ok t

/-- Reads a text argument: a quoted run or one word. -/
def parseTextArgument (t : Text) : Except GrammarError Text :=
  match t.trimBlanks with
  | '"' :: rest =>
      match takeQuoted rest with
      | .error e => .error e
      | .ok (quoted, _) => nonEmpty quoted
  | bare => nonEmpty bare.untilBlank

end ToolRegistry.Wire
