import ToolRegistry.Text

/-!
# Tokens

A request line begins with words separated by blanks: the name of the
command, then ids and positions. `splitToken` takes one such word off the
front and leaves everything from the next blank on, so that whoever reads the
rest decides what it is: another word, a list of pairs, or a quoted text.
-/

namespace ToolRegistry.Wire

/-- The first word of a text, after any blanks, and what follows it. -/
def splitToken (t : Text) : Text × Text := (t.trimBlanks.untilBlank, t.trimBlanks.fromBlank)

/-- A word and its rest together are the text without its leading blanks. -/
theorem splitToken_append (t : Text) : (splitToken t).1 ++ (splitToken t).2 = t.trimBlanks :=
  Text.untilBlank_append_fromBlank _

end ToolRegistry.Wire
