import ToolRegistry.CommandLine.Arguments
import ToolRegistry.Error
import ToolRegistry.Wire.Payload

/-!
# How a program ends

A program that has ended leaves what it wrote as its result, what it wrote
about a failure, and its exit code. A call that breaks the rules for
arguments fails with a code of its own and with no word about the registry.
-/

namespace ToolRegistry.CommandLine

/-- What a program leaves. -/
structure Finished where
  /-- What it wrote as its result. -/
  output : Text := []
  /-- What it wrote about its failure. -/
  complaint : Option Text := none
  code : Nat := 0
deriving DecidableEq, Repr

namespace Finished

/-- The exit code of a call that breaks the rules for arguments. -/
def misuseCode : Nat := 2

/-- A failure, in the words of `message`. -/
def complain (message : Text) (code : Nat) : Finished where
  complaint := some ("Error: " ++ message ++ ['\n'])
  code := code

/-- A program that is not run. -/
def ofStop : Stop → Finished
  | .misuse => { code := misuseCode }
  | .version title => { output := title ++ ' ' :: Wire.Payload.serverVersion ++ ['\n'] }
  | .help title about =>
      { output := about ++ "\n\nUsage: ".toList ++ title ++ " [OPTIONS]\n".toList }

end Finished

end ToolRegistry.CommandLine
