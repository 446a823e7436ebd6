import ToolRegistry.Settings.File

/-!
# Surroundings

What a program finds where it is run, apart from its arguments: the home
directory, the directory it is run in, and the value of the environment
variable that tells where the registry is. Unless a settings file is named,
the one in the home directory is used.
-/

namespace ToolRegistry.CommandLine

/-- Where a program is run. -/
structure Surroundings where
  home : Path
  /-- The directory that relative paths start from. -/
  current : Path
  /-- The value of the variable that tells where the registry is, if it is set. -/
  registry : Option Bytes
deriving DecidableEq, Repr

/-- The settings file that is used when `said` is named. -/
def Surroundings.settingsFile (s : Surroundings) (said : Option Text) : Path :=
  match said with
  | some t => Path.ofText s.current t
  | none => ⟨s.home.parts ++ [Settings.fileName]⟩

end ToolRegistry.CommandLine
