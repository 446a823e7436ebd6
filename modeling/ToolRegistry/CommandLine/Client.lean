import ToolRegistry.CommandLine.Finished
import ToolRegistry.CommandLine.Report
import ToolRegistry.CommandLine.Surroundings
import ToolRegistry.Settings.Setting

/-!
# The client program

The client program reads its arguments and its settings, carries out one task
and writes the result. For a request it opens one connection, and the result
is that of the request, whether or not the connection closes well afterwards.

Settings are read before anything is done, so a malformed file stops every
task, also those that would not need it.
-/

namespace ToolRegistry.CommandLine

variable {ω : Type}

/-- Carries out a request over a connection of its own. -/
def Task.run (p : Peer ω) (f : Format) (task : Task) (target : Location) (attempts : Nat) (w : ω) :
    Except RegistryError Text × ω :=
  match Client.connect p target attempts w with
  | (.error e, w) => (.error e, w)
  | (.ok c, w) =>
      let (r, c, w) := c.perform (task.perform p f) w
      let (_, _, w) := c.perform (Client.close p) w
      (r, w)

/-- Does something to the settings, which come from the file at `file`. -/
def SettingsTask.run (s : Settings) (file : Path) (fs : FileSystem) :
    SettingsTask → Except RegistryError Text × FileSystem
  | .display => (s.display, fs)
  | .get path =>
      match s.get path with
      | some value => (.ok (line value), fs)
      | none => (.error (.config (.noValue path)), fs)
  | .set path value =>
      match s.set path value with
      | .error e => (.error e, fs)
      | .ok s =>
          match s.save fs file with
          | (.error e, fs) => (.error e, fs)
          | (.ok (), fs) => (.ok (line ("Set " ++ path ++ " = ".toList ++ value)), fs)

/-- The end of a program with this outcome. -/
def Finished.ofResult : Except RegistryError Text → Finished
  | .ok t => { output := t }
  | .error e => complain e.message e.exitCode

/-- Carries out what the program is called for. -/
def Call.run (p : Peer ω) (place : Surroundings) (call : Call) (fs : FileSystem) (w : ω) :
    Finished × FileSystem × ω :=
  let file := place.settingsFile call.file
  match Settings.load fs file with
  | .error e => (.ofResult (.error e), fs, w)
  | .ok s =>
      match call.job with
      | .settings task =>
          let (r, fs) := task.run s file fs
          (.ofResult r, fs, w)
      | .request task =>
          match (call.registry.map Except.ok).getD (s.resolve none) with
          | .error e => (.ofResult (.error e), fs, w)
          | .ok target =>
              let (r, w) := task.run p call.format target s.client.connectAttempts.toNat w
              (.ofResult r, fs, w)

/-- Runs the client program: how it ends, and the file system and the peer afterwards. -/
def runClient (p : Peer ω) (place : Surroundings) (args : List Text) (fs : FileSystem) (w : ω) :
    Finished × FileSystem × ω :=
  match readCall place.registry args with
  | .error s => (.ofStop s, fs, w)
  | .ok call => call.run p place fs w

end ToolRegistry.CommandLine
