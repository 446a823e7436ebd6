import ToolRegistry.FileSystem
import ToolRegistry.Settings.Document

/-!
# Settings files

Settings are loaded from a file and saved to one. A file that does not exist
is as good as an empty one. Saving goes through a temporary file next to the
target, which is then renamed, so that nobody ever finds a file that is only
half written. The text is made before anything is written, so settings that
cannot be written leave every file alone.
-/

namespace ToolRegistry.Settings

/-- The name of the settings file in the home directory. -/
def fileName : Text := ".periscope.toml"

/-- Loads settings. -/
def load (fs : FileSystem) (p : Path) : Except RegistryError Settings :=
  if fs.contains p then
    match fs.read p with
    | .error e => .error (.io e)
    | .ok bytes =>
        match Utf8.decode? bytes with
        | none => .error (.io .notUtf8)
        | some t =>
            match parse? t with
            | some s => .ok s
            | none => .error (.config (.malformedFile p.render))
  else .ok {}

/-- Puts a text in place of a file, by way of the temporary file. -/
def replaceFile (fs : FileSystem) (p : Path) (t : Text) : Except RegistryError Unit × FileSystem :=
  match fs.write p.temporary (Utf8.encode t) with
  | .error e => (.error (.io e), fs)
  | .ok written =>
      match written.rename p.temporary p with
      | .error e => (.error (.io e), written)
      | .ok renamed => (.ok (), renamed)

/-- Saves settings: the outcome, and the file system afterwards. -/
def save (s : Settings) (fs : FileSystem) (p : Path) : Except RegistryError Unit × FileSystem :=
  match fs.createDirectories p.parent with
  | (.error e, fs) => (.error (.io e), fs)
  | (.ok (), fs) =>
      match s.display with
      | .error e => (.error e, fs)
      | .ok t => replaceFile fs p t

end ToolRegistry.Settings
