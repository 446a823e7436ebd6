import ToolRegistry.Service
import ToolRegistry.Settings

/-!
# Starting a private registry

A program that needs a registry may start one of its own. It runs the server
program and waits for the line that announces where the server listens; other
lines are passed over. A program that ends without an announcement, or says
nothing for too long and is killed, was no server.

A registry is only started where none is told: a location in the environment
is used as it is, and one that is malformed is an error and no reason to
start another registry.
-/

namespace ToolRegistry

/-- What comes of running a program that should be a server. -/
inductive ProgramRun where
  /-- It cannot be run. -/
  | refused (cause : SystemError)
  /-- It writes this much and ends with a status. -/
  | ended (output : Text) (status : Nat)
  /-- It writes this much and goes on. -/
  | running (output : Text)
deriving DecidableEq, Repr

namespace Launch

/-! ## Announcements -/

/-- The location that is announced first. -/
def announced? (output : Text) : Option Location :=
  (Text.split '\n' output).findSome? Location.ofAnnouncement?

/-- Where the program started as a server listens. -/
def locationOf (program : Text) : ProgramRun → Except RegistryError Location
  | .refused cause => .error (.io cause)
  | .ended output status =>
      match announced? output with
      | some l => .ok l
      | none => .error (.server (.silent program (.exited status)))
  | .running output =>
      match announced? output with
      | some l => .ok l
      | none => .error (.server (.silent program .killed))

/-! ## Services -/

/-- The service for a location. -/
def serviceAt (attempts : Nat) (l : Location) : Service := { location := l, attempts }

/-- Starts a registry on a port, by the run of a program on that port, and answers a service for
it. -/
def start (program : Text) (attempts : Nat) (run : ProgramRun) : Except RegistryError Service :=
  (locationOf program run).map (serviceAt attempts)

/-- A service for the registry that is told, or for one that is started on the port of the
settings; whether one was started is told as well. -/
def bootstrap (program : Text) (s : Settings) (told : Option Location)
    (run : UInt16 → ProgramRun) : Except RegistryError (Service × Bool) :=
  let attempts := s.client.connectAttempts.toNat
  match told with
  | some l => .ok (serviceAt attempts l, false)
  | none =>
      (start program attempts (run (s.listenOptions none).port)).map fun service => (service, true)

end Launch

end ToolRegistry
