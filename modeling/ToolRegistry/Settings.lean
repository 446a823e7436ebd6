import ToolRegistry.Listen

/-!
# Settings

The settings of the registry's programs, in four sections: where clients find
the registry, how a server listens, how often a client tries to connect, and
how much is logged. A settings file may leave out anything, and what it
leaves out has the value given here as its default.

A server is told two things on top of its own section: `initHost`, the host
to advertise, and `initPort`, the first port to try. They belong to the
section about the registry, because they say where the registry is going to
be found.
-/

namespace ToolRegistry

/-- Where the registry is found. -/
structure RegistrySettings where
  host : Text := "localhost"
  port : UInt16 := 50001
  /-- The host that a server advertises, if it is not its own. -/
  initHost : Option Text := none
  /-- The first port that a server tries, if it is not `port`. -/
  initPort : Option UInt16 := none
deriving DecidableEq, Repr

/-- How a server listens. -/
structure ServerSettings where
  /-- The address to bind to. -/
  host : Text := "0.0.0.0"
  /-- How many more ports may be tried after the first. -/
  bindRetries : UInt32 := 10
  /-- The greatest step between two ports that are tried. -/
  maxPortStep : UInt16 := 16
  /-- The greatest length of a request line in bytes. -/
  maxLineLength : UInt64 := 1048576
deriving DecidableEq, Repr

/-- How often a client tries to connect. -/
structure ClientSettings where
  connectAttempts : UInt32 := 10
  /-- How many milliseconds pass between two attempts. -/
  connectDelay : UInt64 := 100
deriving DecidableEq, Repr

/-- How much is logged. -/
structure LoggingSettings where
  level : Text := "info"
deriving DecidableEq, Repr

/-- All settings. -/
structure Settings where
  registry : RegistrySettings := {}
  server : ServerSettings := {}
  client : ClientSettings := {}
  logging : LoggingSettings := {}
deriving DecidableEq, Repr

namespace Settings

/-- How a server listens that is asked for this port, or for none in particular. -/
def listenOptions (s : Settings) (port : Option UInt16) : ListenOptions where
  host := s.server.host
  port := (port <|> s.registry.initPort).getD s.registry.port
  advertise := s.registry.initHost
  retries := s.server.bindRetries
  maxStep := s.server.maxPortStep
  limit := s.server.maxLineLength

/-- The settings that tell where a server was found to listen. -/
def recordLocation (s : Settings) (l : Location) : Settings :=
  { s with registry := { s.registry with host := l.host, port := l.port } }

/-- Where the registry is: where `told` says, or else where the settings say. -/
def resolve (s : Settings) (told : Option Text) : Except RegistryError Location :=
  match told with
  | some t => Location.parse t
  | none => .ok ⟨s.registry.host, s.registry.port⟩

end Settings

end ToolRegistry
