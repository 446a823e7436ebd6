import ToolRegistry.CommandLine.Finished
import ToolRegistry.CommandLine.Surroundings

/-!
# The server program

The server program finds out on which port to listen: the one in its
arguments, or that of the location in the environment, or the one in its
settings. Then it binds, writes down where it listens if it is asked to, and
announces it on a line of its own. From then on it serves connections until
it is interrupted.

A failure with a cause is reported together with the cause.
-/

namespace ToolRegistry.CommandLine

/-- A call of the server program. -/
structure ServerCall where
  /-- The first port to try, if it is said. -/
  port : Option UInt16
  /-- The address to bind to, if it is said. -/
  host : Option Text
  /-- The host to advertise, if it is said. -/
  advertise : Option Text
  /-- Which settings file to use, if it is said. -/
  file : Option Text
  /-- Whether to write down where the server listens. -/
  record : Bool
deriving DecidableEq, Repr

/-! ## Arguments -/

/-- A port in an argument. -/
def port? (t : Text) : Option UInt16 := (natural? 16 t).map UInt16.ofNat

/-- What may be given to the server program. -/
def serverLevel : Level :=
  .mk ⟨"Periscope registry server",
      [{ name := "host" }, { name := "advertise" },
        { name := "config", accepts := fun t => t ≠ [] },
        { name := "write-config", hasValue := false }],
      [{ accepts := fun t => (port? t).isSome, needed := false }]⟩ []

/-- Reads the arguments of the server program. -/
def readServerCall (args : List Text) : Except Stop ServerCall :=
  match readArguments "psc-regsrv" serverLevel args with
  | .error s => .error s
  | .ok gs =>
      match gs with
      | [g] => .ok {
          port := g.operands.head? >>= port?
          host := g.option? "host"
          advertise := g.option? "advertise"
          file := g.option? "config"
          record := g.has "write-config" }
      | _ => .error .misuse

/-! ## Failures -/

/-- Why the server program fails. -/
inductive ServerFailure where
  /-- A step fails. -/
  | registry (e : RegistryError)
  /-- No port can be had. -/
  | unbound (host : Text) (port : UInt16) (cause : SystemError)
deriving DecidableEq, Repr

namespace ServerFailure

/-- The wording of a failure. -/
def message : ServerFailure → Text
  | registry e => e.message
  | unbound host port _ =>
      "Failed to bind registry server on " ++ host ++ ':' :: Decimal.ofNat port.toNat

/-- The cause of a failure, if it has one. -/
def cause? : ServerFailure → Option SystemError
  | registry (.io e) => some e
  | registry (.connection _ e) => some e
  | registry _ => none
  | unbound _ _ e => some e

/-- The wording of a failure together with its cause. -/
def report (f : ServerFailure) : Text :=
  match f.cause? with
  | none => f.message
  | some e => f.message ++ "\n\nCaused by:\n    ".toList ++ e.message

end ServerFailure

/-! ## Starting -/

/-- A server that listens. -/
structure Listening where
  /-- The address it is bound to. -/
  address : Text
  /-- How it serves a connection. -/
  session : Session
deriving DecidableEq, Repr

/-- The line by which a server tells where it listens. -/
def Listening.announcement (l : Listening) : Text := l.session.location.announcement ++ ['\n']

/-- How a server called like this listens. -/
def ServerCall.listenOptions (call : ServerCall) (s : Settings) (told : Option Location) :
    ListenOptions :=
  let o := s.listenOptions (call.port <|> told.map Location.port)
  { o with host := call.host.getD o.host, advertise := call.advertise <|> o.advertise }

/-- Starts a server: what listens, or why nothing does, and the file system afterwards. -/
def ServerCall.start (call : ServerCall) (m : Machine) (choices : Nat → Nat)
    (place : Surroundings) (fs : FileSystem) : Except ServerFailure Listening × FileSystem :=
  let file := place.settingsFile call.file
  match Settings.load fs file with
  | .error e => (.error (.registry e), fs)
  | .ok s =>
      match Location.ofVariable place.registry with
      | .error e => (.error (.registry e), fs)
      | .ok told =>
          let o := call.listenOptions s told
          match Listen.endpoint m o choices with
          | .error e => (.error (.unbound o.host o.port e), fs)
          | .ok bound =>
              let session := Listen.session m o bound
              let listening : Listening := ⟨bound.1.render, session⟩
              if call.record then
                match (s.recordLocation session.location).save fs file with
                | (.error e, fs) => (.error (.registry e), fs)
                | (.ok (), fs) => (.ok listening, fs)
              else (.ok listening, fs)

/-- Starts the server program: what listens, or how the program ends, and the file system
afterwards. -/
def startServer (m : Machine) (choices : Nat → Nat) (place : Surroundings) (args : List Text)
    (fs : FileSystem) : Except Finished Listening × FileSystem :=
  match readServerCall args with
  | .error s => (.error (.ofStop s), fs)
  | .ok call =>
      match call.start m choices place fs with
      | (.error f, fs) => (.error (.complain f.report 1), fs)
      | (.ok l, fs) => (.ok l, fs)

end ToolRegistry.CommandLine
