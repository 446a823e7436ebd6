import ToolRegistry.Settings

/-!
# Single settings

Each of the eleven settings has a path, its section and its name with a dot
between them, and a written form, by which the command line shows and changes
it. Writing a setting checks the text first, so settings that cannot be
understood leave everything as it was.

The two settings that may be unset have no written form then, and are unset
by writing the empty text.
-/

namespace ToolRegistry

/-- The name of a setting. -/
inductive Setting where
  | registryHost
  | registryPort
  | initHost
  | initPort
  | serverHost
  | bindRetries
  | maxPortStep
  | maxLineLength
  | connectAttempts
  | connectDelay
  | logLevel
deriving DecidableEq, Repr

namespace Setting

/-- All settings, in the order of the file. -/
def all : List Setting :=
  [registryHost, registryPort, initHost, initPort, serverHost, bindRetries, maxPortStep,
    maxLineLength, connectAttempts, connectDelay, logLevel]

/-- The path of a setting. -/
def path : Setting → Text
  | registryHost => "registry.host"
  | registryPort => "registry.port"
  | initHost => "registry.init_host"
  | initPort => "registry.init_port"
  | serverHost => "server.host"
  | bindRetries => "server.bind_retries"
  | maxPortStep => "server.max_port_step"
  | maxLineLength => "server.max_line_len"
  | connectAttempts => "client.connect_attempts"
  | connectDelay => "client.connect_delay_ms"
  | logLevel => "logging.level"

/-- The setting with a path. -/
def ofPath? (path : Text) : Option Setting := all.find? (·.path = path)

end Setting

namespace Settings

/-! ## Showing -/

/-- The written form of a setting. -/
def read (s : Settings) : Setting → Option Text
  | .registryHost => some s.registry.host
  | .registryPort => some (Decimal.ofNat s.registry.port.toNat)
  | .initHost => s.registry.initHost
  | .initPort => s.registry.initPort.map fun port => Decimal.ofNat port.toNat
  | .serverHost => some s.server.host
  | .bindRetries => some (Decimal.ofNat s.server.bindRetries.toNat)
  | .maxPortStep => some (Decimal.ofNat s.server.maxPortStep.toNat)
  | .maxLineLength => some (Decimal.ofNat s.server.maxLineLength.toNat)
  | .connectAttempts => some (Decimal.ofNat s.client.connectAttempts.toNat)
  | .connectDelay => some (Decimal.ofNat s.client.connectDelay.toNat)
  | .logLevel => some s.logging.level

/-- The written form of the setting with a path. -/
def get (s : Settings) (path : Text) : Option Text := (Setting.ofPath? path).bind s.read

/-! ## Changing -/

/-- The settings with another section about the registry. -/
def withRegistry (s : Settings) (r : RegistrySettings) : Settings := { s with registry := r }

/-- The settings with another section about the server. -/
def withServer (s : Settings) (r : ServerSettings) : Settings := { s with server := r }

/-- The settings with another section about clients. -/
def withClient (s : Settings) (r : ClientSettings) : Settings := { s with client := r }

/-- The text, unless it is empty. -/
def unlessEmpty (t : Text) : Option Text := if t = [] then none else some t

/-- The settings with a setting read from its written form; `none` if the text is not one. -/
def write? (s : Settings) (k : Setting) (t : Text) : Option Settings :=
  match k with
  | .registryHost => some (s.withRegistry { s.registry with host := t })
  | .registryPort => (Decimal.uint16? t).map fun n => s.withRegistry { s.registry with port := n }
  | .initHost => some (s.withRegistry { s.registry with initHost := unlessEmpty t })
  | .initPort =>
      if t = [] then some (s.withRegistry { s.registry with initPort := none })
      else (Decimal.uint16? t).map fun n => s.withRegistry { s.registry with initPort := some n }
  | .serverHost => some (s.withServer { s.server with host := t })
  | .bindRetries => (Decimal.uint32? t).map fun n => s.withServer { s.server with bindRetries := n }
  | .maxPortStep => (Decimal.uint16? t).map fun n => s.withServer { s.server with maxPortStep := n }
  | .maxLineLength =>
      (Decimal.uint64? t).map fun n => s.withServer { s.server with maxLineLength := n }
  | .connectAttempts =>
      (Decimal.uint32? t).map fun n => s.withClient { s.client with connectAttempts := n }
  | .connectDelay =>
      (Decimal.uint64? t).map fun n => s.withClient { s.client with connectDelay := n }
  | .logLevel => if logLevels.contains t then some { s with logging := ⟨t⟩ } else none

/-- What is wrong with a text that is no written form of a setting. -/
def fault (k : Setting) (t : Text) : ConfigFault :=
  match k with
  | .logLevel => .invalidLevel t
  | k => .invalidValue k.path t

/-- The settings with the setting with a path read from its written form. -/
def set (s : Settings) (path value : Text) : Except RegistryError Settings :=
  match Setting.ofPath? path with
  | none => .error (.config (.unknownKey path))
  | some k =>
      match s.write? k value with
      | some s => .ok s
      | none => .error (.config (fault k value))

end Settings

end ToolRegistry
