import ToolRegistry.Settings
import ToolRegistry.Toml.Document
import ToolRegistry.Toml.Section

/-!
# Settings as a document

Settings are kept as a TOML document with one section for each of the four
groups. Reading is lenient about what is there and strict about what it means:
sections and keys may be missing, and those that mean nothing are ignored, but
a value of the wrong type or outside the range of its setting makes the whole
document unreadable.

A section is normally a table, whose keys name the settings. It may also be an
array, whose elements are the settings in the order of the section, and what
the array does not reach has its default. A date in place of a section says
nothing about any setting.

Writing always produces every setting that has a value. It can fail for one
reason only: the two settings of sixty-four bits may be too large for an
integer of a document.
-/

namespace ToolRegistry.Settings

open Toml

/-! ## Reading -/

/-- What a section says: the value at a position and under a name. -/
abbrev Source := Nat → Text → Option Value

/-- What the section under a key says; `none` if no section can be written like that. -/
def source? (document : Entries) (name : Text) : Option Source :=
  match document.get? name with
  | none | some (.moment _) => some fun _ _ => none
  | some (.table _ entries) => some fun _ key => Entries.get? entries key
  | some (.array items) => some fun position _ => items[position]?
  | some (.tables items) => some fun position _ => items[position]?.map (.table .header)
  | some _ => none

/-- A text setting; `none` if it is given and is no text. -/
def textAt (default : Text) : Option Value → Option Text
  | none => some default
  | some (.string t) => some t
  | some _ => none

/-- A natural number below `2 ^ bits`; `none` if it is given and is no such number. -/
def natAt (bits default : Nat) : Option Value → Option Nat
  | none => some default
  | some (.integer i) => if 0 ≤ i ∧ i < 2 ^ bits then some i.toNat else none
  | some _ => none

/-- The section about the registry. -/
def registryOf (at? : Source) : Option RegistrySettings := do
  let plain : RegistrySettings := {}
  let host ← textAt plain.host (at? 0 "host")
  let port ← natAt 16 plain.port.toNat (at? 1 "port")
  let initHost ← match at? 2 "init_host" with
    | none => some none
    | v => (textAt [] v).map some
  let initPort ← match at? 3 "init_port" with
    | none => some none
    | v => (natAt 16 0 v).map fun n => some (UInt16.ofNat n)
  return ⟨host, UInt16.ofNat port, initHost, initPort⟩

/-- The section about the server. -/
def serverOf (at? : Source) : Option ServerSettings := do
  let plain : ServerSettings := {}
  let host ← textAt plain.host (at? 0 "host")
  let retries ← natAt 32 plain.bindRetries.toNat (at? 1 "bind_retries")
  let step ← natAt 16 plain.maxPortStep.toNat (at? 2 "max_port_step")
  let limit ← natAt 64 plain.maxLineLength.toNat (at? 3 "max_line_len")
  return ⟨host, UInt32.ofNat retries, UInt16.ofNat step, UInt64.ofNat limit⟩

/-- The section about clients. -/
def clientOf (at? : Source) : Option ClientSettings := do
  let plain : ClientSettings := {}
  let attempts ← natAt 32 plain.connectAttempts.toNat (at? 0 "connect_attempts")
  let delay ← natAt 64 plain.connectDelay.toNat (at? 1 "connect_delay_ms")
  return ⟨UInt32.ofNat attempts, UInt64.ofNat delay⟩

/-- The section about logging. -/
def loggingOf (at? : Source) : Option LoggingSettings := do
  let plain : LoggingSettings := {}
  let level ← textAt plain.level (at? 0 "level")
  return ⟨level⟩

/-- The settings in a document. -/
def ofDocument? (document : Entries) : Option Settings := do
  let registry ← source? document "registry" >>= registryOf
  let server ← source? document "server" >>= serverOf
  let client ← source? document "client" >>= clientOf
  let logging ← source? document "logging" >>= loggingOf
  return ⟨registry, server, client, logging⟩

/-- Reads settings. -/
def parse? (t : Text) : Option Settings := Toml.parse? t >>= ofDocument?

/-! ## Writing -/

/-- A line with a text. -/
def textLine (key t : Text) : Text × Value := (key, .string t)

/-- A line with a number. -/
def numberLine (key : Text) (n : Nat) : Text × Value := (key, .integer n)

/-- The lines about the registry. -/
def registryLines (r : RegistrySettings) : Entries :=
  [textLine "host" r.host, numberLine "port" r.port.toNat] ++
    (r.initHost.map (textLine "init_host")).toList ++
    (r.initPort.map fun port => numberLine "init_port" port.toNat).toList

/-- The lines about the server. -/
def serverLines (r : ServerSettings) : Entries :=
  [textLine "host" r.host, numberLine "bind_retries" r.bindRetries.toNat,
    numberLine "max_port_step" r.maxPortStep.toNat,
    numberLine "max_line_len" r.maxLineLength.toNat]

/-- The lines about clients. -/
def clientLines (r : ClientSettings) : Entries :=
  [numberLine "connect_attempts" r.connectAttempts.toNat,
    numberLine "connect_delay_ms" r.connectDelay.toNat]

/-- The lines about logging. -/
def loggingLines (r : LoggingSettings) : Entries := [textLine "level" r.level]

/-- The sections of a document with these settings. -/
def sections (s : Settings) : List Section :=
  [⟨"registry", registryLines s.registry⟩, ⟨"server", serverLines s.server⟩,
    ⟨"client", clientLines s.client⟩, ⟨"logging", loggingLines s.logging⟩]

/-- A document, or the refusal of settings that have none. -/
def orNotWritable : Option Text → Except RegistryError Text
  | some t => .ok t
  | none => .error (.config .notWritable)

/-- Writes settings. -/
def display (s : Settings) : Except RegistryError Text := orNotWritable (Toml.render? s.sections)

end ToolRegistry.Settings
