import ToolRegistry.Text.Decimal
import ToolRegistry.Text.WhiteSpace

/-!
# Registry locations

A registry is found by a host and a port, written `host:port`. The host is
whatever stands before the last colon, so an address that itself holds colons
needs no brackets, and it may hold anything except that it is not empty.

White space around a location is ignored. A server that listens announces its
location as an assignment, `PSC_REGISTRY=host:port`, on a line of its own;
the same name is the environment variable by which clients are told where the
registry is.
-/

namespace ToolRegistry

/-- Where a registry listens. -/
structure Location where
  host : Text
  port : UInt16
deriving DecidableEq, Repr

namespace Location

/-- The written form of a location. -/
def render (l : Location) : Text := l.host ++ ':' :: Decimal.ofNat l.port.toNat

/-- Reads a location. -/
def parse? (t : Text) : Option Location := do
  let (host, port) ← t.trim.splitAtLast? ':'
  if host = [] then none
  else
    let port ← Decimal.uint16? port
    return ⟨host, port⟩

/-! ## Announcements -/

/-- The name under which a location is announced, and of the variable that holds one. -/
def variableName : Text := "PSC_REGISTRY"

/-- The line by which a server tells where it listens. -/
def announcement (l : Location) : Text := variableName ++ '=' :: l.render

/-- Reads the line by which a server tells where it listens. -/
def ofAnnouncement? (line : Text) : Option Location := do
  let rest ← Text.after? variableName line.trim
  let value ← Text.after? ['='] rest
  parse? value

end Location

end ToolRegistry
