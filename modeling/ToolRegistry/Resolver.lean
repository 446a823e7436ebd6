import ToolRegistry.Error
import ToolRegistry.IpAddress

/-!
# Which address a host is

A host is told by an address or by a name, and what a name stands for is not
decided here: a machine asks others about it, and the answer may be an address
of either version, or none. So it is a parameter of everything that listens.
What is known of a machine is which address a socket gets that it binds to a
host and a port, or why it gets none.

A machine that asks nobody knows itself, by its usual name and by the addresses
of version six that say so, and whatever is written as an address of version
four. Every other host is unknown to it.
-/

namespace ToolRegistry

/-- How a machine finds out which address a host is. -/
class Resolver where
  /-- The address of a socket that is bound to a host and a port, or why there is none. -/
  bound : Text → UInt16 → Except SystemError IpAddress

namespace Resolver

/-- The refusal of a host that nobody knows. -/
def unknownHost : SystemError :=
  .other "failed to lookup address information: Name or service not known"

/-- The address of a host, as far as it is known without asking anybody. -/
def known? (host : Text) : Option IpAddress :=
  if host = "localhost".toList then some (.v4 .own)
  else if host = "::1".toList then some (.v6 .own)
  else if host = "::".toList then some (.v6 .every)
  else (Address.parse? host).map .v4

/-- A machine that asks nobody. -/
instance alone : Resolver where
  bound host _ :=
    match known? host with
    | some ip => .ok ip
    | none => .error unknownHost

end Resolver

/-- The usual form of the address of a host, or the host itself if there is none. -/
def Address.shown [r : Resolver] (host : Text) : Text :=
  match r.bound host 0 with
  | .ok ip => ip.render
  | .error _ => host

end ToolRegistry
