import ToolRegistry.Address

/-!
# Addresses of both versions

An address is of version four or of version six. One of version six is eight
groups of sixteen bits, which are written in hexadecimal with colons between
them. The first of the longest runs of zero groups, if it has two or more, is
written as `::`, so the address of the machine itself is `::1`. An address of
version four that stands for one of version six is written in its own form
behind `::ffff:`.

Each version has an address that stands for every address of a machine, and a
socket may be bound to it. It is no address under which anybody else finds that
machine.
-/

namespace ToolRegistry

/-- An address of version six. -/
structure Address6 where
  /-- The groups of sixteen bits, the first one the highest. -/
  groups : Vector UInt16 8
deriving DecidableEq, Repr

namespace Address6

/-! ## Runs of zeros -/

/-- How many zeros there are in front. -/
def zeros (groups : List UInt16) : Nat := (groups.takeWhile (· = 0)).length

/-- Where the first of the longest runs of zeros begins and how long it is. -/
def longestZeros : List UInt16 → Nat × Nat
  | [] => (0, 0)
  | g :: rest =>
      let (start, length) := longestZeros rest
      if length ≤ zeros (g :: rest) then (0, zeros (g :: rest)) else (start + 1, length)

/-! ## Writing -/

/-- Groups in hexadecimal, with colons between them. -/
def renderGroups (groups : List UInt16) : Text :=
  Text.join [':'] (groups.map fun g => Digits.lowerHex g.toNat)

/-- The address of version four that stands for this one. -/
def mapped? (a : Address6) : Option Address :=
  match a.groups.toList with
  | [0, 0, 0, 0, 0, 0xFFFF, high, low] => some ⟨high.toUInt32 * 0x10000 + low.toUInt32⟩
  | _ => none

/-- The usual form. -/
def render (a : Address6) : Text :=
  match a.mapped? with
  | some v4 => "::ffff:" ++ v4.render
  | none =>
      let groups := a.groups.toList
      let (start, length) := longestZeros groups
      if length ≤ 1 then renderGroups groups
      else
        renderGroups (groups.take start) ++ ':' :: ':' ::
          renderGroups (groups.drop (start + length))

/-- Of two runs the longer one is left out, and a single zero is written. -/
example : render ⟨#v[0x2001, 0xDB8, 0, 0, 1, 0, 0, 0]⟩ = "2001:db8:0:0:1::" ∧
    render ⟨#v[0xFE80, 0, 1, 2, 3, 4, 5, 0x10]⟩ = "fe80:0:1:2:3:4:5:10" ∧
    render ⟨#v[0, 0, 0, 0, 0, 0xFFFF, 0x7F00, 1]⟩ = "::ffff:127.0.0.1" := by
  decide +kernel

/-- The address that a machine has for itself. -/
def own : Address6 := ⟨#v[0, 0, 0, 0, 0, 0, 0, 1]⟩

/-- The address that stands for every address of a machine. -/
def every : Address6 := ⟨#v[0, 0, 0, 0, 0, 0, 0, 0]⟩

end Address6

/-- An address of either version. -/
inductive IpAddress where
  | v4 (a : Address)
  | v6 (a : Address6)
deriving DecidableEq, Repr

namespace IpAddress

/-- The usual form. -/
def render : IpAddress → Text
  | v4 a => a.render
  | v6 a => a.render

/-- Whether it stands for every address of a machine. -/
def isEvery : IpAddress → Bool
  | v4 a => a = .every
  | v6 a => a = .every

/-- The address of its version that a machine has for itself. -/
def own : IpAddress → IpAddress
  | v4 _ => v4 .own
  | v6 _ => v6 .own

end IpAddress

end ToolRegistry
