import ToolRegistry.Text.Decimal
import ToolRegistry.Text.Digits

/-!
# Addresses

An address of version four is a number of thirty-two bits, and it is usually
written as its four bytes with dots between them. There are shorter forms: the
last of one, two, three or four numbers stands for all bytes that are left, so
`127.1` is `127.0.0.1`. Each number may be octal, which a zero in front says,
or hexadecimal, which `0x` says.

Two texts may tell the same address, and only its usual form (`render`) is
shown. That form is read back, so nothing is lost.
-/

namespace ToolRegistry

/-- An address of version four. -/
structure Address where
  /-- The four bytes, the first one the highest. -/
  value : UInt32
deriving DecidableEq, Repr

namespace Address

/-! ## Writing -/

/-- The byte that has this many bytes behind it. -/
def byte (a : Address) (behind : Nat) : Nat := a.value.toNat / 256 ^ behind % 256

/-- The four bytes in decimal, with dots between them. -/
def render (a : Address) : Text :=
  Text.join ['.'] ([3, 2, 1, 0].map fun k => Decimal.ofNat (a.byte k))

/-! ## Reading -/

/-- A number in an address. -/
def number? : Text → Option Nat
  | '0' :: 'x' :: digits => Digits.value? 16 digits
  | '0' :: 'X' :: digits => Digits.value? 16 digits
  | '0' :: d :: digits => Digits.value? 8 (d :: digits)
  | digits => Digits.value? 10 digits

/-- What numbers stand for that have this many bytes to fill: a byte each, and the last one the
rest. -/
def fill? : Nat → List Nat → Option Nat
  | bytes + 1, [n] => if n < 256 ^ (bytes + 1) then some n else none
  | bytes + 1, n :: rest =>
      if n < 256 then (fill? bytes rest).map (n * 256 ^ bytes + ·) else none
  | _, _ => none

/-- Reads an address. -/
def parse? (t : Text) : Option Address := do
  let numbers ← (Text.split '.' t).mapM number?
  let value ← fill? 4 numbers
  return ⟨UInt32.ofNat value⟩

/-- A byte that was written is read back. -/
theorem number?_ofNat {n : Nat} (h : n < 256) : number? (Decimal.ofNat n) = some n := by
  have all : ∀ n < 256, number? (Decimal.ofNat n) = some n := by decide +kernel
  exact all n h

/-- An address that was written is read back. -/
theorem parse?_render (a : Address) : parse? a.render = some a := by
  have hl (k : Nat) : a.byte k < 256 := Nat.mod_lt _ (by decide)
  have hb (k : Nat) : number? (Decimal.ofNat (a.byte k)) = some (a.byte k) := number?_ofNat (hl k)
  have hs : Text.split '.' a.render = [3, 2, 1, 0].map fun k => Decimal.ofNat (a.byte k) :=
    Text.split_join (by simp) fun t ht => by
      obtain ⟨k, _, rfl⟩ := List.mem_map.1 ht
      exact Decimal.not_mem_ofNat (by decide) _
  have hv := a.value.toNat_lt
  have hf : fill? 4 [a.byte 3, a.byte 2, a.byte 1, a.byte 0] = some a.value.toNat := by
    have h0 : a.byte 0 < 256 ^ 1 := hl 0
    simp only [fill?, if_pos (hl 3), if_pos (hl 2), if_pos (hl 1), if_pos h0, Option.map_some,
      Option.some.injEq]
    simp only [byte]
    omega
  simp [parse?, hs, hb, hf]

/-! ## Addresses of every machine -/

/-- The address that a machine has for itself. -/
def own : Address := ⟨0x7F000001⟩

/-- The address that stands for every address of a machine. -/
def every : Address := ⟨0⟩

end Address

end ToolRegistry
