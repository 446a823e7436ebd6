import ToolRegistry.Text

/-!
# Decimal numbers

Numbers are written in decimal with no leading zero and with a minus sign in
front of a negative one. Reading is more generous in one fixed way: leading
zeros do not matter, a plus sign may stand in front, and a minus sign may
stand in front of a number that is allowed to be negative. A sign alone is no
number, and neither is the empty text.

Every number of the registry has a width (a port has sixteen bits, an entry
id thirty-two, a position sixty-four), and a text whose value does not fit is
refused rather than wrapped. `ofNat` and `ofInt` write; `nat?` and `int?` and
their bounded forms read back.
-/

namespace ToolRegistry.Decimal

/-! ## Writing -/

/-- The decimal digits of `n`, without leading zeros. -/
def ofNat (n : Nat) : Text := Nat.toDigits 10 n

/-- The decimal form of `i`, with a minus sign in front of a negative number. -/
def ofInt : Int → Text
  | .ofNat n => ofNat n
  | .negSucc n => '-' :: ofNat (n + 1)

theorem isDigit_of_mem_ofNat {n : Nat} {c : Char} (h : c ∈ ofNat n) : c.isDigit = true :=
  Nat.isDigit_of_mem_toDigits (by decide) (by decide) h

theorem not_mem_ofNat {c : Char} (hc : c.isDigit = false) (n : Nat) : c ∉ ofNat n := fun h =>
  absurd (isDigit_of_mem_ofNat h) (by simp [hc])

/-! ## Reading -/

/-- The value of a text of one or more decimal digits. -/
def digits? (t : Text) : Option Nat :=
  if t ≠ [] ∧ t.all Char.isDigit then some (Nat.ofDigitChars 10 t 0) else none

/-- The value of one or more digits, with an optional plus sign in front. -/
def nat? : Text → Option Nat
  | '+' :: rest => digits? rest
  | t => digits? t

/-- The value of one or more digits, with an optional sign in front. -/
def int? : Text → Option Int
  | '-' :: rest => (digits? rest).map fun n => -(n : Int)
  | t => (nat? t).map Int.ofNat

/-- What was written is read back. -/
theorem digits?_ofNat (n : Nat) : digits? (ofNat n) = some n := by
  have hd : (Nat.toDigits 10 n).all Char.isDigit = true :=
    List.all_eq_true.mpr fun _ hc => isDigit_of_mem_ofNat hc
  rw [digits?, ofNat, if_pos ⟨Nat.toDigits_ne_nil, hd⟩,
    Nat.ofDigitChars_toDigits (by decide) (by decide)]

/-! ## Numbers of a fixed width -/

/-- A natural number below `2 ^ bits`. -/
def below? (bits : Nat) (t : Text) : Option Nat := (nat? t).filter (· < 2 ^ bits)

/-- A port number: sixteen bits. -/
def uint16? (t : Text) : Option UInt16 := (below? 16 t).map UInt16.ofNat

/-- An entry id or a count of retries: thirty-two bits. -/
def uint32? (t : Text) : Option UInt32 := (below? 32 t).map UInt32.ofNat

/-- A position or a limit: sixty-four bits. -/
def uint64? (t : Text) : Option UInt64 := (below? 64 t).map UInt64.ofNat

/-- A number that fits in `bits` bits with a sign. -/
def signed? (bits : Nat) (t : Text) : Option Int :=
  (int? t).filter fun i => -2 ^ (bits - 1) ≤ i ∧ i < 2 ^ (bits - 1)

/-- A value of a numeric field: thirty-two bits with a sign. -/
def int32? (t : Text) : Option Int32 := (signed? 32 t).map Int32.ofInt

end ToolRegistry.Decimal
