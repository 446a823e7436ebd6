import ToolRegistry.Text

/-!
# Digits of other bases

Some texts hold numbers that are not decimal: escapes and bytes are written in
hexadecimal, and the parts of an address may be octal or hexadecimal as well.
The digits above nine are the letters from `a` on, in either case when they
are read.
-/

namespace ToolRegistry.Digits

/-! ## Reading -/

/-- The value of a hexadecimal digit. -/
def hex? (c : Char) : Option Nat :=
  if c.isDigit then some (c.toNat - '0'.toNat)
  else if 'a' ≤ c ∧ c ≤ 'f' then some (c.toNat - 'a'.toNat + 10)
  else if 'A' ≤ c ∧ c ≤ 'F' then some (c.toNat - 'A'.toNat + 10)
  else none

/-- The value of a digit of a base, which is at most sixteen. -/
def digit? (base : Nat) (c : Char) : Option Nat := (hex? c).filter (· < base)

/-- The value of a text of one or more digits of a base. -/
def value? (base : Nat) (t : Text) : Option Nat :=
  if t = [] then none else (t.mapM (digit? base)).map (List.foldl (base * · + ·) 0)

/-! ## Writing -/

/-- The value `n` in hexadecimal, with lower-case letters. -/
def lowerHex (n : Nat) : Text := Nat.toDigits 16 n

/-- The value `n` in hexadecimal, with upper-case letters and at least `width` digits. -/
def upperHex (width n : Nat) : Text :=
  let digits := (Nat.toDigits 16 n).map Char.toUpper
  List.replicate (width - digits.length) '0' ++ digits

end ToolRegistry.Digits
