import ToolRegistry.Text.Decimal
import ToolRegistry.Toml.Quoted
import ToolRegistry.Toml.Value

/-!
# TOML numbers

Numbers are written in digits, and between any two digits may stand one
underscore, which means nothing. A decimal integer may have a sign and has no
leading zeros; one in another base has neither a sign nor this restriction.
Integers have sixty-four bits with a sign, and one that does not fit is an
error.

A number with a fraction or an exponent is a float. Its value is of no use to
the registry and is not worked out, except for one question: a float too
large to be a number of double precision is an error. The bound is the number
half-way between the greatest such number and the next power of two, because
from there on rounding no longer leads back.
-/

namespace ToolRegistry.Toml

/-! ## Digits -/

/-- The digits that follow a digit, without the underscores between them. -/
def moreDigits (isDigit : Char → Bool) : Text → Option (Text × Text)
  | [] => some ([], [])
  | '_' :: d :: rest => if isDigit d then keep d (moreDigits isDigit rest) else none
  | c :: rest =>
      if isDigit c then keep c (moreDigits isDigit rest)
      else if c = '_' then none
      else some ([], c :: rest)

/-- One or more digits, without the underscores between them. -/
def digitRun (isDigit : Char → Bool) : Text → Option (Text × Text)
  | [] => none
  | c :: rest => if isDigit c then keep c (moreDigits isDigit rest) else none

/-- The digits of a decimal number without leading zeros. -/
def wholeDigits : Text → Option (Text × Text)
  | '0' :: rest => some (['0'], rest)
  | t => digitRun Char.isDigit t

/-! ## Integers -/

/-- Whether an integer has sixty-four bits with a sign. -/
def fits (i : Int) : Bool := decide (-2 ^ 63 ≤ i ∧ i < 2 ^ 63)

/-- An integer that fits. -/
def integer? (i : Int) : Option Value := if fits i then some (.integer i) else none

/-- Reads an integer in a base, behind its mark. -/
def basedInteger? (base : Nat) (t : Text) : Option (Value × Text) := do
  let isDigit (c : Char) := (Digits.digit? base c).isSome
  let (digits, rest) ← digitRun isDigit t
  let n ← Digits.value? base digits
  let v ← integer? n
  return (v, rest)

/-! ## Floats -/

/-- The digits of an exponent with its sign, behind the letter. -/
def exponent? : Text → Option (Int × Text)
  | '+' :: t => (digitRun Char.isDigit t).map fun (ds, rest) => (Nat.ofDigitChars 10 ds 0, rest)
  | '-' :: t =>
      (digitRun Char.isDigit t).map fun (ds, rest) => (-(Nat.ofDigitChars 10 ds 0 : Int), rest)
  | t => (digitRun Char.isDigit t).map fun (ds, rest) => (Nat.ofDigitChars 10 ds 0, rest)

/-- The least magnitude that rounds to more than the greatest number of double precision. -/
def overflowBound : Nat := 2 ^ 1024 - 2 ^ 970

/-- Whether `m` times ten to the `e` is too large. Beyond 400 digits it is, and below 300 it is
not, so that only exponents of a moderate size are ever raised to. -/
def overflows (m : Nat) (e : Int) : Bool :=
  let size : Int := (Decimal.ofNat m).length + e
  if m = 0 ∨ size < 300 then false
  else if 400 < size then true
  else if 0 ≤ e then decide (overflowBound ≤ m * 10 ^ e.toNat)
  else decide (overflowBound * 10 ^ (-e).toNat ≤ m)

/-- What follows the whole part of a float: the digits of its fraction, and its exponent. -/
def fractional? : Text → Option (Text × Int × Text)
  | '.' :: t => do
      let (ds, rest) ← digitRun Char.isDigit t
      match rest with
      | 'e' :: t | 'E' :: t =>
          let (e, rest) ← exponent? t
          return (ds, e, rest)
      | rest => return (ds, 0, rest)
  | 'e' :: t | 'E' :: t => do
      let (e, rest) ← exponent? t
      return ([], e, rest)
  | _ => none

/-- What stands in front of `rest` at the end of `t`. -/
def written (t rest : Text) : Text := t.take (t.length - rest.length)

/-- The words for an infinity and for no number. -/
def specialFloat? (t : Text) : Option Text := Text.after? "inf" t <|> Text.after? "nan" t

/-! ## Numbers -/

/-- Whether a number goes on with a fraction or an exponent. -/
def isFractional : Text → Bool
  | c :: _ => c == '.' || c == 'e' || c == 'E'
  | [] => false

/-- Reads a number behind its sign. -/
def unsigned? (negative : Bool) (t : Text) : Option (Value × Text) :=
  match specialFloat? t with
  | some rest => some (.float (written t rest), rest)
  | none => do
      let (ds, rest) ← wholeDigits t
      if isFractional rest then
        let (more, e, rest) ← fractional? rest
        if !negative && overflows (Nat.ofDigitChars 10 (ds ++ more) 0) (e - more.length) then none
        return (.float (written t rest), rest)
      else
        let n : Nat := Nat.ofDigitChars 10 ds 0
        let v ← integer? (if negative then -n else n)
        return (v, rest)

/-- Reads a number; `none` if there is none, or if it is too large. -/
def number? : Text → Option (Value × Text)
  | '0' :: 'x' :: t => basedInteger? 16 t
  | '0' :: 'o' :: t => basedInteger? 8 t
  | '0' :: 'b' :: t => basedInteger? 2 t
  | '+' :: t => unsigned? false t
  | '-' :: t => unsigned? true t
  | t => unsigned? false t

end ToolRegistry.Toml
