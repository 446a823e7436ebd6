import ToolRegistry.Toml.Number

/-!
# TOML dates and times

A date is a year, a month and a day that exist in the calendar; a time has
hours, minutes, seconds and perhaps a fraction of a second. Both together,
with a letter or a space between them, may be followed by the offset from
universal time. A minute may have a sixty-first second.

The registry has no use for a date, so a reader here only checks it and
answers what follows. Whether a date or a time is meant can be told from the
first few characters: four digits and a hyphen begin a date and two digits
and a colon a time, and no number goes on like that.
-/

namespace ToolRegistry.Toml

/-! ## Numbers of a fixed length -/

/-- Reads a number of exactly `n` digits that lies between two bounds. -/
def fixed? (n low high : Nat) (t : Text) : Option (Nat × Text) :=
  let ds := t.take n
  let value := Nat.ofDigitChars 10 ds 0
  if ds.length = n ∧ ds.all Char.isDigit ∧ low ≤ value ∧ value ≤ high then some (value, t.drop n)
  else none

/-- What follows a mark. -/
def mark? (c : Char) : Text → Option Text
  | [] => none
  | d :: rest => if d = c then some rest else none

/-! ## Dates -/

/-- Whether a year has a leap day. -/
def isLeap (year : Nat) : Bool := year % 4 == 0 && (year % 100 != 0 || year % 400 == 0)

/-- How many days a month has. -/
def daysIn (year month : Nat) : Nat :=
  if month = 2 then if isLeap year then 29 else 28
  else if month = 4 ∨ month = 6 ∨ month = 9 ∨ month = 11 then 30
  else 31

/-- What follows a date. -/
def afterDate? (t : Text) : Option Text := do
  let (year, t) ← fixed? 4 0 9999 t
  let t ← mark? '-' t
  let (month, t) ← fixed? 2 1 12 t
  let t ← mark? '-' t
  let (_, t) ← fixed? 2 1 (daysIn year month) t
  return t

/-! ## Times -/

/-- What follows the fraction of a second, if there is one. -/
def afterFraction (t : Text) : Text :=
  match t with
  | '.' :: c :: rest => if c.isDigit then rest.dropWhile Char.isDigit else t
  | t => t

/-- What follows hours and minutes. -/
def afterMinutes? (t : Text) : Option Text := do
  let (_, t) ← fixed? 2 0 23 t
  let t ← mark? ':' t
  let (_, t) ← fixed? 2 0 59 t
  return t

/-- What follows a time. -/
def afterTime? (t : Text) : Option Text := do
  let t ← afterMinutes? t
  let t ← mark? ':' t
  let (_, t) ← fixed? 2 0 60 t
  return afterFraction t

/-- What follows an offset, if there is one; `none` if there is a wrong one. -/
def afterOffset? : Text → Option Text
  | 'Z' :: rest | 'z' :: rest => some rest
  | '+' :: rest | '-' :: rest => afterMinutes? rest
  | t => some t

/-! ## Both -/

/-- Whether a text begins with `n` digits and a mark. -/
def begins (n : Nat) (c : Char) (t : Text) : Bool :=
  (t.take n).length == n && (t.take n).all Char.isDigit && (t.drop n).head? == some c

/-- What stands behind a date and in front of a time. -/
def afterDelimiter? : Text → Option Text
  | 'T' :: rest | 't' :: rest | ' ' :: rest => if begins 2 ':' rest then some rest else none
  | _ => none

/-- What follows a date and the time that may follow it. -/
def afterDateTime? (t : Text) : Option Text := do
  let t ← afterDate? t
  match afterDelimiter? t with
  | some t => afterTime? t >>= afterOffset?
  | none => return t

/-- Whether a text begins like a date or a time. -/
def beginsMoment (t : Text) : Bool := begins 4 '-' t || begins 2 ':' t

/-- Reads a date, a time, or both. -/
def moment? (t : Text) : Option (Value × Text) := do
  let rest ← if begins 4 '-' t then afterDateTime? t else afterTime? t
  return (.moment (written t rest), rest)

end ToolRegistry.Toml
