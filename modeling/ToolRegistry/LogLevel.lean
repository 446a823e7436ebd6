import ToolRegistry.Error

/-!
# Log levels

A program logs at one of five levels (`logLevels`). The level comes from the
settings, unless an environment variable holds a number, which stands for a
level by how much it asks for: nothing but warnings at zero, everything from
six on. A variable that holds no number is as good as none, and whatever the
settings say is taken as it is, because it was checked when it was set.
-/

namespace ToolRegistry.LogLevel

/-- The level that a number stands for. -/
def ofNumber (n : Nat) : Text :=
  if n = 0 then "warn"
  else if n ≤ 2 then "info"
  else if n ≤ 5 then "debug"
  else "trace"

/-- The level to log at, by the value of the environment variable and the settings. -/
def effective (variableValue : Option Text) (configured : Text) : Text :=
  match variableValue.bind fun t => Decimal.uint32? (Text.trim t) with
  | some n => ofNumber n.toNat
  | none => configured

end ToolRegistry.LogLevel
