import ToolRegistry.Text.Decimal

/-!
# Arguments

A program is called with a list of arguments: options, each with a value or
without, operands, and the name of a subcommand, which opens a level of its
own with its own rules for everything behind it. This module reads arguments
by the rules of a `Level`; what they mean is not its business.

The value of an option may be attached to it (`--port=5`, `-fjson`) or be the
next argument. An attached value is checked on the spot. A value that is an
argument of its own is only noted (`Pending`) and is checked when the next
option or operand of the same level comes, or when the level ends. The
difference shows in one place: behind a subcommand, a request for the version
is answered although an option in front of the subcommand has a wrong value.

Behind two hyphens on their own everything is an operand, and one hyphen on
its own always is. An option that may be given a negative number takes one
from the next argument, although it looks like another option.
-/

namespace ToolRegistry.CommandLine

/-! ## Rules -/

/-- An option. -/
structure OptionRule where
  /-- Its name, which follows two hyphens. -/
  name : Text
  /-- The letter that follows one hyphen, if it has one. -/
  short : Option Char := none
  /-- Whether it has a value. -/
  hasValue : Bool := true
  /-- Which values it may have. -/
  accepts : Text → Bool := fun _ => true
  /-- Whether a negative number may be the next argument. -/
  negative : Bool := false
  /-- Whether it has to be given. -/
  needed : Bool := false
  /-- The value from the environment, if there is one. -/
  fallback : Option Text := none

/-- An operand. -/
structure OperandRule where
  /-- Which texts are accepted. -/
  accepts : Text → Bool := fun _ => true
  /-- Whether it has to be given. -/
  needed : Bool := true

/-- What may be given on one level. -/
structure Rules where
  /-- What the level is for. -/
  about : Text
  options : List OptionRule
  operands : List OperandRule := []

/-- A level, and the levels below it with their names, of which the first is the proper one. -/
inductive Level where
  /-- Its rules, and the levels below it. -/
  | mk (rules : Rules) (subcommands : List (List Text × Level))

namespace Level

/-- What may be given on a level. -/
def rules : Level → Rules
  | mk rules _ => rules

/-- The levels below a level. -/
def subcommands : Level → List (List Text × Level)
  | mk _ subcommands => subcommands

/-- The proper name and the level of a subcommand. -/
def subcommand? (l : Level) (name : Text) : Option (Text × Level) :=
  (l.subcommands.find? fun s => name ∈ s.1).map fun s => (s.1.headD [], s.2)

end Level

/-! ## What arguments amount to -/

/-- What was given on one level. -/
structure Given where
  name : Text
  options : List (Text × Text)
  operands : List Text
deriving DecidableEq, Repr

namespace Given

/-- The value of an option. -/
def option? (g : Given) (name : Text) : Option Text := g.options.lookup name

/-- Whether an option was given. -/
def has (g : Given) (name : Text) : Bool := (g.option? name).isSome

end Given

/-- Why a program is not run. -/
inductive Stop where
  /-- The arguments break the rules. -/
  | misuse
  /-- The version of the program or of a level is asked for. -/
  | version (title : Text)
  /-- What a level is for is asked for. -/
  | help (title about : Text)
deriving DecidableEq, Repr

/-- A level while its arguments are read. -/
structure Reading where
  /-- The options with their values, as far as they are checked. -/
  options : List (Text × Text) := []
  operands : List Text := []
  /-- The last option, if its value is not checked yet, and its value as soon as it is there. -/
  pending : Option (OptionRule × Option Text) := none
  /-- Whether only operands follow. -/
  onlyOperands : Bool := false

namespace Reading

/-- Checks the value of an option; an option is given once. -/
def take (r : Reading) (o : OptionRule) (value : Text) : Except Stop Reading :=
  if o.accepts value && (r.options.lookup o.name).isNone then
    .ok { r with options := r.options ++ [(o.name, value)] }
  else .error .misuse

/-- Checks what is pending. -/
def settle (r : Reading) : Except Stop Reading :=
  match r.pending with
  | none => .ok r
  | some (_, none) => .error .misuse
  | some (o, some value) => { r with pending := none }.take o value

/-- The option that waits for its value. -/
def awaiting? (r : Reading) : Option OptionRule :=
  match r.pending with
  | some (o, none) => some o
  | _ => none

/-- Notes an option, with the value attached to it if there is one. -/
def note (r : Reading) (o : OptionRule) (attached : Option Text) : Except Stop Reading := do
  let r ← r.settle
  match o.hasValue, attached with
  | true, some value => r.take o value
  | true, none => return { r with pending := some (o, none) }
  | false, some _ => throw .misuse
  | false, none => r.take o []

/-- Notes an operand. -/
def operand (r : Reading) (rules : Rules) (t : Text) : Except Stop Reading := do
  let r ← r.settle
  match rules.operands[r.operands.length]? with
  | some o => if o.accepts t then return { r with operands := r.operands ++ [t] } else throw .misuse
  | none => throw .misuse

/-! ## Options -/

/-- Stops to show the version or what a level is for, once everything before is in order. -/
def stop {α : Type} (r : Reading) (s : Stop) : Except Stop α := do
  let _ ← r.settle
  throw s

/-- The name of a long option and the value attached to it. -/
def splitLong (t : Text) : Text × Option Text :=
  match t.dropWhile (· ≠ '=') with
  | _ :: value => (t.takeWhile (· ≠ '='), some value)
  | [] => (t, none)

/-- Reads an argument behind two hyphens. -/
def long (r : Reading) (title : Text) (rules : Rules) (t : Text) : Except Stop Reading :=
  let (name, attached) := splitLong t
  match rules.options.find? (·.name = name) with
  | some o => r.note o attached
  | none =>
      if attached.isSome then throw .misuse
      else if name = "help" then r.stop (.help title rules.about)
      else if name = "version" then r.stop (.version title)
      else throw .misuse

/-- The value attached to a letter, of which an equals sign in front is no part. -/
def attachedTo : Text → Option Text
  | [] => none
  | '=' :: value => some value
  | value => some value

/-- Reads letters behind one hyphen. -/
def short (r : Reading) (title : Text) (rules : Rules) : Text → Except Stop Reading
  | [] => .ok r
  | c :: rest =>
      match rules.options.find? (·.short = some c) with
      | some o =>
          if o.hasValue then r.note o (attachedTo rest)
          else
            match r.note o none with
            | .ok r => short r title rules rest
            | .error e => .error e
      | none =>
          if c = 'h' then r.stop (.help title rules.about)
          else if c = 'V' then r.stop (.version title)
          else .error .misuse

/-! ## Negative numbers -/

/-- Whether a text behind a hyphen makes it a number: digits with at most one point and after it
at most one exponent, neither at the front, and the exponent not at the end. -/
def looksNumeric (t : Text) : Bool :=
  let whole := t.takeWhile Char.isDigit
  let rest := t.dropWhile Char.isDigit
  let rest := match rest with
    | '.' :: more => if whole = [] then rest else more.dropWhile Char.isDigit
    | rest => rest
  match rest with
  | [] => true
  | 'e' :: more => whole ≠ [] && more ≠ [] && more.all Char.isDigit
  | _ => false

/-! ## Levels -/

/-- What an argument is on its level, given that it is no subcommand. -/
inductive Shape where
  /-- Two hyphens on their own. -/
  | divider
  /-- Something behind two hyphens. -/
  | long (t : Text)
  /-- Something behind one hyphen. -/
  | short (t : Text)
  /-- A value or an operand. -/
  | plain
deriving DecidableEq, Repr

/-- The shape of an argument, in front of which an option may wait for its value. -/
def shape (awaiting : Option OptionRule) : Text → Shape
  | ['-', '-'] => .divider
  | '-' :: '-' :: t => .long t
  | ['-'] => .plain
  | '-' :: t =>
      if awaiting.any fun o => o.negative && looksNumeric t then .plain else .short t
  | _ => .plain

/-- Reads an argument that is no subcommand. -/
def argument (r : Reading) (title : Text) (rules : Rules) (t : Text) : Except Stop Reading :=
  if r.onlyOperands then r.operand rules t
  else
    match shape r.awaiting? t with
    | .divider => .ok { r with onlyOperands := true }
    | .long t => r.long title rules t
    | .short t => r.short title rules t
    | .plain =>
        match r.awaiting? with
        | some o => .ok { r with pending := some (o, some t) }
        | none => r.operand rules t

/-- Whether everything that has to be given is given, and what the environment gives is right. -/
def isComplete (r : Reading) (rules : Rules) : Bool :=
  rules.options.all (fun o =>
    (r.options.lookup o.name).isSome || (!o.needed && o.fallback.all o.accepts)) &&
  (rules.operands.drop r.operands.length).all fun o => !o.needed

/-- Ends a level. -/
def finish (r : Reading) (name : Text) (rules : Rules) : Except Stop Given := do
  let r ← r.settle
  if r.isComplete rules then return ⟨name, r.options, r.operands⟩ else throw .misuse

/-- The subcommand that an argument names. -/
def subcommand? (r : Reading) (l : Level) (t : Text) : Option (Text × Level) :=
  if r.onlyOperands || r.awaiting?.isSome then none else l.subcommand? t

end Reading

/-- Reads the arguments of a level and of those below it. -/
def readLevel (title name : Text) (l : Level) (r : Reading) : List Text → Except Stop (List Given)
  | [] => do
      let g ← r.finish name l.rules
      if l.subcommands = [] then return [g] else throw .misuse
  | t :: rest =>
      match r.subcommand? l t with
      | some (sub, below) => do
          let inner ← readLevel (title ++ '-' :: sub) sub below {} rest
          let g ← r.finish name l.rules
          return g :: inner
      | none => do
          let r ← r.argument title l.rules t
          readLevel title name l r rest

/-- Reads the arguments of a program: what was given on each level, the outermost first. -/
def readArguments (program : Text) (l : Level) (args : List Text) : Except Stop (List Given) :=
  readLevel program program l {} args

/-! ## Values -/

/-- A natural number below `2 ^ bits` in an argument, which may have a sign. -/
def natural? (bits : Nat) (t : Text) : Option Nat :=
  ((Decimal.int? t).filter fun i => 0 ≤ i ∧ i < 2 ^ bits).map Int.toNat

end ToolRegistry.CommandLine
