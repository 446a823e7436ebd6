import ToolRegistry.Wire.Status

/-!
# Replies

A reply is a status line and possibly more lines after it. How many there are
follows from the request and the status: none, one data line as it is, or a
body of any length that ends in a line with a single dot. So that a line of a
body can never be taken for that end, a line that begins with a dot is sent
with one more dot in front (`stuff`), and reading takes a dot off every line
that begins with two (`unstuff`).
-/

namespace ToolRegistry.Wire

/-! ## Dots -/

/-- The line that ends a body. -/
def terminator : Text := "."

/-- A body line in the form in which it is sent. -/
def stuff (line : Text) : Text :=
  match line with
  | '.' :: _ => '.' :: line
  | _ => line

/-- A body line in its own form, from the form in which it is sent. -/
def unstuff (line : Text) : Text :=
  match line with
  | '.' :: '.' :: rest => '.' :: rest
  | _ => line

/-- Sending a line does not change it. -/
theorem unstuff_stuff (line : Text) : unstuff (stuff line) = line := by
  unfold stuff
  split
  next => rfl
  next h =>
    unfold unstuff
    split
    next rest => exact absurd rfl (h _)
    next => rfl

/-- No body line is sent as the end of the body. -/
theorem stuff_ne_terminator (line : Text) : stuff line ≠ terminator := by
  unfold stuff
  split
  next => simp [terminator]
  next h => exact fun he => h [] he

/-! ## Replies -/

/-- The lines of an answer, the status line first. -/
structure Reply where
  /-- The lines, without line ends. -/
  lines : List Text
deriving DecidableEq, Repr

namespace Reply

/-- A successful reply of one line. -/
def ok (payload : Text) : Reply := ⟨[(Status.ok payload).line]⟩

/-- A refusal. -/
def err (payload : Text) : Reply := ⟨[(Status.err payload).line]⟩

/-- A refusal that tells how to write the request. -/
def errWithUsage (reason usage : Text) : Reply := err (reason ++ ' ' :: usage)

/-- The reply with a data line after it. -/
def withLine (r : Reply) (line : Text) : Reply := ⟨r.lines ++ [line]⟩

/-- The reply with a body after it. -/
def withBody (r : Reply) (body : List Text) : Reply := ⟨r.lines ++ body.map stuff ++ [terminator]⟩

/-- Whether the status line tells of success. -/
def isOk (r : Reply) : Bool :=
  match r.lines with
  | line :: _ => Status.okMark.isPrefixOf line
  | [] => false

/-- The text sent for a reply: every line with a line feed after it. -/
def encode (r : Reply) : Text := r.lines.flatMap (· ++ ['\n'])

end Reply

end ToolRegistry.Wire
