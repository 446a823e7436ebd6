import ToolRegistry.Text

/-!
# The status of a reply

The first line of a reply begins with `+OK` or `-ERR`. What follows is the
payload; one space between the two is not part of it.
-/

namespace ToolRegistry.Wire

/-- The first line of a reply, taken apart. -/
inductive Status where
  | ok (payload : Text)
  | err (payload : Text)
deriving DecidableEq, Repr

namespace Status

/-- What the first line of a successful reply begins with. -/
def okMark : Text := "+OK"

/-- What the first line of a refusal begins with. -/
def errMark : Text := "-ERR"

/-- The first line of a reply with this status. -/
def line : Status → Text
  | ok payload => okMark ++ ' ' :: payload
  | err payload => errMark ++ ' ' :: payload

/-- What follows a mark and at most one space. -/
def payloadAfter? (mark t : Text) : Option Text :=
  match Text.after? mark t with
  | some (' ' :: payload) => some payload
  | other => other

/-- Reads the first line of a reply. -/
def parse? (t : Text) : Option Status :=
  match payloadAfter? okMark t with
  | some payload => some (ok payload)
  | none => (payloadAfter? errMark t).map err

/-- What was written is read back. -/
theorem parse?_line (s : Status) : parse? s.line = some s := by cases s <;> rfl

end Status

end ToolRegistry.Wire
