import ToolRegistry.Text.Digits
import ToolRegistry.Text.Unseen
import ToolRegistry.Text.Utf8

/-!
# Bytes shown in quotes

When an environment variable does not hold UTF-8, the error message shows its
bytes between double quotes. The well-formed parts appear as text, with the
characters that leave no mark or could be mistaken for part of the message
escaped; every other byte is shown as `\x` and two upper-case
hexadecimal digits.

Where the decoding machine emits an ill-formed part it forgets the bytes of
it, so this module asks the other way round: it takes characters off the
front of the bytes one at a time, and a byte that starts none is shown by
its number.
-/

namespace ToolRegistry.Shown

/-! ## Characters -/

/-- How a character appears between the quotes. -/
def showChar (c : Char) : Text :=
  match c with
  | '\x00' => "\\0"
  | '\t' => "\\t"
  | '\n' => "\\n"
  | '\r' => "\\r"
  | '"' => "\\\""
  | '\\' => "\\\\"
  | c => if Text.isUnseen c then "\\u\x7b".toList ++ Digits.lowerHex c.toNat ++ "\x7d".toList else [c]

/-! ## Bytes -/

/-- The character that `bytes` begin with and its length in bytes, if they begin with one. -/
def firstChar? (bytes : Bytes) : Option (Char × Nat) :=
  [1, 2, 3, 4].findSome? fun n =>
    match Utf8.items (bytes.take n) with
    | [some c] => some (c, n)
    | _ => none

/-- How bytes appear between the quotes; `skip` of them belong to a character already shown. -/
def showFrom : Nat → Bytes → Text
  | _, [] => []
  | skip + 1, _ :: rest => showFrom skip rest
  | 0, b :: rest =>
      match firstChar? (b :: rest) with
      | some (c, n) => showChar c ++ showFrom (n - 1) rest
      | none => "\\x".toList ++ Digits.upperHex 2 b.toNat ++ showFrom 0 rest

/-- Bytes between double quotes, with whatever is not plain text escaped. -/
def quoted (bytes : Bytes) : Text := '"' :: showFrom 0 bytes ++ ['"']

end ToolRegistry.Shown
