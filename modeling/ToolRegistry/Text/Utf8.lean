import ToolRegistry.Text

/-!
# UTF-8

Text travels as UTF-8, and a peer may send any bytes at all. Decoding
therefore comes in two forms. The strict one, for files and environment
variables, refuses ill-formed bytes. The forgiving one, for lines of the
wire, puts one U+FFFD in place of each *maximal ill-formed part*: a run of
bytes that begins like a character and is cut off by a byte that cannot
continue it, or a single byte that no character begins with.

Both are read off one machine. It holds the character it is in the middle of
(`Pending`: how many bytes are owed, which values the next one may have, and
the bits collected so far) and emits an item when a character is complete
(`some c`) or found to be cut off (`none`). The byte that cuts a character
off is looked at again as the first byte of the next one, which needs no
second pass: from the start state a single byte always decides.

The bounds on the second byte are what rules out overlong forms, surrogates
and values above U+10FFFF, so that every completed character is a scalar
value.
-/

namespace ToolRegistry

/-- A sequence of bytes. -/
abbrev Bytes := List UInt8

namespace Utf8

/-! ## Encoding -/

/-- The byte `base + n`, for the leading and the continuation bytes. -/
def byte (base n : Nat) : UInt8 := UInt8.ofNat (base + n)

/-- The one to four bytes of a character. -/
def encodeChar (c : Char) : Bytes :=
  let n := c.toNat
  if n < 0x80 then [byte 0 n]
  else if n < 0x800 then [byte 0xC0 (n / 64), byte 0x80 (n % 64)]
  else if n < 0x10000 then
    [byte 0xE0 (n / 4096), byte 0x80 (n / 64 % 64), byte 0x80 (n % 64)]
  else
    [byte 0xF0 (n / 262144), byte 0x80 (n / 4096 % 64), byte 0x80 (n / 64 % 64),
      byte 0x80 (n % 64)]

/-- The bytes of a text. -/
def encode (t : Text) : Bytes := t.flatMap encodeChar

/-! ## The decoding machine -/

/-- A character that has begun: `owed` more bytes after the next one, the least and the greatest
value of the next one, and the bits collected so far. -/
structure Pending where
  /-- How many bytes are owed after the next one. -/
  owed : Nat
  /-- The least value that the next byte may have. -/
  low : Nat
  /-- The greatest value that the next byte may have. -/
  high : Nat
  /-- The value of the bits read so far. -/
  bits : Nat
deriving DecidableEq, Repr

/-- What the first byte of a character says. -/
inductive FirstByte where
  /-- It is a whole character. -/
  | complete (c : Char)
  /-- More bytes follow. -/
  | opens (p : Pending)
  /-- No character begins with it. -/
  | ill
deriving DecidableEq, Repr

/-- Reads the first byte of a character. -/
def firstByte (b : UInt8) : FirstByte :=
  let n := b.toNat
  if n < 0x80 then .complete (Char.ofNat n)
  else if n < 0xC2 then .ill
  else if n < 0xE0 then .opens ⟨0, 0x80, 0xBF, n - 0xC0⟩
  else if n = 0xE0 then .opens ⟨1, 0xA0, 0xBF, 0⟩
  else if n = 0xED then .opens ⟨1, 0x80, 0x9F, 13⟩
  else if n < 0xF0 then .opens ⟨1, 0x80, 0xBF, n - 0xE0⟩
  else if n = 0xF0 then .opens ⟨2, 0x90, 0xBF, 0⟩
  else if n < 0xF4 then .opens ⟨2, 0x80, 0xBF, n - 0xF0⟩
  else if n = 0xF4 then .opens ⟨2, 0x80, 0x8F, 4⟩
  else .ill

/-- The machine: the items of `bytes`, begun in the middle of a character or between two. An item
is a character, or `none` for a maximal ill-formed part. -/
def itemsFrom : Option Pending → Bytes → List (Option Char)
  | none, [] => []
  | some _, [] => [none]
  | none, b :: rest =>
      match firstByte b with
      | .complete c => some c :: itemsFrom none rest
      | .opens p => itemsFrom (some p) rest
      | .ill => none :: itemsFrom none rest
  | some p, b :: rest =>
      if p.low ≤ b.toNat ∧ b.toNat ≤ p.high then
        let bits := p.bits * 64 + (b.toNat - 0x80)
        match p.owed with
        | 0 => some (Char.ofNat bits) :: itemsFrom none rest
        | owed + 1 => itemsFrom (some ⟨owed, 0x80, 0xBF, bits⟩) rest
      else
        none ::
          match firstByte b with
          | .complete c => some c :: itemsFrom none rest
          | .opens q => itemsFrom (some q) rest
          | .ill => none :: itemsFrom none rest

/-- The characters and ill-formed parts of a byte sequence, in order. -/
def items (bytes : Bytes) : List (Option Char) := itemsFrom none bytes

/-! ## Decoding -/

/-- The character put in place of an ill-formed part: U+FFFD. -/
def replacement : Char := '\uFFFD'

/-- The text of `bytes`, with one U+FFFD for each maximal ill-formed part. -/
def decodeLossy (bytes : Bytes) : Text := (items bytes).map (·.getD replacement)

/-- The text of `bytes`, if they are well formed. -/
def decode? (bytes : Bytes) : Option Text := (items bytes).mapM id

end Utf8

end ToolRegistry
