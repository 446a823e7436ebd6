import ToolRegistry.Text.Digits

/-!
# TOML strings

A string is written in one of four forms: between double or single quotes, on
one line or on several. Between double quotes a backslash begins an escape,
and between single quotes it is an ordinary character. A form on several
lines is enclosed in three quotes, drops a line end that follows the opening
ones, and may hold one or two quotes anywhere, even in front of the closing
ones.

The readers walk along the text one character at a time. An escape is several
characters long, so a reader remembers how many of the characters in front of
it belong to an escape that it has dealt with already, and passes over them.
They all start behind the opening quotes and leave what follows the closing
ones.

The writer takes the plainest form that can hold the text (`form`), and only
where no form holds it as it is does it write escapes. What a form can hold
is a question about the characters of the text and its longest run of quotes.
-/

namespace ToolRegistry.Toml

/-! ## Characters -/

/-- Whether a character can only be written as an escape: a control character other than the tab
and the line feed. -/
def isControl (c : Char) : Bool := (c.toNat < 0x20 && c != '\t' && c != '\n') || c.toNat == 0x7F

/-- Whether a character may stand on a line. -/
def isPlain (c : Char) : Bool := !isControl c && c != '\n'

/-- The character whose number is written in the first `n` characters. -/
def numbered? (n : Nat) (t : Text) : Option Char := do
  if t.length < n then none
  let value ← Digits.value? 16 (t.take n)
  if value.isValidChar then some (Char.ofNat value) else none

/-! ## Escapes -/

/-- What follows the backslash of an escape: the character, and how many characters say so. -/
def escape? : Text → Option (Char × Nat)
  | [] => none
  | c :: rest =>
      match c with
      | 'b' => some ('\x08', 1)
      | 't' => some ('\t', 1)
      | 'n' => some ('\n', 1)
      | 'f' => some ('\x0c', 1)
      | 'r' => some ('\r', 1)
      | '"' => some ('"', 1)
      | '\\' => some ('\\', 1)
      | 'u' => (numbered? 4 rest).map (·, 5)
      | 'U' => (numbered? 8 rest).map (·, 9)
      | _ => none

/-- What follows the line end that `t` begins with. -/
def afterLineEnd? : Text → Option Text
  | '\n' :: rest => some rest
  | '\r' :: '\n' :: rest => some rest
  | _ => none

/-- How many characters of blanks and line ends a text begins with. -/
def countSpace : Text → Nat
  | ' ' :: rest | '\t' :: rest | '\n' :: rest => countSpace rest + 1
  | '\r' :: '\n' :: rest => countSpace rest + 2
  | _ => 0

/-- The length of blanks, a line end and further blanks and line ends, which a backslash in front
of them takes out of the string. -/
def continuation? (t : Text) : Option Nat :=
  match afterLineEnd? (Text.trimBlanks t) with
  | some _ => some (countSpace t)
  | none => none

/-! ## Reading -/

/-- A string and what follows it, with one more character at the front of the string. -/
def keep (c : Char) (r : Option (Text × Text)) : Option (Text × Text) :=
  r.map fun (t, rest) => (c :: t, rest)

/-- The rest of a string in double quotes, with `skip` characters to pass over. -/
def basicFrom : Nat → Text → Option (Text × Text)
  | _, [] => none
  | skip + 1, _ :: rest => basicFrom skip rest
  | 0, c :: rest =>
      if c = '"' then some ([], rest)
      else if c = '\\' then
        match escape? rest with
        | some (d, n) => keep d (basicFrom n rest)
        | none => none
      else if isPlain c then keep c (basicFrom 0 rest)
      else none

/-- The rest of a string in single quotes. -/
def literalFrom : Text → Option (Text × Text)
  | [] => none
  | c :: rest =>
      if c = '\x27' then some ([], rest)
      else if isPlain c then keep c (literalFrom rest)
      else none

/-- The end of a string that three quotes enclose: one or two quotes in front of the closing ones
belong to the string. The text begins behind three quotes. -/
def closing (q : Char) (t : Text) : Text × Text :=
  if [q, q].isPrefixOf t then ([q, q], t.drop 2)
  else if [q].isPrefixOf t then ([q], t.drop 1)
  else ([], t)

/-- The rest of a string in three double quotes, with `skip` characters to pass over. -/
def multiBasicFrom : Nat → Text → Option (Text × Text)
  | _, [] => none
  | skip + 1, _ :: rest => multiBasicFrom skip rest
  | 0, c :: rest =>
      if c = '"' then
        if ['"', '"'].isPrefixOf rest then some (closing '"' (rest.drop 2))
        else keep c (multiBasicFrom 0 rest)
      else if c = '\\' then
        match continuation? rest with
        | some n => multiBasicFrom n rest
        | none =>
            match escape? rest with
            | some (d, n) => keep d (multiBasicFrom n rest)
            | none => none
      else if c = '\n' then keep c (multiBasicFrom 0 rest)
      else if c = '\r' then
        if rest.head? = some '\n' then multiBasicFrom 0 rest else none
      else if isPlain c then keep c (multiBasicFrom 0 rest)
      else none

/-- The rest of a string in three single quotes. -/
def multiLiteralFrom : Text → Option (Text × Text)
  | [] => none
  | c :: rest =>
      if c = '\x27' then
        if ['\x27', '\x27'].isPrefixOf rest then some (closing '\x27' (rest.drop 2))
        else keep c (multiLiteralFrom rest)
      else if c = '\n' then keep c (multiLiteralFrom rest)
      else if c = '\r' then
        if rest.head? = some '\n' then multiLiteralFrom rest else none
      else if isPlain c then keep c (multiLiteralFrom rest)
      else none

/-- The text without the line end that it begins with. -/
def dropLineEnd (t : Text) : Text := (afterLineEnd? t).getD t

/-- Reads a string on one line, as it may also stand for a key; `none` if there is none. -/
def lineString? : Text → Option (Text × Text)
  | '"' :: rest => basicFrom 0 rest
  | '\x27' :: rest => literalFrom rest
  | _ => none

/-- Reads a string in any of the four forms. -/
def string? : Text → Option (Text × Text)
  | '"' :: '"' :: '"' :: rest => multiBasicFrom 0 (dropLineEnd rest)
  | '\x27' :: '\x27' :: '\x27' :: rest => multiLiteralFrom (dropLineEnd rest)
  | t => lineString? t

/-! ## Writing -/

/-- How a string is written. -/
inductive Form where
  /-- Between double quotes. -/
  | basic
  /-- Between single quotes. -/
  | literal
  /-- Between three double quotes. -/
  | multiBasic
  /-- Between three single quotes. -/
  | multiLiteral
deriving DecidableEq, Repr

/-- Whether a text has a character three times in a row. -/
def hasTriple (q : Char) : Text → Bool
  | [] => false
  | c :: rest => [q, q, q].isPrefixOf (c :: rest) || hasTriple q rest

/-- The plainest form that can hold a text. -/
def form (t : Text) : Form :=
  if t.any isControl then if '\n' ∈ t then .multiBasic else .basic
  else if '\\' ∉ t ∧ '"' ∉ t ∧ '\n' ∉ t then .basic
  else if '\x27' ∉ t ∧ '\n' ∉ t then .literal
  else if '\\' ∉ t ∧ hasTriple '"' t = false then .multiBasic
  else if hasTriple '\x27' t = false then .multiLiteral
  else if '\n' ∈ t then .multiBasic
  else .basic

/-- A character between double quotes, where a quote, a line feed and a backslash are escaped. -/
def escaped (c : Char) : Text :=
  match c with
  | '\x08' => "\\b"
  | '\t' => "\\t"
  | '\n' => "\\n"
  | '\x0c' => "\\f"
  | '\r' => "\\r"
  | '"' => "\\\""
  | '\\' => "\\\\"
  | c => if isControl c then "\\u".toList ++ Digits.upperHex 4 c.toNat else [c]

/-- A text between three double quotes, behind `run` quotes in a row: a line feed is written as it
is, and a quote is escaped only if it would be the third in a row. -/
def multiEscaped : Nat → Text → Text
  | _, [] => []
  | run, c :: rest =>
      if c = '"' ∧ run < 2 then c :: multiEscaped (run + 1) rest
      else if c = '\n' then c :: multiEscaped 0 rest
      else escaped c ++ multiEscaped 0 rest

/-- The line end behind three opening quotes, which keeps a text of several lines together. -/
def opening (t : Text) : Text := if '\n' ∈ t then ['\n'] else []

/-- Writes a string in a form that can hold it. -/
def renderString (t : Text) : Text :=
  match form t with
  | .basic => '"' :: t.flatMap escaped ++ ['"']
  | .literal => '\x27' :: t ++ ['\x27']
  | .multiBasic => List.replicate 3 '"' ++ opening t ++ multiEscaped 0 t ++ List.replicate 3 '"'
  | .multiLiteral => List.replicate 3 '\x27' ++ opening t ++ t ++ List.replicate 3 '\x27'

end ToolRegistry.Toml
