import ToolRegistry.Toml.Moment
import ToolRegistry.Toml.Value

/-!
# Reading TOML documents

A document is a sequence of statements, one on a line: a header, or an
assignment of a value to a dotted key. Lines may be empty and may end in a
comment. A statement fails if it is malformed or if it is not allowed where
it stands, and a document is read only if none of its statements fails.

Each reader here takes something off the front of a text and answers what
follows. Values nest, so the reader of values is told how deep they may still
go, and 79 levels are as deep as any goes. The readers of lists go on as long
as a comma follows, and those of documents as long as there is a statement.
They ask for progress, which every statement and every element makes, so that
they end whatever they are given.
-/

namespace ToolRegistry.Toml

/-! ## Space and comments -/

/-- What follows a comment, for a text that may begin with one. -/
def afterComment (t : Text) : Text :=
  match t with
  | '#' :: rest => rest.dropWhile isPlain
  | t => t

/-- What follows the end of a line: blanks, perhaps a comment, and a line end or the end of the
text. -/
def afterLine? (t : Text) : Option Text :=
  match afterComment (Text.trimBlanks t) with
  | [] => some []
  | t => afterLineEnd? t

/-- What follows blanks, line ends and comments; `none` if a comment does not end. -/
def afterSpace? (inComment : Bool) : Text → Option Text
  | [] => if inComment then none else some []
  | '\n' :: rest => afterSpace? false rest
  | '\r' :: '\n' :: rest => afterSpace? false rest
  | c :: rest =>
      if inComment then if isPlain c then afterSpace? true rest else none
      else if Text.isBlank c then afterSpace? false rest
      else if c = '#' then afterSpace? true rest
      else if c = '\r' then none
      else some (c :: rest)

/-! ## Keys -/

/-- Whether a key may hold a character without quotes. -/
def isBare (c : Char) : Bool := c.isAlphanum || c == '-' || c == '_'

/-- Reads one key. -/
def simpleKey? (t : Text) : Option (Text × Text) :=
  match t.takeWhile isBare with
  | [] => lineString? t
  | key => some (key, t.dropWhile isBare)

/-- The greatest number of keys in a dotted key, and of brackets around a value. -/
def depthLimit : Nat := 79

/-- Reads a dotted key, with blanks around each of its keys. -/
def keys? (t : Text) : Option (KeyPath × Text) := do
  let (key, rest) ← simpleKey? (Text.trimBlanks t)
  match Text.trimBlanks rest with
  | '.' :: more =>
      if more.length < t.length then
        let (k, rest) ← keys? more
        return (⟨key :: k.path, k.key⟩, rest)
      else none
  | rest => return (⟨[], key⟩, rest)
termination_by t.length

/-- Reads a dotted key that is not too long. -/
def keyPath? (t : Text) : Option (KeyPath × Text) :=
  (keys? t).filter fun (k, _) => k.path.length < depthLimit

/-! ## Lists -/

/-- The rest of an array whose elements `element` reads. -/
def elements? (element : Text → Option (Value × Text)) (t : Text) :
    Option (List Value × Text) := do
  match ← afterSpace? false t with
  | ']' :: rest => return ([], rest)
  | start =>
      let (v, rest) ← element start
      match ← afterSpace? false rest with
      | ']' :: rest => return ([v], rest)
      | ',' :: more =>
          if more.length < t.length then
            let (vs, rest) ← elements? element more
            return (v :: vs, rest)
          else none
      | _ => none
termination_by t.length

/-- Reads an assignment up to its value. -/
def assignment? (value : Text → Option (Value × Text)) (t : Text) :
    Option ((KeyPath × Value) × Text) := do
  let (k, rest) ← keyPath? t
  let rest ← mark? '=' rest
  let (v, rest) ← value (Text.trimBlanks rest)
  return ((k, v), rest)

/-- The assignments of an inline table, from the first one on. -/
def assignments? (value : Text → Option (Value × Text)) (t : Text) :
    Option (List (KeyPath × Value) × Text) := do
  let (a, rest) ← assignment? value t
  match Text.trimBlanks rest with
  | '}' :: rest => return ([a], rest)
  | ',' :: more =>
      if more.length < t.length then
        let (as, rest) ← assignments? value more
        return (a :: as, rest)
      else none
  | _ => none
termination_by t.length

/-- The rest of an inline table whose values `value` reads. -/
def inlineTable? (value : Text → Option (Value × Text)) (t : Text) : Option (Value × Text) :=
  match Text.trimBlanks t with
  | '}' :: rest => some (.table .inlined [], rest)
  | _ => do
      let (as, rest) ← assignments? value t
      let entries ← inlineEntries as []
      return (.table .inlined entries, rest)

/-! ## Values -/

/-- Reads a value that is one word or one string. -/
def simpleValue? (t : Text) : Option (Value × Text) :=
  match string? t with
  | some (s, rest) => some (.string s, rest)
  | none =>
      match Text.after? "true" t with
      | some rest => some (.boolean true, rest)
      | none =>
          match Text.after? "false" t with
          | some rest => some (.boolean false, rest)
          | none => if beginsMoment t then moment? t else number? t

/-- Reads a value with at most `depth` brackets around each other. -/
def value? (depth : Nat) (t : Text) : Option (Value × Text) :=
  match depth, t with
  | 0, '[' :: _ | 0, '\x7b' :: _ => none
  | depth + 1, '[' :: rest => do
      let (items, rest) ← elements? (value? depth) rest
      return (.array items, rest)
  | depth + 1, '\x7b' :: rest => inlineTable? (value? depth) rest
  | _, t => simpleValue? t

/-! ## Statements -/

/-- A line of a document. -/
inductive Statement where
  /-- An empty line, or one that is only a comment. -/
  | nothing
  | table (k : KeyPath)
  /-- A header in double brackets. -/
  | element (k : KeyPath)
  | assign (k : KeyPath) (v : Value)

/-- Reads what a line says, without its end. -/
def line? (t : Text) : Option (Statement × Text) :=
  match t with
  | [] | '#' :: _ | '\n' :: _ | '\r' :: _ => some (.nothing, t)
  | '[' :: '[' :: rest => do
      let (k, rest) ← keyPath? rest
      let rest ← mark? ']' rest
      let rest ← mark? ']' rest
      return (.element k, rest)
  | '[' :: rest => do
      let (k, rest) ← keyPath? rest
      let rest ← mark? ']' rest
      return (.table k, rest)
  | t => do
      let ((k, v), rest) ← assignment? (value? depthLimit) t
      return (.assign k v, rest)

/-- Reads a line. -/
def statement? (t : Text) : Option (Statement × Text) := do
  let (s, rest) ← line? (Text.trimBlanks t)
  let rest ← afterLine? rest
  return (s, rest)

/-- The document after a statement, if the statement is allowed. -/
def Document.apply (d : Document) : Statement → Option Document
  | .nothing => some d
  | .table k => d.openTable k
  | .element k => d.openElement k
  | .assign k v => d.assign k v

/-- Reads the statements of a text and carries them out. -/
def Document.extend (d : Document) (t : Text) : Option Document :=
  if t = [] then some d
  else do
    let (s, rest) ← statement? t
    let d ← d.apply s
    if rest.length < t.length then d.extend rest else none
termination_by t.length

/-- The mark that may stand in front of a document. -/
def byteOrderMark : Char := '\uFEFF'

/-- Reads a document: the entries of its outermost table. -/
def parse? (t : Text) : Option Entries :=
  (Document.extend {} (if t.head? = some byteOrderMark then t.drop 1 else t)).map Document.root

end ToolRegistry.Toml
