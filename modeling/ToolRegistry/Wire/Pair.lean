import ToolRegistry.Text

/-!
# Key and value pairs

The fields of an entry travel as a list of pairs:

    pair  :=  key blank* '=' blank* value
    value :=  '"' (no '"')* '"'  |  (no blank, no '"')*

Pairs are separated by blanks, except that a closing quote may be followed
directly by the next key. A quoted value may hold anything but a quote, and a
bare value ends at the next blank; an empty bare value is possible only where
nothing but blanks follows, because the blanks between `=` and the value are
skipped first.

`parsePairs` reads the list from left to right and reports the first fault it
meets. Each step takes at least the key off the front, which is non-empty, so
the reader ends on every input.
-/

namespace ToolRegistry.Wire

/-- What can be wrong with the arguments of a request. -/
inductive GrammarError where
  /-- A pair begins with `=`. -/
  | emptyKey
  /-- No `=` follows this key. -/
  | missingEquals (key : Text)
  /-- A quote is opened and never closed. -/
  | unterminatedQuote
  /-- A quote stands inside a key or a bare value. -/
  | strayQuote (found : Text)
  /-- No field has this key. -/
  | unknownKey (key : Text)
  /-- The value of a numeric field is no number of its range. -/
  | invalidNumber (key value : Text)
  /-- A text was expected and there is none. -/
  | missingArgument
deriving DecidableEq, Repr

namespace GrammarError

/-- The wording of a fault. -/
def message : GrammarError → Text
  | emptyKey => "empty key"
  | missingEquals key => "expected '=' after `" ++ key ++ "`".toList
  | unterminatedQuote => "unterminated quote"
  | strayQuote found => "unexpected '\"' in `" ++ found ++ "`".toList
  | unknownKey key => "unknown key `" ++ key ++ "`".toList
  | invalidNumber key value =>
      "invalid number `" ++ value ++ "` for `".toList ++ key ++ "`".toList
  | missingArgument => "missing argument"

/-- Whether the syntax is right and only a value is not. -/
def isInvalidValue : GrammarError → Bool
  | invalidNumber _ _ => true
  | _ => false

end GrammarError

/-! ## One pair -/

/-- Whether a character may be part of a key. -/
def isKeyChar (c : Char) : Bool := !(c == '=' || Text.isBlank c)

/-- Reads a key and the `=` after it; the rest begins with the value. -/
def takeKey (t : Text) : Except GrammarError (Text × Text) :=
  let key := t.takeWhile isKeyChar
  if key = [] then .error .emptyKey
  else if '"' ∈ key then .error (.strayQuote key)
  else
    match Text.trimBlanks (t.dropWhile isKeyChar) with
    | '=' :: rest => .ok (key, Text.trimBlanks rest)
    | _ => .error (.missingEquals key)

/-- Reads a quoted text whose opening quote has been read. -/
def takeQuoted (t : Text) : Except GrammarError (Text × Text) :=
  match t.dropWhile (· != '"') with
  | _ :: rest => .ok (t.takeWhile (· != '"'), rest)
  | [] => .error .unterminatedQuote

/-- Reads a value, quoted or bare. -/
def takeValue : Text → Except GrammarError (Text × Text)
  | '"' :: rest => takeQuoted rest
  | t =>
      if '"' ∈ t.untilBlank then .error (.strayQuote t.untilBlank)
      else .ok (t.untilBlank, t.fromBlank)

/-- Reads one pair off the front of a text that does not begin with a blank. -/
def takePair (t : Text) : Except GrammarError ((Text × Text) × Text) :=
  match takeKey t with
  | .error e => .error e
  | .ok (key, rest) =>
      match takeValue rest with
      | .error e => .error e
      | .ok (value, rest) => .ok ((key, value), rest)

theorem takeKey_length_lt {t key rest : Text} (h : takeKey t = .ok (key, rest)) :
    rest.length < t.length := by
  simp only [takeKey] at h
  split at h
  next => cases h
  next =>
    split at h
    next => cases h
    next =>
      split at h
      next r hr =>
        cases h
        have h1 := Text.length_trimBlanks_le r
        have h2 := Text.length_trimBlanks_le (t.dropWhile isKeyChar)
        have h3 : (t.dropWhile isKeyChar).length ≤ t.length := (List.dropWhile_suffix _).length_le
        have h4 : (Text.trimBlanks (t.dropWhile isKeyChar)).length = r.length + 1 := by
          rw [hr]; rfl
        omega
      next => cases h

theorem takeValue_length_le {t value rest : Text} (h : takeValue t = .ok (value, rest)) :
    rest.length ≤ t.length := by
  unfold takeValue at h
  split at h
  next r =>
    simp only [takeQuoted] at h
    split at h
    next c tail hd =>
      cases h
      have h1 : (r.dropWhile (· != '"')).length ≤ r.length := (List.dropWhile_suffix _).length_le
      rw [hd] at h1
      simp only [List.length_cons] at h1 ⊢
      omega
    next => cases h
  next =>
    split at h
    next => cases h
    next =>
      cases h
      exact Text.length_fromBlank_le _

theorem takePair_length_lt {t rest : Text} {pair : Text × Text}
    (h : takePair t = .ok (pair, rest)) : rest.length < t.length := by
  simp only [takePair] at h
  split at h
  next => cases h
  next key r hk =>
    split at h
    next => cases h
    next value r' hv =>
      cases h
      have h1 := takeKey_length_lt hk
      have h2 := takeValue_length_le hv
      omega

/-! ## A list of pairs -/

/-- Reads every pair of a text, in order. -/
def parsePairs (t : Text) : Except GrammarError (List (Text × Text)) :=
  if t.trimBlanks = [] then .ok []
  else
    match _h : takePair t.trimBlanks with
    | .error e => .error e
    | .ok (pair, rest) =>
        match parsePairs rest with
        | .error e => .error e
        | .ok pairs => .ok (pair :: pairs)
termination_by t.length
decreasing_by
  have h1 := takePair_length_lt _h
  have h2 := Text.length_trimBlanks_le t
  omega

end ToolRegistry.Wire
