/-!
# Text

Everything the registry stores, sends and prints is text, and text here is
simply the list of its characters. The wire grammar, the framing rules and
the settings file are all defined by what happens at the front of a text, so
lists let every reader be written by recursion on the very thing it reads,
and let every law about it be proved by induction on that list.

A *blank* is what separates the words of a request line: a space or a tab,
and nothing else. White space in the wider sense has a module of its own,
`ToolRegistry.Text.WhiteSpace`, because the two notions meet in the same
line of input (a blank separates, white space is trimmed off numbers) and
must not be mixed up.
-/

namespace ToolRegistry

-- A bound such as `2 ^ 64` is the core library's power in every module, also
-- in those that import another library with a power of its own.
@[default_instance 20000]
instance (priority := 20000) natPow : Pow Nat Nat := instPowNat

@[default_instance 20000]
instance (priority := 20000) intPow : Pow Int Nat := instPowNat

/-- A piece of text: its characters, in order. -/
abbrev Text := List Char

/-- A string literal stands for the text of its characters. -/
instance : Coe String Text := ⟨String.toList⟩

namespace Text

/-! ## Blanks -/

/-- A space or a tab: what separates the words of a request line. -/
def isBlank (c : Char) : Bool := c == ' ' || c == '\t'

/-- The text without the blanks it begins with. -/
def trimBlanks (t : Text) : Text := t.dropWhile isBlank

/-- What stands before the first blank. -/
def untilBlank (t : Text) : Text := t.takeWhile (!isBlank ·)

/-- The first blank and what follows it. -/
def fromBlank (t : Text) : Text := t.dropWhile (!isBlank ·)

theorem dropWhile_of_head? {p : Char → Bool} {t : Text} (h : ∀ c ∈ t.head?, p c = false) :
    t.dropWhile p = t := by
  cases t with
  | nil => rfl
  | cons c t => rw [List.dropWhile_cons_of_neg (by simp [h c rfl])]

theorem untilBlank_append_fromBlank (t : Text) : untilBlank t ++ fromBlank t = t :=
  List.takeWhile_append_dropWhile

theorem length_trimBlanks_le (t : Text) : (trimBlanks t).length ≤ t.length :=
  (List.dropWhile_suffix _).length_le

theorem length_fromBlank_le (t : Text) : (fromBlank t).length ≤ t.length :=
  (List.dropWhile_suffix _).length_le

/-! ## Cutting and joining -/

/-- What follows `start`, for a text that begins with it. -/
def after? (start t : Text) : Option Text := start.isPrefixOf? t

/-- The text without one final `c`, if it ends in one. -/
def dropFinal (c : Char) (t : Text) : Text :=
  if t.getLast? = some c then t.dropLast else t

/-- The parts of `t` before and after the last `c` in it. -/
def splitAtLast? (c : Char) : Text → Option (Text × Text)
  | [] => none
  | d :: rest =>
      match splitAtLast? c rest with
      | some (before, behind) => some (d :: before, behind)
      | none => if d = c then some ([], rest) else none

theorem splitAtLast?_of_not_mem {c : Char} {t : Text} (h : c ∉ t) : splitAtLast? c t = none := by
  induction t with
  | nil => rfl
  | cons d rest ih =>
      rw [List.mem_cons, not_or] at h
      rw [splitAtLast?, ih h.2]
      exact if_neg (Ne.symm h.1)

theorem splitAtLast?_append {c : Char} {behind : Text} (h : c ∉ behind) (before : Text) :
    splitAtLast? c (before ++ c :: behind) = some (before, behind) := by
  induction before with
  | nil =>
      rw [List.nil_append, splitAtLast?, splitAtLast?_of_not_mem h]
      exact if_pos rfl
  | cons d before ih => rw [List.cons_append, splitAtLast?, ih]

theorem splitAtLast?_eq_none_iff {c : Char} {t : Text} : splitAtLast? c t = none ↔ c ∉ t := by
  refine ⟨fun h => ?_, splitAtLast?_of_not_mem⟩
  induction t with
  | nil => exact List.not_mem_nil
  | cons d rest ih =>
      rw [splitAtLast?] at h
      split at h
      · cases h
      · next hrest =>
          split at h
          · cases h
          · next hd => exact List.not_mem_cons_of_ne_of_not_mem (Ne.symm hd) (ih hrest)

/-- A text is cut at a `c` that no other one follows. -/
theorem splitAtLast?_eq_some_iff {c : Char} {t before behind : Text} :
    splitAtLast? c t = some (before, behind) ↔ t = before ++ c :: behind ∧ c ∉ behind := by
  refine ⟨fun h => ?_, fun ⟨ht, hno⟩ => ht ▸ splitAtLast?_append hno before⟩
  induction t generalizing before with
  | nil => cases h
  | cons d rest ih =>
      rw [splitAtLast?] at h
      split at h
      · next hrest =>
          cases h
          obtain ⟨rfl, hno⟩ := ih hrest
          exact ⟨rfl, hno⟩
      · next hrest =>
          split at h
          · next hd =>
              cases h
              exact ⟨by rw [hd, List.nil_append], splitAtLast?_eq_none_iff.mp hrest⟩
          · cases h

/-- The texts with `between` between each two of them. -/
def join (between : Text) (ts : List Text) : Text := between.intercalate ts

theorem forall_mem_join {p : Char → Prop} {between : Text} {ts : List Text}
    (hbetween : ∀ c ∈ between, p c) (hts : ∀ t ∈ ts, ∀ c ∈ t, p c) :
    ∀ c ∈ join between ts, p c := by
  intro c hc
  induction ts with
  | nil => cases hc
  | cons t ts ih =>
      rw [List.forall_mem_cons] at hts
      cases ts with
      | nil => exact hts.1 c (by simpa [join, List.intercalate] using hc)
      | cons u ts =>
          rw [join, List.intercalate_cons_cons, List.mem_append, List.mem_append] at hc
          rcases hc with (hc | hc) | hc
          · exact hts.1 c hc
          · exact hbetween c hc
          · exact ih hts.2 hc

/-- The parts of a text that are separated by a character. -/
def split (c : Char) : Text → List Text
  | [] => [[]]
  | d :: rest =>
      if d = c then [] :: split c rest
      else
        match split c rest with
        | part :: parts => (d :: part) :: parts
        | [] => [[d]]

theorem split_ne_nil (c : Char) (t : Text) : split c t ≠ [] := by
  cases t with
  | nil => simp [split]
  | cons d rest => simp only [split]; split <;> (try split) <;> simp

/-- The parts of a text, put together again, are the text. -/
theorem join_split (c : Char) (t : Text) : join [c] (split c t) = t := by
  induction t with
  | nil => rfl
  | cons d rest ih =>
      cases h : split c rest with
      | nil => exact absurd h (split_ne_nil c rest)
      | cons part parts =>
          rw [h] at ih
          simp only [split, h]
          split
          · next hd => subst hd; rw [← ih]; simp [join, List.intercalate]
          · rw [← ih]; cases parts <;> simp [join, List.intercalate]

theorem split_of_not_mem {c : Char} {t : Text} (h : c ∉ t) : split c t = [t] := by
  induction t with
  | nil => rfl
  | cons d rest ih =>
      rw [List.mem_cons, not_or] at h
      rw [split, if_neg (Ne.symm h.1), ih h.2]

theorem split_append {c : Char} {t : Text} (h : c ∉ t) (rest : Text) :
    split c (t ++ c :: rest) = t :: split c rest := by
  induction t with
  | nil => simp [split]
  | cons d t ih =>
      rw [List.mem_cons, not_or] at h
      rw [List.cons_append, split, if_neg (Ne.symm h.1), ih h.2]

/-- Texts without the character are found again after they have been put together. -/
theorem split_join {c : Char} : ∀ {ts : List Text}, ts ≠ [] → (∀ t ∈ ts, c ∉ t) →
    split c (join [c] ts) = ts
  | [t], _, h => by simpa [join, List.intercalate] using split_of_not_mem (h t (by simp))
  | t :: u :: ts, _, h => by
      have hj : join [c] (t :: u :: ts) = t ++ c :: join [c] (u :: ts) := by
        simp [join, List.intercalate]
      rw [hj, split_append (h t (by simp)), split_join (by simp) fun x hx => h x (by simp [hx])]

/-- Right-aligns `t` in a column of `width` characters. -/
def padLeft (width : Nat) (t : Text) : Text :=
  List.replicate (width - t.length) ' ' ++ t

/-- Left-aligns `t` in a column of `width` characters. -/
def padRight (width : Nat) (t : Text) : Text :=
  t ++ List.replicate (width - t.length) ' '

/-- The letters A to Z in lower case, every other character as it is. -/
def lowerAscii (t : Text) : Text := t.map Char.toLower

/-- Equal up to the case of the letters A to Z. -/
def sameIgnoringCase (s t : Text) : Bool := lowerAscii s == lowerAscii t

end Text

end ToolRegistry
