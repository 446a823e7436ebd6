import ToolRegistry.Proofs.Accepted

/-!
# An accepted request, written down again

A server finds a command in a line, and a command can be written as a line.
Doing both one after the other need not give the line back: blanks go, a bare
value comes back in quotes, a number loses its sign or its leading zeros. What
one expects back is the command.

Nearly every line keeps that promise, because what is read is something that
can be written (`parse_sound`, `parse_encode`): ids and positions count from 1,
a text is not empty, and no value of a pair holds a quote, be it bare or not.
One line does not. A bare text argument ends at a blank only, so it can hold a
quote further inside, and that quote ends the text once it stands in quotes
itself. Such a command is written, read and shorter than it was.
-/

namespace ToolRegistry.Wire

open Text

/-- The word where a line that attaches a text has the text: the third one. -/
def textWord (line : Text) : Text := (splitToken (splitToken (splitToken line).2).2).1

/-- A line attaches a bare text that holds a quote. -/
def HasStrayQuote (line : Text) : Prop :=
  CommandKind.ofToken? (splitToken line).1 = some .addString ∧
    (textWord line).head? ≠ some '"' ∧ '"' ∈ textWord line

instance (line : Text) : Decidable (HasStrayQuote line) :=
  inferInstanceAs (Decidable (_ ∧ _ ∧ _))

/-! ## Where a text comes from -/

/-- A text argument that begins with a quote has none inside, and any other is one word. -/
theorem IsTextArgument.cases_quote {t u : Text} (h : IsTextArgument t u) :
    (splitToken t).1.head? = some '"' ∧ '"' ∉ u ∨
      (splitToken t).1.head? ≠ some '"' ∧ u = (splitToken t).1 := by
  cases h with
  | quoted hblanks _ hv =>
      left
      exact ⟨(head?_splitToken _).mpr ⟨_, trimBlanks_quote hblanks u _⟩, hv⟩
  | bare hword _ hquote =>
      right
      rw [splitToken_eq_iff.mpr hword]
      exact ⟨hquote, rfl⟩

/-- The kind of a command is the one that its line names. -/
theorem ofToken?_of_parse {line : Text} {c : Command} (h : Command.parse line = .ok c) :
    CommandKind.ofToken? (splitToken line).1 = some c.kind := by
  obtain ⟨word, rest, kind, hfirst, hkind, hform⟩ := parse_eq_ok_iff.mp h
  rw [splitToken_eq_iff.mpr hfirst, hform.kind_eq]
  exact ofToken?_eq_some_iff.mpr hkind

theorem isTextArgument_of_parse {line u : Text} {id : EntryId}
    (h : Command.parse line = .ok (.addString id u)) :
    IsTextArgument (splitToken (splitToken line).2).2 u := by
  obtain ⟨word, rest, kind, hfirst, -, hform⟩ := parse_eq_ok_iff.mp h
  cases hform with
  | addString hid htext =>
      obtain ⟨word', hfirst', -⟩ := hid
      rwa [splitToken_eq_iff.mpr hfirst, splitToken_eq_iff.mpr hfirst']

/-! ## What a line with a stray quote becomes -/

/-- The one command whose texts may hold a quote is the one of a line with a stray quote. -/
theorem allTexts_or_stray {line : Text} {c : Command} (h : Command.parse line = .ok c) :
    ¬HasStrayQuote line ∧ c.AllTexts ('"' ∉ ·) ∨
      HasStrayQuote line ∧ ∃ id, c = .addString id (textWord line) := by
  have hkind := ofToken?_of_parse h
  obtain ⟨hargs, hfields⟩ := parse_sound h
  by_cases hadd : c.kind = .addString
  · -- The text is either taken out of quotes or the third word as it stands.
    obtain ⟨id, u, rfl⟩ : ∃ id u, c = .addString id u := by
      cases c <;> first | exact ⟨_, _, rfl⟩ | cases hadd
    have hne : u ≠ [] := hargs.2.1
    rcases (isTextArgument_of_parse h).cases_quote with ⟨hhead, hq⟩ | ⟨hhead, rfl⟩
    · left
      exact ⟨fun hstray => hstray.2.1 hhead, hne, hq⟩
    · by_cases hq : '"' ∈ textWord line
      · right
        exact ⟨⟨hkind, hhead, hq⟩, id, rfl⟩
      · left
        exact ⟨fun hstray => hq hstray.2.2, hne, hq⟩
  · left
    refine ⟨fun hstray => hadd (Option.some.inj (hkind.symm.trans hstray.1)), ?_⟩
    cases c with
    | create s | search s | change id s => exact hfields
    | addString id u => exact absurd rfl hadd
    | _ => trivial

/-- A quote inside a text ends the text when the command is written and read. -/
theorem parse_encode_cut {id : EntryId} {before : Text} (behind : Text) (hid : id ≠ 0)
    (hne : before ≠ []) (hq : '"' ∉ before) :
    Command.parse (Command.addString id (before ++ '"' :: behind)).encode =
      .ok (.addString id before) := by
  have hread : takeText .addString (argumentText [quote (before ++ '"' :: behind)]) =
      .ok before := by
    have htrim : trimBlanks (' ' :: quote (before ++ '"' :: behind)) =
        '"' :: (before ++ '"' :: (behind ++ ['"'])) := by
      show '"' :: (before ++ '"' :: behind ++ ['"']) = _
      rw [List.append_assoc, List.cons_append]
    rw [argumentText_single, if_neg (show quote _ ≠ [] from List.cons_ne_nil _ _), takeText,
      parseTextArgument, htrim]
    simp only [takeQuoted_append hq, nonEmpty, if_neg hne]
  rw [parse_encode_eq]
  simp only [Command.kind, Command.arguments, Command.parseArguments]
  rw [takeId_argumentText hid]
  simp only [bind, Except.bind]
  rw [hread]
  rfl

/-- What has been read is read again, once it is written, as the same command, unless its line
attaches a bare text with a quote in it. Then the text ends before its first quote. -/
theorem parse_encode_parsed {line : Text} {c : Command} (h : Command.parse line = .ok c) :
    (¬HasStrayQuote line → c.AllTexts ('"' ∉ ·) ∧ Command.parse c.encode = .ok c) ∧
      (HasStrayQuote line → ∃ id before behind, before ≠ [] ∧ '"' ∉ before ∧
        c = .addString id (before ++ '"' :: behind) ∧
        Command.parse c.encode = .ok (.addString id before)) := by
  have hargs := (parse_sound h).1
  rcases allTexts_or_stray h with ⟨hplain, htexts⟩ | ⟨hstray, id, rfl⟩
  · refine ⟨fun _ => ⟨htexts, ?_⟩, fun hstray => absurd hstray hplain⟩
    exact parse_encode (hargs.of_allTexts htexts)
  · refine ⟨fun hplain => absurd hstray hplain, fun _ => ?_⟩
    obtain ⟨-, hhead, hmem⟩ := hstray
    obtain ⟨before, behind, hword, hq⟩ := List.eq_append_cons_of_mem hmem
    have hne : before ≠ [] := by
      rintro rfl
      exact hhead (by rw [hword]; rfl)
    rw [hword]
    exact ⟨id, before, behind, hne, hq, rfl, parse_encode_cut behind hargs.1 hne hq⟩

/-- A stray quote in the text of one line, and a quote that ends the text of another. -/
theorem parse_encode_parsed_addString :
    (Command.parse " addstr\t007  a\"b tail" = .ok (.addString 7 "a\"b") ∧
      HasStrayQuote " addstr\t007  a\"b tail" ∧
      ∃ id before behind, before ≠ [] ∧ '"' ∉ before ∧
        Command.addString 7 "a\"b" = .addString id (before ++ '"' :: behind) ∧
        Command.parse (Command.addString 7 "a\"b").encode = .ok (.addString id before)) ∧
    (Command.parse "ADDSTR 7 \"a\"b" = .ok (.addString 7 "a") ∧
      ¬HasStrayQuote "ADDSTR 7 \"a\"b" ∧
      Command.parse (Command.addString 7 "a").encode = .ok (.addString 7 "a")) :=
  have hstray : Command.parse " addstr\t007  a\"b tail" = .ok (.addString 7 "a\"b") := by decide
  have hquoted : Command.parse "ADDSTR 7 \"a\"b" = .ok (.addString 7 "a") := by decide
  ⟨⟨hstray, by decide, (parse_encode_parsed hstray).2 (by decide)⟩,
    hquoted, by decide, ((parse_encode_parsed hquoted).1 (by decide)).2⟩

/-- A request that is accepted, written and accepted again need not be the same request. -/
theorem parse_encode_ne :
    ¬∀ line c, Command.parse line = .ok c →
      Command.parse c.encode = .ok c ∧ c.AllTexts ('"' ∉ ·) := by
  intro h
  have hline : Command.parse "ADDSTR 1 a\"b" = .ok (.addString 1 "a\"b") := by decide
  exact absurd (h _ _ hline).1 (by decide)

end ToolRegistry.Wire
