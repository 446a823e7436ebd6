import ToolRegistry.Proofs.RequestLanguage
import ToolRegistry.Proofs.Requests

/-!
# What an accepted request carries

Whatever the bytes are that reach a server, the command that it finds in a line
of them obeys some laws: its ids and positions are not zero, a text that it
attaches is not empty, no text of a field set holds a quote, and every text is
part of the line, so that it holds no line break either.

A text that is attached may hold a quote, because the bare form of a text
argument ends only at a blank. That is the one place where a command that has
been read may not be one that can be written.

The readers do not appear here. An accepted line has the form of a request
(`parse_eq_ok_iff`), and each part of a form is a part of the text that has it.
-/

namespace ToolRegistry

namespace Wire

open Text

variable {t rest : Text}

/-! ## Parts of a line -/

theorem FirstWord.subset {word : Text} (h : FirstWord t word rest) : word ⊆ t ∧ rest ⊆ t := by
  cases h
  exact ⟨List.subset_append_of_subset_left _ (List.subset_append_right _ _),
    List.subset_append_right _ _⟩

theorem BeginsWithNumber.rest_subset {bits n : Nat} (h : BeginsWithNumber bits t n rest) :
    rest ⊆ t := by
  obtain ⟨word, hfirst, -⟩ := h
  exact hfirst.subset.2

theorem BeginsWithNumber.id_ne_zero {id : EntryId} (h : BeginsWithNumber 32 t id.toNat rest) :
    id ≠ 0 := by
  rintro rfl
  obtain ⟨_, -, -, hone, -⟩ := h
  exact absurd hone (by decide)

theorem BeginsWithNumber.pos_ne_zero {pos : UInt64} (h : BeginsWithNumber 64 t pos.toNat rest) :
    pos ≠ 0 := by
  rintro rfl
  obtain ⟨_, -, -, hone, -⟩ := h
  exact absurd hone (by decide)

theorem BeginsWithValue.parts {v : Text} (h : BeginsWithValue t v rest) :
    '"' ∉ v ∧ v ⊆ t ∧ rest ⊆ t := by
  cases h with
  | quoted hv =>
      have hquote : v ⊆ quote v :=
        List.subset_cons_of_subset _ (List.subset_append_left _ _)
      exact ⟨hv, List.subset_append_of_subset_left _ hquote, List.subset_append_right _ _⟩
  | bare hv _ _ =>
      exact ⟨fun hq => (hv _ hq).2 rfl, List.subset_append_left _ _, List.subset_append_right _ _⟩

/-- The values of a list of pairs are parts of it and hold no quote. -/
theorem IsPairList.values {pairs : List (Text × Text)} (h : IsPairList t pairs) :
    ∀ p ∈ pairs, '"' ∉ p.2 ∧ p.2 ⊆ t := by
  induction h with
  | nil _ => exact List.forall_mem_nil _
  | @cons before key gap gap' valued value rest pairs _ _ _ _ hvalue _ ih =>
      obtain ⟨hq, hv, hrest⟩ := hvalue.parts
      have hvalued : valued ⊆ before ++ key ++ gap ++ '=' :: gap' ++ valued :=
        List.subset_append_right _ _
      refine List.forall_mem_cons.mpr ⟨⟨hq, List.Subset.trans hv hvalued⟩, fun p hp => ?_⟩
      obtain ⟨hpq, hpv⟩ := ih p hp
      exact ⟨hpq, List.Subset.trans hpv (List.Subset.trans hrest hvalued)⟩

theorem IsTextArgument.sound {u : Text} (h : IsTextArgument t u) : u ≠ [] ∧ u ⊆ t := by
  cases h with
  | @quoted blanks _ rest _ hne hv =>
      have hvalue : BeginsWithValue (quote u ++ rest) u rest := .quoted hv
      rw [List.append_assoc]
      exact ⟨hne, List.subset_append_of_subset_right _ hvalue.parts.2.1⟩
  | bare hword hne _ => exact ⟨hne, hword.subset.1⟩

/-! ## Field sets -/

theorem allTexts_empty (P : Text → Prop) : (∅ : FieldSet).AllTexts P := by
  intro f t ht
  cases f <;> cases ht

theorem IsGivenBy.allTexts {P : Text → Prop} {s : FieldSet} {pairs : List (Text × Text)}
    (h : IsGivenBy s pairs) (hp : ∀ p ∈ pairs, P p.2) : s.AllTexts P := by
  intro f t ht
  obtain ⟨-, hlast⟩ := (h.text f t).mp ht
  exact hp (f.name, t) (mem_of_lastValue? hlast)

theorem IsFieldList.allTexts {s : FieldSet} (h : IsFieldList t s) :
    s.AllTexts fun u => '"' ∉ u ∧ u ⊆ t := by
  obtain ⟨pairs, hpairs, -, hgiven⟩ := h
  exact hgiven.allTexts hpairs.values

/-! ## Commands -/

/-- The field set of a command that has one. -/
def Command.fieldSet : Command → FieldSet
  | .create s | .search s | .change _ s => s
  | _ => ∅

theorem HasForm.sound {kind : CommandKind} {c : Command} (h : HasForm kind t c) :
    c.HasArguments (· ⊆ t) ∧ c.fieldSet.AllTexts ('"' ∉ ·) := by
  cases h with
  | quit | help | list | clean => exact ⟨trivial, allTexts_empty _⟩
  | create hs | search hs =>
      exact ⟨hs.allTexts.mono fun _ hu => hu.2, hs.allTexts.mono fun _ hu => hu.1⟩
  | change hid hs =>
      exact ⟨⟨hid.id_ne_zero, hs.allTexts.mono fun _ hu => List.Subset.trans hu.2 hid.rest_subset⟩,
        hs.allTexts.mono fun _ hu => hu.1⟩
  | delete hid | fetch hid | listStrings hid | countStrings hid =>
      exact ⟨hid.id_ne_zero, allTexts_empty _⟩
  | addString hid htext =>
      obtain ⟨hne, hsub⟩ := htext.sound
      exact ⟨⟨hid.id_ne_zero, hne, List.Subset.trans hsub hid.rest_subset⟩, allTexts_empty _⟩
  | getString hid hpos | deleteString hid hpos =>
      exact ⟨⟨hid.id_ne_zero, hpos.pos_ne_zero⟩, allTexts_empty _⟩

/-- A command that is found in a line has arguments that are parts of the line. -/
theorem parse_sound {line : Text} {c : Command} (h : Command.parse line = .ok c) :
    c.HasArguments (· ⊆ line) ∧ c.fieldSet.AllTexts ('"' ∉ ·) := by
  obtain ⟨word, rest, kind, hfirst, -, hform⟩ := parse_eq_ok_iff.mp h
  obtain ⟨hargs, hfields⟩ := hform.sound
  exact ⟨hargs.mono fun _ hu => List.Subset.trans hu hfirst.subset.2, hfields⟩

/-- The word that a line is refused for is a part of the line. -/
theorem parse_unknown_subset {line token : Text}
    (h : Command.parse line = .error (.unknown token)) : token ⊆ line := by
  have hfirst : FirstWord line (splitToken line).1 (splitToken line).2 := splitToken_eq_iff.mp rfl
  simp only [Command.parse] at h
  split at h
  · cases h
    exact hfirst.subset.1
  · exact absurd h parseArguments_ne_unknown

end Wire

end ToolRegistry
