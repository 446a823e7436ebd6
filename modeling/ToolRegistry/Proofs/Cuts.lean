import ToolRegistry.Proofs.Framing
import ToolRegistry.Proofs.Requests

/-!
# What is left of a line that is cut off

The bytes of a line may end anywhere. What is read of such a line is a
beginning of its text, or a beginning with one replacement after it if the cut
falls inside a character (`IsCut`). Only characters beyond ASCII can be cut in
two, so a replacement never stands where the line has a digit, a blank, a quote
or a key.

The laws of this module take a cut line apart along its text: a cut of two
pieces falls in the first or in the second, a cut of words with spaces between
them leaves some of the words whole and one cut off, and a quoted text that is
cut off has lost its closing quote.
-/

namespace ToolRegistry

open Wire Text

/-- What may be read of a text whose bytes end too early, the whole text included. -/
def Text.IsCut (t d : Text) : Prop :=
  d <+: t ∨ ∃ s c, s ++ [c] <+: t ∧ 0x80 ≤ c.toNat ∧ d = s ++ [Utf8.replacement]

theorem Text.isCut_decodeLossy {t : Text} {q : Bytes} (h : q <+: Utf8.encode t) :
    t.IsCut (Utf8.decodeLossy q) := by
  rcases Utf8.decodeLossy_prefix h with ⟨s, hs, -, hd⟩ | ⟨s, c, hs, hc, hd⟩
  · exact .inl (hd ▸ hs)
  · exact .inr ⟨s, c, hs, hc, hd⟩

theorem Text.IsPlain.toNat_lt {t s : Text} {c : Char} (ht : t.IsPlain) (hs : s ++ [c] <+: t) :
    c.toNat < 0x80 :=
  (ht c (hs.mem (List.mem_append_right _ List.mem_cons_self))).2

/-- A plain text is cut between two of its characters. -/
theorem Text.prefix_encode_plain {t : Text} (ht : t.IsPlain) {q : Bytes}
    (h : q <+: Utf8.encode t) :
    q = Utf8.encode (Utf8.decodeLossy q) ∧ Utf8.decodeLossy q <+: t := by
  rcases Utf8.decodeLossy_prefix h with ⟨s, hs, hq, hd⟩ | ⟨s, c, hs, hc, -⟩
  · rw [hd]
    exact ⟨hq, hs⟩
  · exact absurd (ht.toNat_lt hs) (Nat.not_lt.mpr hc)

/-- Without a replacement in it, what is left of a line is left of its bytes. -/
theorem Text.eq_encode_of_decodeLossy {t d : Text} (hd : Utf8.replacement ∉ d)
    {q : Bytes} (h : q <+: Utf8.encode t) (hq : Utf8.decodeLossy q = d) :
    q = Utf8.encode d ∧ d <+: t := by
  rcases Utf8.decodeLossy_prefix h with ⟨s, hs, rfl, hs'⟩ | ⟨s, c, -, -, hs'⟩
  · rw [← hq, hs']
    exact ⟨rfl, hs⟩
  · have hmem : Utf8.replacement ∈ d := by
      rw [← hq, hs']
      exact List.mem_append_right _ List.mem_cons_self
    exact absurd hmem hd

/-- The last character of two pieces belongs to the second one, unless that is empty. -/
theorem Text.concat_eq_append {s a u : Text} {c : Char} (h : s ++ [c] = a ++ u) :
    u = [] ∨ ∃ v, u = v ++ [c] ∧ s = a ++ v := by
  rcases List.eq_nil_or_concat u with hu | ⟨v, e, rfl⟩
  · exact .inl hu
  · rw [List.concat_eq_append, ← List.append_assoc] at h
    obtain ⟨hs, he⟩ := List.append_inj' h rfl
    cases he
    exact .inr ⟨v, List.concat_eq_append, hs⟩

namespace Text.IsCut

variable {a b t d : Text}

theorem prefix_of_plain (h : t.IsCut d) (ht : t.IsPlain) : d <+: t := by
  rcases h with h | ⟨s, c, hs, hc, -⟩
  · exact h
  · exact absurd (ht.toNat_lt hs) (Nat.not_lt.mpr hc)

/-- A cut behind a plain piece falls in that piece or after it. -/
theorem append_cases (h : IsCut (a ++ b) d) (ha : a.IsPlain) :
    (d <+: a ∧ d ≠ a) ∨ ∃ w, d = a ++ w ∧ b.IsCut w := by
  rcases h with h | ⟨s, c, hs, hc, rfl⟩
  · rcases Utf8.prefix_append_cases h with h | ⟨w, hw, hb⟩
    · exact .inl h
    · exact .inr ⟨w, hw, .inl hb⟩
  · have hnot : c ∉ a := fun hm => absurd (ha c hm).2 (Nat.not_lt.mpr hc)
    have hlast : c ∈ s ++ [c] := List.mem_append_right _ List.mem_cons_self
    rcases Utf8.prefix_append_cases hs with ⟨h, -⟩ | ⟨w, hw, hb⟩
    · exact absurd (h.mem hlast) hnot
    · rcases concat_eq_append hw with rfl | ⟨v, rfl, rfl⟩
      · rw [List.append_nil] at hw
        exact absurd (hw ▸ hlast) hnot
      · exact .inr ⟨v ++ [Utf8.replacement], by rw [List.append_assoc], .inr ⟨v, c, hb, hc, rfl⟩⟩

theorem cons_cases {c : Char} (h : IsCut (c :: b) d) (hc : Text.IsPlain [c]) :
    d = [] ∨ ∃ w, d = c :: w ∧ b.IsCut w := by
  rcases @append_cases [c] b d h hc with ⟨hd, hne⟩ | hw
  · left
    rcases List.prefix_cons_iff.mp hd with h | ⟨w, rfl, hw⟩
    · exact h
    · exact absurd (by rw [List.prefix_nil.mp hw]) hne
  · exact .inr hw

/-- A text in quotes that is cut off has no closing quote. -/
theorem quote_cases (h : IsCut (b ++ ['"']) d) (hb : '"' ∉ b) : d = b ++ ['"'] ∨ '"' ∉ d := by
  rcases h with h | ⟨s, c, hs, hc, rfl⟩
  · rcases List.prefix_concat_iff.mp h with h | h
    · exact .inl h
    · exact .inr fun hm => hb (h.mem hm)
  · right
    rcases List.prefix_concat_iff.mp hs with h | h
    · have hquote := (List.append_inj' h rfl).2
      cases hquote
      exact absurd hc (by decide)
    · intro hm
      rcases List.mem_append.mp hm with hm | hm
      · exact hb (h.mem (List.mem_append_left _ hm))
      · exact absurd (List.mem_singleton.mp hm) (by decide)

end Text.IsCut

/-- Words with a space after each of them. -/
def Text.spaced (words : List Text) : Text := words.flatMap (· ++ [' '])

theorem Text.spaced_cons (w : Text) (words : List Text) (u : Text) :
    spaced (w :: words) ++ u = w ++ ' ' :: (spaced words ++ u) := by
  rw [spaced, spaced, List.flatMap_cons, List.append_assoc, List.append_assoc]
  rfl

theorem Text.join_concat (words : List Text) (w : Text) :
    join [' '] (words ++ [w]) = spaced words ++ w := by
  induction words with
  | nil =>
      rw [List.nil_append, join_cons, if_pos rfl, List.append_nil]
      rfl
  | cons v words ih =>
      rw [List.cons_append, join_cons, if_neg (List.append_ne_nil_of_right_ne_nil _ (by simp)),
        ih, spaced_cons]
      rfl

theorem Text.spaced_concat (words : List Text) (w : Text) :
    spaced (words ++ [w]) = (spaced words ++ w) ++ [' '] := by
  rw [spaced, spaced, List.flatMap_append, List.flatMap_singleton, List.append_assoc]

theorem Text.prefix_join {words : List Text} (hne : words ≠ []) {s : Text}
    (h : s <+: join [' '] words) :
    ∃ before w after u, words = before ++ w :: after ∧ u <+: w ∧ s = spaced before ++ u := by
  induction words generalizing s with
  | nil => exact absurd rfl hne
  | cons w words ih =>
      rw [join_cons] at h
      rcases Utf8.prefix_append_cases h with ⟨hs, -⟩ | ⟨r, rfl, hr⟩
      · exact ⟨[], w, words, s, rfl, hs, rfl⟩
      · split at hr
        · rw [List.prefix_nil.mp hr, List.append_nil]
          exact ⟨[], w, words, w, rfl, List.prefix_refl w, rfl⟩
        · next hwords =>
            rcases List.prefix_cons_iff.mp hr with rfl | ⟨r', rfl, hr'⟩
            · rw [List.append_nil]
              exact ⟨[], w, words, w, rfl, List.prefix_refl w, rfl⟩
            · obtain ⟨before, v, after, u, hsplit, hu, rfl⟩ := ih hwords hr'
              refine ⟨w :: before, v, after, u, by rw [hsplit, List.cons_append], hu, ?_⟩
              rw [spaced_cons]

/-- Words that are cut off: some are left whole, and one is cut. -/
theorem Text.IsCut.join_cases {words : List Text} (hne : words ≠ []) {d : Text}
    (h : IsCut (join [' '] words) d) :
    ∃ before w after u, words = before ++ w :: after ∧ w.IsCut u ∧ d = spaced before ++ u := by
  rcases h with h | ⟨s, c, hs, hc, rfl⟩
  · obtain ⟨before, w, after, u, hsplit, hu, hd⟩ := prefix_join hne h
    exact ⟨before, w, after, u, hsplit, .inl hu, hd⟩
  · obtain ⟨before, w, after, u, hsplit, hu, hd⟩ := prefix_join hne hs
    rcases concat_eq_append hd with rfl | ⟨v, rfl, rfl⟩
    · -- A whole word is followed by a space, which is no wide character.
      rw [List.append_nil] at hd
      rcases List.eq_nil_or_concat before with rfl | ⟨before, v, rfl⟩
      · exact absurd hd (List.append_ne_nil_of_right_ne_nil _ (List.cons_ne_nil _ _))
      · rw [List.concat_eq_append, spaced_concat] at hd
        obtain ⟨-, hspace⟩ := List.append_inj' hd rfl
        cases hspace
        exact absurd hc (by decide)
    · exact ⟨before, w, after, v ++ [Utf8.replacement], hsplit, .inr ⟨v, c, hu, hc, rfl⟩,
        by rw [List.append_assoc]⟩

end ToolRegistry
