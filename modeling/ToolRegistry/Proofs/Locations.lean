import ToolRegistry.Proofs.Announcements

/-!
# A location that has been read keeps its written form

A location is trimmed before it is read, and so is the line in which it is
announced. Neither is undone when it is written, so the question is whether
trimming and cutting at the last colon find the same host again. They do,
because what has been trimmed begins visibly, the host is the part that it
begins with, and the written form ends in a digit: there is nothing to trim at
either end, and no colon behind the one in front of the port. Blanks elsewhere in
the host, and blanks at its end, stay where they are.

`trim_eq_iff` says what trimming leaves without a word on how it is done, and
`parse?_eq_some_iff` which texts are locations, and of what. A text can be read
in several forms (white space around it, zeros or a plus sign in front of the
port), and writing what was read chooses one of them.
-/

namespace ToolRegistry

open Decimal

/-! ## What is trimmed -/

namespace Text

/-- A text of nothing but white space. -/
def IsWhite (t : Text) : Prop := ∀ c ∈ t, isWhiteSpace c = true

instance (t : Text) : Decidable t.IsWhite :=
  List.decidableBAll (fun c : Char => isWhiteSpace c = true) t

theorem head?_trimStart {t : Text} {c : Char} (h : c ∈ (trimStart t).head?) :
    isWhiteSpace c = false := by
  have hnot := List.head?_dropWhile_not isWhiteSpace t
  rw [trimStart, Option.mem_def] at h
  rw [h] at hnot
  exact hnot

/-- Trimming takes white space off both ends, and all that there is. -/
theorem trim_eq_iff {t u : Text} :
    t.trim = u ↔ (∃ before after, before.IsWhite ∧ after.IsWhite ∧ t = before ++ u ++ after) ∧
      (∀ c ∈ u.head?, isWhiteSpace c = false) ∧ ∀ c ∈ u.getLast?, isWhiteSpace c = false := by
  constructor
  · intro h
    subst h
    have hstart : t.takeWhile isWhiteSpace ++ trimStart t = t := List.takeWhile_append_dropWhile
    have hend : t.trim ++ ((trimStart t).reverse.takeWhile isWhiteSpace).reverse = trimStart t := by
      rw [trim, trimEnd, ← List.reverse_append, List.takeWhile_append_dropWhile,
        List.reverse_reverse]
    refine ⟨⟨t.takeWhile isWhiteSpace, ((trimStart t).reverse.takeWhile isWhiteSpace).reverse,
      fun c hc => List.mem_takeWhile_imp hc,
      fun c hc => List.mem_takeWhile_imp (List.mem_reverse.mp hc), ?_⟩, fun c hc => ?_,
      fun c hc => ?_⟩
    · rw [List.append_assoc, hend, hstart]
    · refine head?_trimStart (t := t) ?_
      rw [← hend]
      exact List.mem_head?_append_of_mem_head? hc
    · rw [trim, trimEnd, List.getLast?_reverse] at hc
      exact head?_trimStart hc
  · intro h
    obtain ⟨⟨before, after, hbefore, hafter, rfl⟩, hfirst, hlast⟩ := h
    have hdrop : trimStart (before ++ u ++ after) = trimStart (u ++ after) := by
      rw [List.append_assoc]
      exact List.dropWhile_append_of_pos hbefore
    rw [trim, hdrop]
    by_cases hne : u = []
    · have hnil : trimStart after = [] := List.dropWhile_eq_nil_iff.mpr hafter
      rw [hne, List.nil_append, hnil]
      rfl
    · have hwhole : trimStart (u ++ after) = u ++ after :=
        dropWhile_of_head? (by rwa [List.head?_append_of_ne_nil _ hne])
      have hback : (u ++ after).reverse.dropWhile isWhiteSpace = u.reverse := by
        rw [List.reverse_append, List.dropWhile_append_of_pos fun c hc =>
          hafter c (List.mem_reverse.mp hc)]
        exact dropWhile_of_head? (by rwa [List.head?_reverse])
      rw [hwhole, trimEnd, hback, List.reverse_reverse]

theorem trim_surrounded {before after t : Text} (hbefore : before.IsWhite) (hafter : after.IsWhite)
    (h : t.trim = t) : trim (before ++ t ++ after) = t :=
  trim_eq_iff.mpr ⟨⟨before, after, hbefore, hafter, rfl⟩, (trim_eq_iff.mp h).2⟩

end Text

/-! ## What is a location -/

namespace Location

/-- A location is written with a last colon, something in front of it and a port behind it. -/
theorem parse?_eq_some_iff {t : Text} {l : Location} :
    parse? t = some l ↔
      ∃ port, t.trim = l.host ++ ':' :: port ∧ ':' ∉ port ∧ l.host ≠ [] ∧
        IsNatural port l.port.toNat := by
  simp only [parse?, Option.bind_eq_bind, Option.bind_eq_some_iff]
  constructor
  · intro h
    obtain ⟨⟨host, port⟩, hsplit, h⟩ := h
    obtain ⟨htrim, hcolon⟩ := Text.splitAtLast?_eq_some_iff.mp hsplit
    split at h
    · cases h
    · next hne =>
        obtain ⟨n, hport, hl⟩ := Option.bind_eq_some_iff.mp h
        cases hl
        exact ⟨port, htrim, hcolon, hne, uint16?_eq_some_iff.mp hport⟩
  · intro h
    obtain ⟨port, htrim, hcolon, hne, hport⟩ := h
    refine ⟨(l.host, port), Text.splitAtLast?_eq_some_iff.mpr ⟨htrim, hcolon⟩, ?_⟩
    rw [if_neg hne, uint16?_eq_some_iff.mpr hport]
    rfl

theorem parse_eq_ok_iff {t : Text} {l : Location} : parse t = .ok l ↔ parse? t = some l := by
  rw [parse]
  cases parse? t <;> simp

/-- The host begins what has been trimmed. -/
theorem beginsVisibly_of_parse? {t : Text} {l : Location} (h : parse? t = some l) :
    l.host.BeginsVisibly := by
  obtain ⟨port, htrim, -, hne, -⟩ := parse?_eq_some_iff.mp h
  obtain ⟨c, rest, hhost⟩ := List.exists_cons_of_ne_nil hne
  refine ⟨c, by rw [hhost]; rfl, (Text.trim_eq_iff.mp htrim).2.1 c ?_⟩
  rw [hhost]
  rfl

/-- White space around the line of an announcement does not matter. -/
theorem ofAnnouncement?_surrounded {l : Location} (h : l.host.BeginsVisibly) {before after : Text}
    (hbefore : before.IsWhite) (hafter : after.IsWhite) :
    ofAnnouncement? (before ++ l.announcement ++ after) = some l := by
  have hname : Text.BeginsVisibly (variableName ++ '=' :: (l.host ++ [':'])) := ⟨'P', rfl, rfl⟩
  have htrim : l.announcement.trim = l.announcement := by
    rw [announcement_eq]
    exact hname.trim_append_ofNat _
  have hline := ofAnnouncement?_announcement h
  rw [ofAnnouncement?, htrim] at hline
  rw [ofAnnouncement?, Text.trim_surrounded hbefore hafter htrim]
  exact hline

/-- What is read as a location has a host that is not empty and begins visibly, and the location is
found again in its written form and in its announcement with any white space around it. A text is
read as a location if, once it is trimmed, there is something in front of its last colon and a
number of sixteen bits behind it, and these are the host and the port. -/
theorem parse_stable (t : Text) :
    (∀ l, parse t = .ok l →
      l.host ≠ [] ∧ (∀ c ∈ l.host.head?, Text.isWhiteSpace c = false) ∧ parse l.render = .ok l ∧
      ∀ before after : Text, before.IsWhite → after.IsWhite →
        ofAnnouncement? (before ++ l.announcement ++ after) = some l) ∧
    (∀ l, parse t = .ok l ↔ ∃ port, t.trim = l.host ++ ':' :: port ∧ ':' ∉ port ∧ l.host ≠ [] ∧
      IsNatural port l.port.toNat) ∧
    ((∃ l, parse t = .ok l) ↔ ∃ host port n, t.trim = host ++ ':' :: port ∧ ':' ∉ port ∧
      host ≠ [] ∧ IsNatural port n ∧ n ≤ 65535) := by
  have hform : ∀ l, parse t = .ok l ↔ ∃ port, t.trim = l.host ++ ':' :: port ∧ ':' ∉ port ∧
      l.host ≠ [] ∧ IsNatural port l.port.toNat := fun l =>
    parse_eq_ok_iff.trans parse?_eq_some_iff
  refine ⟨fun l hl => ?_, hform, fun h => ?_, fun h => ?_⟩
  · have hvisible := beginsVisibly_of_parse? (parse_eq_ok_iff.mp hl)
    exact ⟨hvisible.ne_nil, hvisible.head?, parse_eq_ok_iff.mpr (parse?_render hvisible),
      fun before after hbefore hafter => ofAnnouncement?_surrounded hvisible hbefore hafter⟩
  · obtain ⟨l, hl⟩ := h
    obtain ⟨port, htrim, hcolon, hne, hport⟩ := (hform l).mp hl
    have hlt := l.port.toNat_lt
    exact ⟨l.host, port, l.port.toNat, htrim, hcolon, hne, hport, by omega⟩
  · obtain ⟨host, port, n, htrim, hcolon, hne, hport, hn⟩ := h
    refine ⟨⟨host, UInt16.ofNat n⟩, (hform _).mpr ⟨port, htrim, hcolon, hne, ?_⟩⟩
    rw [UInt16.toNat_ofNat_of_lt' (by omega : n < 65536)]
    exact hport

/-- An address of colons with a blank behind it, and a port with a sign and zeros. -/
theorem parse_stable_colons :
    let t : Text := "\t fe80::1 \u00a0:+0050001\r\n"
    let l : Location := ⟨"fe80::1 \u00a0", 50001⟩
    parse t = .ok l ∧ l.render = "fe80::1 \u00a0:50001" ∧ parse l.render = .ok l ∧
      ofAnnouncement? ("\u3000 ".toList ++ l.announcement ++ "\r\n".toList) = some l := by
  intro t l
  have hl : parse t = .ok l := by decide +kernel
  obtain ⟨-, -, hrender, hannounced⟩ := (parse_stable t).1 l hl
  exact ⟨hl, by decide +kernel, hrender, hannounced _ _ (by decide) (by decide)⟩

end Location

end ToolRegistry
