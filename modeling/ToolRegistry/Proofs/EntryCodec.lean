import ToolRegistry.Proofs.Accepted
import ToolRegistry.Proofs.EntryLines

/-!
# Which entries are read back from their lines

A text stands in quotes on an entry line, and there is no way to write a quote
between them. Everything else is safe: blanks at its ends, an equals sign, what
looks like another pair. So an entry is read back if none of its texts holds a
quote, and then only (`parseEntryLine?_allTexts`), because no value that is read
off a line ever holds one.

From this alone two entries with one line are equal if both can be read back. In
fact it is enough that one of them can. A line has two quotes for each of the six
texts and those that the texts hold themselves, and so its quotes tell whether
the texts hold any (`count_formatEntryLine`).
-/

namespace ToolRegistry

open Wire

namespace EntryFields

/-- The texts of an entry, one behind the other. -/
def allText (e : EntryFields) : Text := Field.all.flatMap fun f => (e.text? f).getD []

theorem not_mem_allText {c : Char} {e : EntryFields} : c ∉ e.allText ↔ e.AllTexts (c ∉ ·) := by
  constructor
  · intro h f t ht hc
    refine h (List.mem_flatMap.mpr ⟨f, f.mem_all, ?_⟩)
    rw [Option.mem_def.mp ht]
    exact hc
  · intro h hc
    obtain ⟨f, -, hf⟩ := List.mem_flatMap.mp hc
    cases ht : e.text? f with
    | none => simp [ht] at hf
    | some t =>
        rw [ht] at hf
        exact h f t ht hf

theorem text?_withText (e : EntryFields) (f g : Field) (t : Text) :
    (e.withText f t).text? g = if f = g ∧ f.isNumeric = false then some t else e.text? g := by
  cases f <;> cases g <;> rfl

theorem text?_withNumber (e : EntryFields) (f g : Field) (n : Int32) :
    (e.withNumber f n).text? g = e.text? g := by
  cases f <;> cases g <;> rfl

end EntryFields

namespace Text

theorem dropFinal_subset (c : Char) (t : Text) : t.dropFinal c ⊆ t := by
  rw [dropFinal]
  split
  · exact List.dropLast_subset t
  · exact List.Subset.refl t

theorem count_join {c : Char} {between : Text} (h : c ∉ between) (ts : List Text) :
    (join between ts).count c = ts.flatten.count c := by
  induction ts with
  | nil => rfl
  | cons t ts ih =>
      rw [join_cons, List.count_append, List.flatten_cons, List.count_append, ← ih]
      congr 1
      split
      · next hnil =>
          rw [hnil]
          rfl
      · rw [List.count_append, List.count_eq_zero.mpr h, Nat.zero_add]

end Text

namespace Wire

/-! ## Quotes on a line -/

theorem count_entryPair (e : EntryFields) (f : Field) :
    (entryPair e f).count '"' =
      (if f.isNumeric then 0 else 2) + ((e.text? f).getD []).count '"' := by
  have hname : '"' ∉ f.name := fun h => ((isKey_name f).2 _ h).2 rfl
  rcases e.value_cases f with ⟨n, hn, ht, hk⟩ | ⟨t, hn, ht, hk⟩
  · have hnumber := quote_not_mem_ofInt n.toInt
    simp [entryPair, hn, ht, hk, List.count_eq_zero.mpr hname, List.count_eq_zero.mpr hnumber]
  · simp [entryPair, hn, ht, hk, List.count_eq_zero.mpr hname, quote]
    omega

theorem count_formatEntryLine (r : EntryRecord) :
    (formatEntryLine r).count '"' = 12 + r.fields.allText.count '"' := by
  have hid : (Decimal.ofNat r.id.toNat).count '"' = 0 :=
    List.count_eq_zero.mpr (Decimal.not_mem_ofNat (by decide) _)
  have hmark : entryMark.count '"' = 0 := by decide
  rw [formatEntryLine, Text.count_join (by decide)]
  simp only [EntryFields.allText, Field.all, List.map_cons, List.map_nil, List.flatten_cons,
    List.flatten_nil, List.flatMap_cons, List.flatMap_nil, List.count_append, List.count_nil, hid,
    hmark, count_entryPair, Field.isNumeric, if_true, Bool.false_eq_true, if_false]
  omega

/-! ## What is read off a line -/

theorem putPair_allTexts {e e' : EntryFields} {pair : Text × Text} (he : e.AllTexts ('"' ∉ ·))
    (hpair : '"' ∉ pair.2) (h : putPair e pair = some e') : e'.AllTexts ('"' ∉ ·) := by
  rw [putPair] at h
  split at h
  · cases h
    exact he
  · next f _ =>
      simp only at h
      split at h
      · obtain ⟨n, -, rfl⟩ := Option.map_eq_some_iff.mp h
        intro g t ht
        rw [EntryFields.text?_withNumber] at ht
        exact he g t ht
      · cases h
        intro g t ht
        rw [EntryFields.text?_withText] at ht
        split at ht
        · cases ht
          exact fun hq => hpair (Text.dropFinal_subset _ _ hq)
        · exact he g t ht

theorem putPairs_allTexts {e e' : EntryFields} {pairs : List (Text × Text)}
    (he : e.AllTexts ('"' ∉ ·)) (hpairs : ∀ pair ∈ pairs, '"' ∉ pair.2)
    (h : putPairs e pairs = some e') : e'.AllTexts ('"' ∉ ·) := by
  induction pairs generalizing e with
  | nil =>
      cases h
      exact he
  | cons pair pairs ih =>
      obtain ⟨hpair, hrest⟩ := List.forall_mem_cons.mp hpairs
      obtain ⟨next, hput, h⟩ := Option.bind_eq_some_iff.mp h
      exact ih (putPair_allTexts he hpair hput) hrest h

/-- No value that is read off a line holds a quote. -/
theorem parseEntryLine?_allTexts {line : Text} {r : EntryRecord}
    (h : parseEntryLine? line = some r) : r.fields.AllTexts ('"' ∉ ·) := by
  simp only [parseEntryLine?, Option.bind_eq_bind, Option.bind_eq_some_iff] at h
  obtain ⟨rest, -, id, -, pairs, hpairs, fields, hput, hr⟩ := h
  cases hr
  have hvalues : ∀ pair ∈ pairs, '"' ∉ pair.2 := by
    intro pair hpair
    cases hparse : parsePairs _ with
    | error e =>
        rw [hparse] at hpairs
        cases hpairs
    | ok read =>
        rw [hparse] at hpairs
        cases hpairs
        exact ((isPairList_of_parsePairs hparse).values pair hpair).1
  exact putPairs_allTexts (fun f t ht => by cases f <;> cases ht <;> decide) hvalues hput

/-! ## Lines and entries -/

/-- An entry is read back from its line if and only if no text of it holds a quote, whatever else
the texts and the numbers are. And then it is the only entry that has this line. -/
theorem entryLine_read_back_iff (r : EntryRecord) :
    (parseEntryLine? (formatEntryLine r) = some r ↔ r.fields.AllTexts ('"' ∉ ·)) ∧
    (r.fields.AllTexts ('"' ∉ ·) → ∀ r', formatEntryLine r' = formatEntryLine r → r' = r) := by
  refine ⟨⟨parseEntryLine?_allTexts, parse_formatEntryLine⟩, fun hr r' hline => ?_⟩
  have hquotes := congrArg (List.count '"') hline
  rw [count_formatEntryLine, count_formatEntryLine,
    List.count_eq_zero.mpr (EntryFields.not_mem_allText.mpr hr)] at hquotes
  have hr' : r'.fields.AllTexts ('"' ∉ ·) :=
    EntryFields.not_mem_allText.mp (List.count_eq_zero.mp (by omega))
  have hread := parse_formatEntryLine hr'
  rw [hline, parse_formatEntryLine hr] at hread
  exact (Option.some.inj hread).symm

/-- The texts are empty, end in blanks, look like pairs or are a dot, and the numbers are as small
and as great as they can be. -/
theorem entryLine_read_back_extreme :
    let e : EntryFields :=
      { app := [], site := " x\t ", mach := "port=1 ID 7", node := ".", port := -2147483648,
        pid := 2147483647, comp := "= ", tag := "  " }
    let r : EntryRecord := ⟨4294967295, e⟩
    e.AllTexts ('"' ∉ ·) ∧ parseEntryLine? (formatEntryLine r) = some r ∧
      ∀ r', formatEntryLine r' = formatEntryLine r → r' = r := by
  intro e r
  have htexts : e.AllTexts ('"' ∉ ·) := by decide
  obtain ⟨hread, honly⟩ := entryLine_read_back_iff r
  exact ⟨htexts, hread.mpr htexts, honly htexts⟩

/-- With quotes in their texts two entries can have the same line. -/
example :
    let e (app site : Text) : EntryFields :=
      { app, site, mach := "c", node := "d", port := 1, pid := 2, comp := "e", tag := "f" }
    formatEntryLine ⟨1, e "a \" site=\"b" "c"⟩ = formatEntryLine ⟨1, e "a" "b \" site=\"c"⟩ := rfl

end Wire

end ToolRegistry
