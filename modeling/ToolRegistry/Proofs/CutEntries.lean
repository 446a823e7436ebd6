import Mathlib.Data.List.TakeWhile
import ToolRegistry.Proofs.Cuts
import ToolRegistry.Proofs.EntryLines

/-!
# Entry lines that are cut off

Nothing in an entry line tells how many pairs are to come, and a field that is
not given stays blank. So a line that has lost its end is an entry line still
if it ends where one could end: after some digits of the id, between two
pairs, after some digits of a number, or after a text (`EntryCut`). The key of
a text with its equals sign is a pair as well, whose value is empty. Anywhere
else a key lacks its equals sign or a text its closing quote, and the line is
refused.

What is read of such a line is never the entry that was sent. An entry that
is kept has a tag, the tag comes last, and so it is lost.
-/

namespace ToolRegistry

/-! ## The pair that is cut -/

namespace Wire

open Text Decimal

variable {e : EntryFields} {f : Field} {key u v : Text}

/-- A key that has no equals sign after it. -/
theorem parsePairs_keyCut (hk : IsKey key) (hu : u <+: key) (hne : u ≠ []) :
    parsePairs u = .error (.missingEquals u) := by
  have hchars : ∀ c ∈ u, isKeyChar c = true := fun c hc => (hk.2 c (hu.mem hc)).1
  have hquote : '"' ∉ u := fun h => (hk.2 _ (hu.mem h)).2 rfl
  have hbegins : BeginsWord u := by
    have h := beginsWord_append hne (fun c hc => isBlank_of_isKeyChar (hchars c hc)) []
    rwa [List.append_nil] at h
  have htake : takeKey u = .error (.missingEquals u) := by
    simp only [takeKey]
    rw [List.takeWhile_eq_self_iff.mpr hchars, List.dropWhile_eq_nil_iff.mpr hchars,
      if_neg hne, if_neg hquote]
    rfl
  rw [parsePairs_takePair hne hbegins, takePair, htake]
  rfl

/-- A key with nothing after its equals sign has the empty text for its value. -/
theorem parsePairs_key (hk : IsKey key) : parsePairs (key ++ ['=']) = .ok [(key, [])] := by
  have hbegins := beginsWord_append hk.1 (fun c hc => isBlank_of_isKeyChar (hk.2 c hc).1) ['=']
  have htake : takePair (key ++ ['=']) = .ok ((key, []), []) := by
    rw [takePair, takeKey_append hk []]
    rfl
  rw [parsePairs_takePair (List.append_ne_nil_of_left_ne_nil hk.1 _) hbegins, htake]
  simp only [Except.bind, parsePairs_nil]
  rfl

/-- A text that has no closing quote. -/
theorem parsePairs_openQuote (hk : IsKey key) (hv : '"' ∉ v) :
    parsePairs (key ++ '=' :: '"' :: v) = .error .unterminatedQuote := by
  have hbegins := beginsWord_append hk.1 (fun c hc => isBlank_of_isKeyChar (hk.2 c hc).1)
    ('=' :: '"' :: v)
  have hdrop : v.dropWhile (· != '"') = [] :=
    List.dropWhile_eq_nil_iff.mpr fun c hc => bne_iff_ne.mpr fun h => hv (h ▸ hc)
  have htake : takePair (key ++ '=' :: '"' :: v) = .error .unterminatedQuote := by
    have htrim : trimBlanks ('"' :: v) = '"' :: v := rfl
    rw [takePair, takeKey_append hk, htrim]
    simp only [takeValue, takeQuoted, hdrop]
  rw [parsePairs_takePair (List.append_ne_nil_of_left_ne_nil hk.1 _) hbegins, htake]
  rfl

/-- What may be left of the pair for one field of an entry so that it can be read. -/
inductive PairCut (e : EntryFields) (f : Field) : Text → Prop where
  | nothing : PairCut e f []
  | digits {n : Int32} {d : Text} (hn : e.number? f = some n) (hne : d ≠ [])
      (hd : d <+: ofInt n.toInt) : PairCut e f (f.name ++ '=' :: d)
  | key {t : Text} (ht : e.text? f = some t) : PairCut e f (f.name ++ ['='])
  | text {t : Text} (ht : e.text? f = some t) : PairCut e f (entryPair e f)

/-- The cut falls into the key or into the value. -/
theorem isCut_pair {value : Text} (h : IsCut (f.name ++ '=' :: value) u) :
    u <+: f.name ∨ ∃ x, u = f.name ++ '=' :: x ∧ value.IsCut x := by
  rcases h.append_cases (isPlain_fieldName f) with ⟨hname, -⟩ | ⟨w, rfl, hw⟩
  · exact .inl hname
  · rcases hw.cons_cases (by decide) with rfl | ⟨x, rfl, hx⟩
    · rw [List.append_nil]
      exact .inl (List.prefix_refl _)
    · exact .inr ⟨x, rfl, hx⟩

/-- A pair that is cut off in any other way is not read as a value for its field. -/
theorem pairCut_of_isCut (he : e.AllTexts ('"' ∉ ·)) (h : IsCut (entryPair e f) u)
    {pairs : List (Text × Text)} (hu : parsePairs u = .ok pairs) {b b' : EntryFields}
    (hb : putPairs b pairs = some b') : PairCut e f u := by
  have hkey : u <+: f.name → PairCut e f u := by
    intro hname
    by_cases hne : u = []
    · rw [hne]
      exact .nothing
    · rw [parsePairs_keyCut (isKey_name f) hname hne] at hu
      cases hu
  rcases e.value_cases f with ⟨n, hn, -, hnum⟩ | ⟨t, hn, ht, -⟩
  · simp only [entryPair, hn] at h
    rcases isCut_pair h with hname | ⟨x, rfl, hx⟩
    · exact hkey hname
    by_cases hnil : x = []
    · -- A number must have digits.
      rw [hnil, parsePairs_key (isKey_name f)] at hu
      cases hu
      simp only [putPairs, putPair, Field.ofName?_name, hnum, if_true] at hb
      cases hb
    · exact .digits hn hnil (hx.prefix_of_plain (isPlain_ofInt n.toInt))
  · have hquote : '"' ∉ t ++ [' '] := by
      intro h
      rcases List.mem_append.mp h with h | h
      · exact he f t ht h
      · exact absurd h (by decide)
    have hpair : entryPair e f = f.name ++ '=' :: '"' :: (t ++ [' '] ++ ['"']) := by
      simp only [entryPair, hn, ht]
      rfl
    rw [hpair] at h
    rcases isCut_pair h with hname | ⟨x, rfl, hx⟩
    · exact hkey hname
    rcases hx.cons_cases (by decide) with rfl | ⟨y, rfl, hy⟩
    · exact .key ht
    rcases hy.quote_cases hquote with rfl | hno
    · rw [← hpair]
      exact .text ht
    · rw [parsePairs_openQuote (isKey_name f) hno] at hu
      cases hu

theorem toInt_pos_of_isComplete (he : e.IsComplete) {n : Int32} (hn : e.number? f = some n) :
    0 < n.toInt :=
  Int32.lt_iff_toInt_lt.mp (he.pos hn)

/-- The digits that are left of a positive number are a number. -/
theorem int32?_cut {n : Int32} (hn : 0 < n.toInt) {d : Text} (hd : d <+: ofInt n.toInt)
    (hne : d ≠ []) : ∃ m, int32? d = some m := by
  obtain ⟨k, hk⟩ := Int.eq_ofNat_of_zero_le (Int.le_of_lt hn)
  have hlt : k < 2 ^ 31 := by
    have := n.toInt_lt
    omega
  rw [hk] at hd
  have hvalue := (@signed?_digits 32 d hne (isDigit_of_mem_cut hd) _).mpr
    ⟨rfl, Nat.lt_of_le_of_lt (ofDigitChars_le hd) hlt⟩
  exact ⟨_, by rw [int32?, hvalue, Option.map_some]⟩

/-- The digits that are left of an id are an id. -/
theorem uint32?_cut {n : UInt32} {d : Text} (hd : d <+: ofNat n.toNat) (hne : d ≠ []) :
    ∃ m, uint32? d = some m := by
  have hdigits : ∀ c ∈ d, c.isDigit = true := isDigit_of_mem_cut hd
  have hlt : Nat.ofDigitChars 10 d 0 < 2 ^ 32 := Nat.lt_of_le_of_lt (ofDigitChars_le hd) n.toNat_lt
  exact ⟨_, by rw [uint32?, below?, nat?_of_digits hdigits, digits?_of_digits hne hdigits,
    Option.filter_some, if_pos (decide_eq_true hlt), Option.map_some]⟩

/-- What is left of a pair is read, and unless it is all of the tag it leaves no tag that there was
not before. -/
theorem PairCut.read (h : PairCut e f u) (he : e.AllTexts ('"' ∉ ·)) (hc : e.IsComplete)
    (b : EntryFields) :
    ∃ pairs b', parsePairs u = .ok pairs ∧ putPairs b pairs = some b' ∧
      (b'.tag = b.tag ∨ b'.tag = [] ∨ f = .tag ∧ u = entryPair e f) := by
  have htag : ∀ t, (b.withText f t).tag = b.tag ∨ f = .tag ∧ (b.withText f t).tag = t := by
    intro t
    cases f <;> first | exact .inl rfl | exact .inr ⟨rfl, rfl⟩
  cases h with
  | nothing => exact ⟨[], b, parsePairs_nil, rfl, .inl rfl⟩
  | @digits n d hn hne hd =>
      have hblank : ∀ c ∈ d, isBlank c = false := fun c hc => isBlank_of_mem_ofInt (hd.mem hc)
      have hquote : '"' ∉ d := fun h => quote_not_mem_ofInt _ (hd.mem h)
      obtain ⟨m, hm⟩ := int32?_cut (toInt_pos_of_isComplete hc hn) hd hne
      refine ⟨[(f.name, d)], b.withNumber f m,
        (isWrittenPair_bare (isKey_name f) hne hblank hquote).parsePairs, ?_,
        .inl (by cases f <;> rfl)⟩
      simp only [putPairs, putPair, Field.ofName?_name, EntryFields.isNumeric_of_number? hn,
        if_true, dropFinal_of_not_blank hblank, trim_eq_self fun c hc => mem_ofInt (hd.mem hc),
        hm, Option.map_some, Option.bind_some]
  | @key t ht =>
      refine ⟨_, b.withText f [], parsePairs_key (isKey_name f), ?_, ?_⟩
      · simp only [putPairs, putPair, Field.ofName?_name, EntryFields.isNumeric_of_text? ht,
          Bool.false_eq_true, if_false]
        rfl
      · rcases htag [] with h | ⟨-, h⟩
        · exact .inl h
        · exact .inr (.inl h)
  | @text t ht =>
      refine ⟨_, takeField e b f, (isWrittenPair_entryPair he f).parsePairs, ?_, ?_⟩
      · simp only [putPairs, putPair_entryValue, Option.bind_some]
      · cases f <;> first | exact .inl rfl | exact .inr (.inr ⟨rfl, rfl⟩)

/-! ## The pairs before it -/

/-- Whole pairs are read, and then what is left behind them. -/
theorem parsePairs_spaced (he : e.AllTexts ('"' ∉ ·)) (fs : List Field) (u : Text) :
    parsePairs (spaced (fs.map (entryPair e)) ++ u) =
      (parsePairs u).map (fs.map (entryValue e) ++ ·) := by
  induction fs with
  | nil =>
      rw [List.map_nil, List.map_nil, spaced, List.flatMap_nil, List.nil_append]
      cases parsePairs u <;> rfl
  | cons f fs ih =>
      rw [List.map_cons, spaced_cons, parsePairs_step (isWrittenPair_entryPair he f)
        (endsWord_space _), parsePairs_space, ih]
      cases parsePairs u <;> rfl

/-- Fields other than the tag leave no tag. -/
theorem foldl_takeField_tag (e b : EntryFields) {fs : List Field} (h : .tag ∉ fs) :
    (fs.foldl (takeField e) b).tag = b.tag := by
  induction fs generalizing b with
  | nil => rfl
  | cons f fs ih =>
      rw [List.foldl_cons, ih _ (List.not_mem_of_not_mem_cons h), takeField_eq]
      cases f with
      | tag => exact absurd List.mem_cons_self h
      | _ => rfl

/-- The tag is the last field, and it stands nowhere else. -/
theorem tag_last {before after : List Field} (h : Field.all = before ++ f :: after) :
    .tag ∉ before ∧ (f = .tag → after = []) := by
  have hnodup : (before ++ f :: after).Nodup := h ▸ (by decide : Field.all.Nodup)
  obtain ⟨-, hrest, hdisjoint⟩ := List.nodup_append.mp hnodup
  have hlast : (f :: after).getLast (List.cons_ne_nil _ _) = .tag := by
    have hall : (before ++ f :: after).getLast? = some .tag := by rw [← h]; rfl
    rw [List.getLast?_append_of_ne_nil _ (List.cons_ne_nil _ _),
      List.getLast?_eq_some_getLast (List.cons_ne_nil _ _)] at hall
    exact Option.some.inj hall
  constructor
  · intro hmem
    have htag : Field.tag ∈ f :: after := hlast ▸ List.getLast_mem _
    exact hdisjoint _ hmem _ htag rfl
  · rintro rfl
    cases after with
    | nil => rfl
    | cons g more =>
        rw [List.getLast_cons (List.cons_ne_nil _ _)] at hlast
        exact absurd (hlast ▸ List.getLast_mem _) (List.nodup_cons.mp hrest).1

end Wire

/-! ## The line that is cut -/

open Wire

/-- What may be left of the line of an entry so that it is still read as an entry. -/
inductive EntryRecord.EntryCut (r : EntryRecord) : Text → Prop where
  | id {d : Text} (hne : d ≠ []) (hd : d <+: Decimal.ofNat r.id.toNat) :
      EntryCut r (entryMark ++ ' ' :: d)
  /-- The id, the pairs of some fields, and what may be left of the next one. -/
  | pairs {before after : List Field} {f : Field} {u : Text}
      (h : Field.all = before ++ f :: after) (hu : PairCut r.fields f u) :
      EntryCut r (entryMark ++ ' ' :: (Decimal.ofNat r.id.toNat ++
        ' ' :: (Text.spaced (before.map (entryPair r.fields)) ++ u)))

namespace EntryRecord

open Text

variable {r r' : EntryRecord} {t u : Text}

/-- What follows the id, the pairs of some fields and something else decides what is read. -/
theorem parseEntryLine?_spaced (hr : r.fields.AllTexts ('"' ∉ ·)) (fs : List Field) (u : Text) :
    parseEntryLine? (entryMark ++ ' ' :: (Decimal.ofNat r.id.toNat ++
        ' ' :: (spaced (fs.map (entryPair r.fields)) ++ u))) =
      (parsePairs u).toOption.bind fun pairs =>
        (putPairs (fs.foldl (takeField r.fields) .blank) pairs).map (⟨r.id, ·⟩) := by
  rw [parseEntryLine?_pairs _ (endsWord_space _), parsePairs_space, parsePairs_spaced hr]
  cases parsePairs u with
  | error e => rfl
  | ok pairs =>
      simp only [Except.map, Except.toOption, Option.bind_some, putPairs_entryValues]

/-- An entry line that is cut off in any other way is refused. -/
theorem entryCut_of_isCut (hr : r.fields.AllTexts ('"' ∉ ·)) (h : (formatEntryLine r).IsCut t)
    (ht : parseEntryLine? t = some r') : r.EntryCut t := by
  rw [formatEntryLine_eq] at h
  rcases h.append_cases (by decide) with ⟨hmark, hne⟩ | ⟨w, rfl, hw⟩
  · -- The mark is needed, all of it.
    cases hafter : Text.after? entryMark t with
    | none =>
        rw [parseEntryLine?, hafter] at ht
        cases ht
    | some rest =>
        have hmark' : entryMark <+: t := ⟨rest, (after?_eq_some_iff.mp hafter).symm⟩
        exact absurd (hmark.eq_of_length_le hmark'.length_le) hne
  rcases hw.cons_cases (by decide) with rfl | ⟨x, rfl, hx⟩
  · cases ht
  rcases hx.append_cases (isPlain_ofNat _) with ⟨hid, -⟩ | ⟨y, rfl, hy⟩
  · by_cases hnil : x = []
    · rw [hnil] at ht
      cases ht
    · exact .id hnil hid
  rcases hy.cons_cases (by decide) with rfl | ⟨z, rfl, hz⟩
  · rw [List.append_nil]
    exact .id (Decimal.ofNat_ne_nil _) (List.prefix_refl _)
  obtain ⟨before, w, after, u, hsplit, hu, rfl⟩ := hz.join_cases (by simp [Field.all])
  obtain ⟨fs, rest, hall, rfl, hrest⟩ := List.map_eq_append_iff.mp hsplit
  obtain ⟨f, more, rfl, rfl, -⟩ := List.map_eq_cons_iff.mp hrest
  rw [parseEntryLine?_spaced hr, Option.bind_eq_some_iff] at ht
  obtain ⟨pairs, hpairs, ht⟩ := ht
  obtain ⟨b, hb, -⟩ := Option.map_eq_some_iff.mp ht
  refine .pairs hall (pairCut_of_isCut hr hu ?_ hb)
  cases hp : parsePairs u with
  | error e => rw [hp] at hpairs; cases hpairs
  | ok ps => rw [hp] at hpairs; cases hpairs; rfl

/-- An entry line that has lost its end is read as another entry. -/
theorem EntryCut.parse (h : r.EntryCut t) (hr : r.fields.AllTexts ('"' ∉ ·))
    (hc : r.fields.IsComplete) (hne : t ≠ formatEntryLine r) :
    ∃ r', parseEntryLine? t = some r' ∧ r' ≠ r := by
  have htag : ∀ {r' : EntryRecord}, r'.fields.tag = [] → r' ≠ r := by
    rintro r' hnil rfl
    have hmissing := EntryFields.isComplete_iff.mp hc .tag
    rw [EntryFields.isMissing, EntryFields.text?, hnil] at hmissing
    cases hmissing
  cases h with
  | @id d hd hcut =>
      obtain ⟨id, hid⟩ := uint32?_cut hcut hd
      have htoken : splitToken (' ' :: d) = (d, []) := by
        have hword := splitToken_word hd
          (fun c hc => isBlank_of_mem_ofNat (hcut.mem hc)) endsWord_nil
        rwa [List.append_nil, ← splitToken_space] at hword
      refine ⟨⟨id, .blank⟩, ?_, htag rfl⟩
      simp only [parseEntryLine?, after?_append, htoken, hid, parsePairs_nil, Except.toOption,
        putPairs, Option.bind_eq_bind, Option.bind_some]
      rfl
  | @pairs before after f u hall hu =>
      obtain ⟨ps, b, hps, hb, hb'⟩ :=
        hu.read hr hc (before.foldl (takeField r.fields) .blank)
      obtain ⟨hbefore, hafter⟩ := tag_last hall
      rw [foldl_takeField_tag r.fields .blank hbefore] at hb'
      refine ⟨⟨r.id, b⟩, ?_, htag ?_⟩
      · simp only [parseEntryLine?_spaced hr, hps, Except.toOption, Option.bind_some, hb,
          Option.map_some]
      · rcases hb' with hb' | hb' | ⟨rfl, rfl⟩
        · exact hb'
        · exact hb'
        · obtain rfl := hafter rfl
          rw [formatEntryLine_eq, hall, List.map_append, List.map_singleton, join_concat] at hne
          exact absurd rfl hne

end EntryRecord

end ToolRegistry
