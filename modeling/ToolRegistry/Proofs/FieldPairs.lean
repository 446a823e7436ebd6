import Mathlib.Data.List.Infix
import Mathlib.Data.List.TakeWhile
import ToolRegistry.Proofs.Decimals
import ToolRegistry.Wire.FieldPairs
import ToolRegistry.Wire.Token

/-!
# Written pairs are read back

A list of pairs is written with a space between each two of them. Reading it
takes one pair at a time, so it is enough to know of each written pair that it
is read back, and left exactly where the next blank begins
(`IsWrittenPair`). A quoted value is because it holds no quote, and a bare one
because it holds no blank.

For a field set nothing is lost between the pairs and the set either: every
given field makes one pair, no two fields share a key, and a number is read
back from its digits. Which texts are given does not matter, as long as none
of them holds a quote.
-/

namespace ToolRegistry

/-- Every text that is given has a property. -/
def FieldSet.AllTexts (P : Text → Prop) (s : FieldSet) : Prop := ∀ f, ∀ t ∈ s.text? f, P t

instance (P : Text → Prop) [DecidablePred P] (s : FieldSet) : Decidable (s.AllTexts P) :=
  decidable_of_iff (∀ f ∈ Field.all, ∀ t ∈ s.text? f, P t)
    ⟨fun h f => h f f.mem_all, fun h f _ => h f⟩

theorem FieldSet.AllTexts.mono {P Q : Text → Prop} {s : FieldSet} (h : s.AllTexts P)
    (hPQ : ∀ t, P t → Q t) : s.AllTexts Q := fun f t ht => hPQ t (h f t ht)

namespace Text

/-! ## Blanks -/

/-- What a word is followed by: nothing, or a blank. -/
def EndsWord (t : Text) : Prop := ∀ c ∈ t.head?, isBlank c = true

/-- Nothing but blanks, or nothing at all. -/
def IsBlanks (t : Text) : Prop := ∀ c ∈ t, isBlank c = true

/-- A text that does not begin with a blank. -/
def BeginsWord (t : Text) : Prop := ∀ c ∈ t.head?, isBlank c = false

theorem endsWord_nil : EndsWord [] := fun _ h => by cases h

theorem endsWord_space (t : Text) : EndsWord (' ' :: t) := by
  rintro c ⟨⟩
  rfl

theorem trimBlanks_of_beginsWord {t : Text} (h : BeginsWord t) : t.trimBlanks = t :=
  dropWhile_of_head? h

theorem isBlanks_nil : IsBlanks [] := List.forall_mem_nil _

theorem trimBlanks_append {b : Text} (hb : IsBlanks b) (t : Text) :
    trimBlanks (b ++ t) = t.trimBlanks := List.dropWhile_append_of_pos hb

theorem trimBlanks_eq_nil_iff {t : Text} : t.trimBlanks = [] ↔ IsBlanks t :=
  List.dropWhile_eq_nil_iff

/-- A text is some blanks and what is left without them. -/
theorem exists_blanks (t : Text) : ∃ b, IsBlanks b ∧ t = b ++ t.trimBlanks :=
  ⟨t.takeWhile isBlank, List.all_eq_true.mp List.all_takeWhile,
    List.takeWhile_append_dropWhile.symm⟩

theorem trimBlanks_space (t : Text) : trimBlanks (' ' :: t) = t.trimBlanks := by
  rw [trimBlanks, List.dropWhile_cons_of_pos rfl]
  rfl

theorem beginsWord_trimBlanks (t : Text) : BeginsWord t.trimBlanks := by
  intro c hc
  have h := List.head?_dropWhile_not isBlank t
  rw [show t.dropWhile isBlank = t.trimBlanks from rfl, Option.mem_def.mp hc] at h
  simpa using h

theorem endsWord_fromBlank (t : Text) : EndsWord t.fromBlank := by
  intro c hc
  have h := List.head?_dropWhile_not (!isBlank ·) t
  rw [show t.dropWhile (!isBlank ·) = t.fromBlank from rfl, Option.mem_def.mp hc] at h
  simpa using h

theorem trimBlanks_idem (t : Text) : t.trimBlanks.trimBlanks = t.trimBlanks :=
  trimBlanks_of_beginsWord (beginsWord_trimBlanks t)

theorem beginsWord_append {w : Text} (hne : w ≠ []) (hw : ∀ c ∈ w, isBlank c = false)
    (rest : Text) : BeginsWord (w ++ rest) := by
  obtain ⟨d, w, rfl⟩ := List.exists_cons_of_ne_nil hne
  rintro c ⟨⟩
  exact hw d List.mem_cons_self

theorem untilBlank_append {w rest : Text} (hw : ∀ c ∈ w, isBlank c = false)
    (hr : EndsWord rest) : untilBlank (w ++ rest) = w := by
  rw [untilBlank, List.takeWhile_append_of_pos fun c hc => by rw [hw c hc]; rfl]
  cases rest with
  | nil => rw [List.takeWhile_nil, List.append_nil]
  | cons c rest => rw [List.takeWhile_cons_of_neg (by simp [hr c rfl]), List.append_nil]

theorem fromBlank_append {w rest : Text} (hw : ∀ c ∈ w, isBlank c = false)
    (hr : EndsWord rest) : fromBlank (w ++ rest) = rest := by
  rw [fromBlank, List.dropWhile_append_of_pos fun c hc => by rw [hw c hc]; rfl]
  cases rest with
  | nil => rfl
  | cons c rest => rw [List.dropWhile_cons_of_neg (by simp [hr c rfl])]

/-- The first word is missing only where there is nothing at all. -/
theorem eq_nil_of_untilBlank {t : Text} (ht : BeginsWord t) (h : t.untilBlank = []) : t = [] := by
  cases t with
  | nil => rfl
  | cons c t => simp [untilBlank, ht c rfl] at h

/-! ## Cutting and joining -/

theorem after?_eq_some_iff {s t u : Text} : after? s t = some u ↔ t = s ++ u := by
  rw [after?, List.isPrefixOf?_eq_some_iff_append_eq]
  exact eq_comm

theorem after?_append (s u : Text) : after? s (s ++ u) = some u := after?_eq_some_iff.mpr rfl

theorem join_cons (between t : Text) (ts : List Text) :
    join between (t :: ts) = t ++ if ts = [] then [] else between ++ join between ts := by
  cases ts <;> simp [join, List.intercalate]

end Text

namespace Wire

open Text

/-! ## Words -/

/-- A word is taken off the front of a line. -/
theorem splitToken_word {w rest : Text} (hne : w ≠ []) (hw : ∀ c ∈ w, isBlank c = false)
    (hr : EndsWord rest) : splitToken (w ++ rest) = (w, rest) := by
  rw [splitToken, trimBlanks_of_beginsWord (beginsWord_append hne hw rest),
    untilBlank_append hw hr, fromBlank_append hw hr]

theorem head?_splitToken (t : Text) :
    (splitToken t).1.head? = some '"' ↔ ∃ rest, t.trimBlanks = '"' :: rest := by
  rw [splitToken, untilBlank]
  cases t.trimBlanks with
  | nil => simp
  | cons c rest =>
      by_cases hc : isBlank c = true
      · have hne : c ≠ '"' := fun he => absurd (he ▸ hc) (by decide)
        simp [hc, hne]
      · simp [hc]

theorem splitToken_space (t : Text) : splitToken (' ' :: t) = splitToken t := by
  rw [splitToken, trimBlanks_space]
  rfl

theorem isBlank_of_mem_ofInt {i : Int} {c : Char} (h : c ∈ Decimal.ofInt i) :
    isBlank c = false := by
  rcases Decimal.mem_ofInt h with rfl | hd
  · rfl
  · refine Bool.eq_false_iff.mpr fun hb => ?_
    simp only [isBlank, Bool.or_eq_true, beq_iff_eq] at hb
    rcases hb with rfl | rfl <;> exact absurd hd (by decide)

theorem isBlank_of_mem_ofNat {n : Nat} {c : Char} (h : c ∈ Decimal.ofNat n) :
    isBlank c = false := isBlank_of_mem_ofInt (i := n) h

theorem quote_not_mem_ofInt (i : Int) : '"' ∉ Decimal.ofInt i := by
  intro h
  rcases Decimal.mem_ofInt h with h | h
  · exact absurd h (by decide)
  · exact absurd h (by decide)

theorem splitToken_ofNat (n : Nat) {rest : Text} (hr : EndsWord rest) :
    splitToken (Decimal.ofNat n ++ rest) = (Decimal.ofNat n, rest) :=
  splitToken_word (Decimal.ofNat_ne_nil n) (fun _ => isBlank_of_mem_ofNat) hr

/-! ## One pair -/

/-- A key that can be written: it is not empty and holds nothing that would end it. -/
def IsKey (key : Text) : Prop := key ≠ [] ∧ ∀ c ∈ key, isKeyChar c = true ∧ c ≠ '"'

instance (key : Text) : Decidable (IsKey key) :=
  have := List.decidableBAll (fun c : Char => isKeyChar c = true ∧ c ≠ '"') key
  inferInstanceAs (Decidable (key ≠ [] ∧ _))

theorem isKey_name (f : Field) : IsKey f.name := by cases f <;> decide

theorem isBlank_of_isKeyChar {c : Char} (h : isKeyChar c = true) : isBlank c = false := by
  simp only [isKeyChar, Bool.not_eq_true', Bool.or_eq_false_iff] at h
  exact h.2

/-- A key ends before the blanks and the equals sign behind it. -/
theorem takeKey_spaced {key gap : Text} (hk : IsKey key) (hgap : IsBlanks gap) (rest : Text) :
    takeKey (key ++ gap ++ '=' :: rest) = .ok (key, rest.trimBlanks) := by
  have hkey : ∀ c ∈ key, isKeyChar c = true := fun c hc => (hk.2 c hc).1
  have hend : ∀ c ∈ (gap ++ '=' :: rest).head?, ¬isKeyChar c = true := by
    intro c hc
    cases gap with
    | nil => cases hc; decide
    | cons d gap =>
        cases hc
        intro hd
        exact absurd (hgap c List.mem_cons_self) (by rw [isBlank_of_isKeyChar hd]; decide)
  have hsplit : (key ++ gap ++ '=' :: rest).takeWhile isKeyChar = key ∧
      (key ++ gap ++ '=' :: rest).dropWhile isKeyChar = gap ++ '=' :: rest := by
    rw [List.append_assoc, List.takeWhile_append_of_pos hkey, List.dropWhile_append_of_pos hkey]
    cases hrest : gap ++ '=' :: rest with
    | nil => exact ⟨List.append_nil _, rfl⟩
    | cons c u =>
        have hc := hend c (by rw [hrest]; rfl)
        rw [List.takeWhile_cons_of_neg hc, List.dropWhile_cons_of_neg hc, List.append_nil]
        exact ⟨rfl, rfl⟩
  have hquote : '"' ∉ key := fun h => (hk.2 _ h).2 rfl
  have htrim : trimBlanks (gap ++ '=' :: rest) = '=' :: rest := trimBlanks_append hgap _
  simp only [takeKey]
  rw [hsplit.1, hsplit.2, if_neg hk.1, if_neg hquote, htrim]
  rfl

theorem takeKey_append {key : Text} (hk : IsKey key) (rest : Text) :
    takeKey (key ++ '=' :: rest) = .ok (key, rest.trimBlanks) := by
  have h := takeKey_spaced hk isBlanks_nil rest
  rwa [List.append_nil] at h

theorem takeQuoted_append {v : Text} (hv : '"' ∉ v) (rest : Text) :
    takeQuoted (v ++ '"' :: rest) = .ok (v, rest) := by
  have hp : ∀ c ∈ v, (c != '"') = true := fun c hc => bne_iff_ne.mpr fun h => hv (h ▸ hc)
  rw [takeQuoted, List.dropWhile_append_of_pos hp, List.dropWhile_cons_of_neg (by decide),
    List.takeWhile_append_of_pos hp, List.takeWhile_cons_of_neg (by decide), List.append_nil]

theorem takeValue_quote {v : Text} (hv : '"' ∉ v) (rest : Text) :
    takeValue (quote v ++ rest) = .ok (v, rest) := by
  rw [quote, List.append_assoc, List.cons_append, takeValue, List.singleton_append,
    takeQuoted_append hv]

theorem takeValue_bare {v rest : Text} (hv : ∀ c ∈ v, isBlank c = false) (hq : '"' ∉ v)
    (hne : v ≠ []) (hr : EndsWord rest) : takeValue (v ++ rest) = .ok (v, rest) := by
  rw [takeValue, untilBlank_append hv hr, fromBlank_append hv hr, if_neg hq]
  intro u hu
  obtain ⟨c, v, rfl⟩ := List.exists_cons_of_ne_nil hne
  rw [List.cons_append, List.cons.injEq] at hu
  exact hq (hu.1 ▸ List.mem_cons_self)

/-- A text that is read as a pair wherever a word can end. -/
structure IsWrittenPair (t : Text) (pair : Text × Text) : Prop where
  ne_nil : t ≠ []
  beginsWord : BeginsWord t
  /-- It is read as the pair, and nothing behind it is. -/
  takePair : ∀ rest, EndsWord rest → takePair (t ++ rest) = .ok (pair, rest)

/-- A key with a value in quotes. -/
theorem isWrittenPair_quote {key v : Text} (hk : IsKey key) (hv : '"' ∉ v) :
    IsWrittenPair (key ++ '=' :: quote v) (key, v) where
  ne_nil := List.append_ne_nil_of_left_ne_nil hk.1 _
  beginsWord := beginsWord_append hk.1 (fun c hc => isBlank_of_isKeyChar (hk.2 c hc).1) _
  takePair := by
    intro rest _
    have htrim : trimBlanks (quote v ++ rest) = quote v ++ rest := rfl
    rw [List.append_assoc, List.cons_append, Wire.takePair, takeKey_append hk, htrim]
    simp only [takeValue_quote hv]

/-- A key with a bare value. -/
theorem isWrittenPair_bare {key v : Text} (hk : IsKey key) (hne : v ≠ [])
    (hv : ∀ c ∈ v, isBlank c = false) (hq : '"' ∉ v) :
    IsWrittenPair (key ++ '=' :: v) (key, v) where
  ne_nil := List.append_ne_nil_of_left_ne_nil hk.1 _
  beginsWord := beginsWord_append hk.1 (fun c hc => isBlank_of_isKeyChar (hk.2 c hc).1) _
  takePair := by
    intro rest hr
    rw [List.append_assoc, List.cons_append, Wire.takePair, takeKey_append hk,
      trimBlanks_of_beginsWord (beginsWord_append hne hv rest)]
    simp only [takeValue_bare hv hq hne hr]

/-- A key with a number. -/
theorem isWrittenPair_number {key : Text} (hk : IsKey key) (i : Int) :
    IsWrittenPair (key ++ '=' :: Decimal.ofInt i) (key, Decimal.ofInt i) :=
  isWrittenPair_bare hk (Decimal.ofInt_ne_nil i) (fun _ => isBlank_of_mem_ofInt)
    (quote_not_mem_ofInt i)

/-! ## Lists of pairs -/

theorem parsePairs_trimBlanks (t : Text) : parsePairs t.trimBlanks = parsePairs t := by
  rw [parsePairs.eq_def t, parsePairs.eq_def t.trimBlanks, trimBlanks_idem]

theorem parsePairs_space (t : Text) : parsePairs (' ' :: t) = parsePairs t := by
  rw [← parsePairs_trimBlanks, trimBlanks_space, parsePairs_trimBlanks]

theorem parsePairs_nil : parsePairs [] = .ok [] := by
  rw [parsePairs.eq_def]
  exact if_pos rfl

/-- The first pair of a text, and what the rest is read as. -/
theorem parsePairs_takePair {t : Text} (hne : t ≠ []) (hb : BeginsWord t) :
    parsePairs t = (takePair t).bind fun p => (parsePairs p.2).map (p.1 :: ·) := by
  rw [parsePairs.eq_def, trimBlanks_of_beginsWord hb, if_neg hne]
  cases takePair t with
  | error e => rfl
  | ok p =>
      simp only [Except.bind]
      cases parsePairs p.2 <;> rfl

/-- A written pair, and what the rest is read as. -/
theorem parsePairs_step {t rest : Text} {pair : Text × Text} (h : IsWrittenPair t pair)
    (hr : EndsWord rest) :
    parsePairs (t ++ rest) = (parsePairs rest).map (pair :: ·) := by
  have hb : BeginsWord (t ++ rest) := by
    obtain ⟨c, u, rfl⟩ := List.exists_cons_of_ne_nil h.ne_nil
    exact h.beginsWord
  rw [parsePairs_takePair (List.append_ne_nil_of_left_ne_nil h.ne_nil _) hb, h.takePair rest hr]
  rfl

theorem IsWrittenPair.parsePairs {t : Text} {pair : Text × Text} (h : IsWrittenPair t pair) :
    parsePairs t = .ok [pair] := by
  have hstep := parsePairs_step h endsWord_nil
  rwa [List.append_nil, parsePairs_nil] at hstep

/-- Pairs with a space between each two of them are read in order. -/
theorem parsePairs_join {ps : List (Text × (Text × Text))}
    (h : ∀ p ∈ ps, IsWrittenPair p.1 p.2) :
    parsePairs (join [' '] (ps.map Prod.fst)) = .ok (ps.map Prod.snd) := by
  induction ps with
  | nil => exact parsePairs_nil
  | cons p ps ih =>
      have hp := h p List.mem_cons_self
      have hps := ih fun q hq => h q (List.mem_cons_of_mem _ hq)
      rw [List.map_cons, join_cons, List.map_cons]
      split
      · next hnil =>
          rw [parsePairs_step hp endsWord_nil, parsePairs_nil, List.map_eq_nil_iff.mp hnil]
          rfl
      · rw [List.singleton_append, parsePairs_step hp (endsWord_space _), parsePairs_space, hps]
        rfl

/-! ## Field sets -/

/-- A given field as it is written, and the pair that it is read as. -/
def writtenField (s : FieldSet) (f : Field) : Option (Text × (Text × Text)) :=
  match s.number? f, s.text? f with
  | some n, _ => some (f.name ++ '=' :: Decimal.ofInt n.toInt, f.name, Decimal.ofInt n.toInt)
  | none, some t => some (f.name ++ '=' :: quote t, f.name, t)
  | none, none => none

theorem encodeField_eq (s : FieldSet) (f : Field) :
    encodeField s f = (writtenField s f).map Prod.fst := by
  rw [encodeField, writtenField]
  cases s.number? f with
  | some n => rfl
  | none => cases s.text? f <;> rfl

theorem isWrittenPair_field {s : FieldSet} (hs : s.AllTexts ('"' ∉ ·)) {f : Field}
    {p : Text × (Text × Text)} (hp : writtenField s f = some p) : IsWrittenPair p.1 p.2 := by
  rw [writtenField] at hp
  split at hp
  · next n _ =>
      cases hp
      exact isWrittenPair_number (isKey_name f) n.toInt
  · next t _ ht =>
      cases hp
      exact isWrittenPair_quote (isKey_name f) (hs f t ht)
  · cases hp

/-- The given fields, written and read as pairs. -/
theorem parsePairs_encodeFieldSet {s : FieldSet} (hs : s.AllTexts ('"' ∉ ·)) :
    parsePairs (encodeFieldSet s) = .ok ((Field.all.filterMap (writtenField s)).map Prod.snd) := by
  have hmap : Field.all.filterMap (encodeField s) =
      (Field.all.filterMap (writtenField s)).map Prod.fst := by
    rw [List.map_filterMap]
    congr 1
    funext f
    exact encodeField_eq s f
  rw [encodeFieldSet, hmap]
  refine parsePairs_join fun p hp => ?_
  obtain ⟨f, -, hf⟩ := List.mem_filterMap.mp hp
  exact isWrittenPair_field hs hf

/-- The set `t` with the value that `s` gives for one field. -/
def takeFrom (s t : FieldSet) (f : Field) : FieldSet :=
  match s.number? f, s.text? f with
  | some n, _ => t.setNumber f n
  | none, some v => t.setText f v
  | none, none => t

theorem isNumeric_of_number? {s : FieldSet} {f : Field} {n : Int32} (h : s.number? f = some n) :
    f.isNumeric = true := by
  cases f <;> first | rfl | cases h

theorem isNumeric_of_text? {s : FieldSet} {f : Field} {t : Text} (h : s.text? f = some t) :
    f.isNumeric = false := by
  cases f <;> first | rfl | cases h

/-- Reading the pairs of some fields gives their values one after the other. -/
theorem givePairs_written (s t : FieldSet) (fs : List Field) :
    givePairs t ((fs.filterMap (writtenField s)).map Prod.snd) =
      .ok (fs.foldl (takeFrom s) t) := by
  induction fs generalizing t with
  | nil => rfl
  | cons f fs ih =>
      rw [List.foldl_cons, List.filterMap_cons]
      cases hn : s.number? f with
      | some n =>
          have hw : writtenField s f = some (f.name ++ '=' :: Decimal.ofInt n.toInt, f.name,
              Decimal.ofInt n.toInt) := by rw [writtenField, hn]
          have ht : takeFrom s t f = t.setNumber f n := by rw [takeFrom, hn]
          rw [hw, ht]
          simp only [List.map_cons, givePairs, givePair, Field.ofName?_name,
            isNumeric_of_number? hn, if_true, Decimal.trim_ofInt, Decimal.int32?_ofInt]
          exact ih _
      | none =>
          cases hv : s.text? f with
          | some v =>
              have hw : writtenField s f = some (f.name ++ '=' :: quote v, f.name, v) := by
                rw [writtenField, hn, hv]
              have ht : takeFrom s t f = t.setText f v := by rw [takeFrom, hn, hv]
              rw [hw, ht]
              simp only [List.map_cons, givePairs, givePair, Field.ofName?_name,
                isNumeric_of_text? hv, Bool.false_eq_true, if_false]
              exact ih _
          | none =>
              have hw : writtenField s f = none := by rw [writtenField, hn, hv]
              have ht : takeFrom s t f = t := by rw [takeFrom, hn, hv]
              rw [hw, ht]
              exact ih _

/-- Taking over one field touches nothing else. -/
theorem takeFrom_eq (s t : FieldSet) (f : Field) :
    takeFrom s t f = match f with
      | .app => { t with app := s.app.or t.app }
      | .site => { t with site := s.site.or t.site }
      | .mach => { t with mach := s.mach.or t.mach }
      | .node => { t with node := s.node.or t.node }
      | .port => { t with port := s.port.or t.port }
      | .pid => { t with pid := s.pid.or t.pid }
      | .comp => { t with comp := s.comp.or t.comp }
      | .tag => { t with tag := s.tag.or t.tag } := by
  obtain ⟨app, site, mach, node, port, pid, comp, tag⟩ := s
  cases f with
  | app => cases app <;> rfl
  | site => cases site <;> rfl
  | mach => cases mach <;> rfl
  | node => cases node <;> rfl
  | port => cases port <;> rfl
  | pid => cases pid <;> rfl
  | comp => cases comp <;> rfl
  | tag => cases tag <;> rfl

/-- Taking over every field gives the whole set. -/
theorem foldl_takeFrom (s : FieldSet) : Field.all.foldl (takeFrom s) ∅ = s := by
  simp only [Field.all, List.foldl_cons, List.foldl_nil, takeFrom_eq]
  cases s
  simp only [EmptyCollection.emptyCollection, FieldSet.empty, Option.or_none]

/-- A field set that is written is read back. -/
theorem parseFieldSet_encodeFieldSet {s : FieldSet} (hs : s.AllTexts ('"' ∉ ·)) :
    parseFieldSet (encodeFieldSet s) = .ok s := by
  rw [parseFieldSet, parsePairs_encodeFieldSet hs]
  simp only []
  rw [givePairs_written, foldl_takeFrom]

end Wire

end ToolRegistry
