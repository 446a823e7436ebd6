import ToolRegistry.Proofs.FieldPairs

/-!
# The grammar of pairs

The reader of pairs cuts its input in six places, and each cut depends on the
one before. What it accepts can be said without any of them (`IsPairList`): a
list of pairs has blanks in front of each pair and behind the last, blanks on
both sides of each `=`, and values that end where they say they end.

The reader and the grammar agree on every text (`parsePairs_eq_ok_iff`). One
direction reads the cuts off a run of the reader, the other runs the reader on
a text that is already cut. The only place where the two do not cut alike is an
empty bare value: the grammar leaves open which of the blanks behind `=` belong
to the rest, and the reader takes them all. Nothing follows there, so it makes
no difference to the pairs. Since the reader is a function, the pairs of a text
are determined by the text.

Field sets are read off the pairs from left to right. What stays is the last
value for each key, and the first pair that gives no value is the one that is
reported.
-/

namespace ToolRegistry

namespace Wire

open Text

/-! ## The grammar -/

/-- A text that begins with a value, and what follows the value: either a quoted text, or a bare
one that ends where a word ends and is empty only if nothing but blanks follows. -/
inductive BeginsWithValue : Text → Text → Text → Prop
  | quoted {v rest : Text} (hv : '"' ∉ v) : BeginsWithValue (quote v ++ rest) v rest
  | bare {v rest : Text} (hv : ∀ c ∈ v, isBlank c = false ∧ c ≠ '"') (hend : EndsWord rest)
      (hempty : v = [] → IsBlanks rest) : BeginsWithValue (v ++ rest) v rest

/-- A text that is a list of pairs. -/
inductive IsPairList : Text → List (Text × Text) → Prop
  | nil {t : Text} (h : IsBlanks t) : IsPairList t []
  | cons {before key gap gap' valued value rest : Text} {pairs : List (Text × Text)}
      (hbefore : IsBlanks before) (hkey : IsKey key) (hgap : IsBlanks gap)
      (hgap' : IsBlanks gap') (hvalue : BeginsWithValue valued value rest)
      (hrest : IsPairList rest pairs) :
      IsPairList (before ++ key ++ gap ++ '=' :: gap' ++ valued) ((key, value) :: pairs)

/-! ## What is read is a list of pairs -/

theorem takeKey_eq_ok {t key rest : Text} (h : takeKey t = .ok (key, rest)) :
    IsKey key ∧ ∃ gap gap', IsBlanks gap ∧ IsBlanks gap' ∧ BeginsWord rest ∧
      t = key ++ gap ++ '=' :: gap' ++ rest := by
  simp only [takeKey] at h
  split at h
  · cases h
  · next hne =>
      split at h
      · cases h
      · next hquote =>
          split at h
          · next u hu =>
              cases h
              have hkey : ∀ c ∈ t.takeWhile isKeyChar, isKeyChar c = true :=
                List.all_eq_true.mp List.all_takeWhile
              refine ⟨⟨hne, fun c hc => ⟨hkey c hc, fun he => hquote (he ▸ hc)⟩⟩, ?_⟩
              obtain ⟨gap, hgap, hbehind⟩ := exists_blanks (t.dropWhile isKeyChar)
              obtain ⟨gap', hgap', hvalue⟩ := exists_blanks u
              refine ⟨gap, gap', hgap, hgap', beginsWord_trimBlanks u, ?_⟩
              calc t = t.takeWhile isKeyChar ++ t.dropWhile isKeyChar :=
                    List.takeWhile_append_dropWhile.symm
                _ = t.takeWhile isKeyChar ++ (gap ++ '=' :: u) := by rw [← hu, ← hbehind]
                _ = t.takeWhile isKeyChar ++ gap ++ '=' :: gap' ++ trimBlanks u := by
                    rw [List.append_assoc, List.append_assoc, List.cons_append, ← hvalue]
          · cases h

theorem takeQuoted_eq_ok {t v rest : Text} (h : takeQuoted t = .ok (v, rest)) :
    '"' ∉ v ∧ t = v ++ '"' :: rest := by
  rw [takeQuoted] at h
  split at h
  · next c u hu =>
      cases h
      have hplain : ∀ d ∈ t.takeWhile (· != '"'), (d != '"') = true :=
        List.all_eq_true.mp List.all_takeWhile
      have hc : c = '"' := by
        have hhead := List.head?_dropWhile_not (· != '"') t
        simpa [hu] using hhead
      subst hc
      refine ⟨fun hq => absurd (hplain _ hq) (by decide), ?_⟩
      rw [← hu, List.takeWhile_append_dropWhile]
  · cases h

theorem takeValue_eq_ok {t v rest : Text} (hword : BeginsWord t)
    (h : takeValue t = .ok (v, rest)) : BeginsWithValue t v rest := by
  rw [takeValue.eq_def] at h
  split at h
  · next u =>
      obtain ⟨hv, rfl⟩ := takeQuoted_eq_ok h
      have hquoted : BeginsWithValue (quote v ++ rest) v rest := .quoted hv
      rwa [quote, List.append_assoc, List.cons_append, List.singleton_append] at hquoted
  · split at h
    · cases h
    · next hquote =>
        cases h
        have hbare : ∀ c ∈ t.untilBlank, isBlank c = false ∧ c ≠ '"' := by
          intro c hc
          have hblank : (!isBlank c) = true := List.all_eq_true.mp List.all_takeWhile c hc
          exact ⟨by simpa using hblank, fun he => hquote (he ▸ hc)⟩
        have hempty : t.untilBlank = [] → IsBlanks t.fromBlank := by
          intro hnil
          rw [eq_nil_of_untilBlank hword hnil]
          exact isBlanks_nil
        have hvalue := BeginsWithValue.bare hbare (endsWord_fromBlank t) hempty
        rwa [untilBlank_append_fromBlank] at hvalue

theorem takePair_eq_ok {t key value rest : Text} (h : takePair t = .ok ((key, value), rest)) :
    IsKey key ∧ ∃ gap gap' valued, IsBlanks gap ∧ IsBlanks gap' ∧
      BeginsWithValue valued value rest ∧ t = key ++ gap ++ '=' :: gap' ++ valued := by
  rw [takePair] at h
  split at h
  · cases h
  · next hkey =>
      split at h
      · cases h
      · next hvalue =>
          cases h
          obtain ⟨hk, gap, gap', hgap, hgap', hword, ht⟩ := takeKey_eq_ok hkey
          exact ⟨hk, gap, gap', _, hgap, hgap', takeValue_eq_ok hword hvalue, ht⟩

/-- Pairs that are read are there. -/
theorem isPairList_of_parsePairs {t : Text} {pairs : List (Text × Text)}
    (h : parsePairs t = .ok pairs) : IsPairList t pairs := by
  induction t using parsePairs.induct generalizing pairs with
  | case1 t hnil =>
      rw [parsePairs.eq_def, if_pos hnil] at h
      cases h
      exact .nil (trimBlanks_eq_nil_iff.mp hnil)
  | case2 t hne e he =>
      rw [parsePairs.eq_def, if_neg hne, he] at h
      cases h
  | case3 t hne pair rest hpair e he ih =>
      rw [parsePairs.eq_def, if_neg hne, hpair] at h
      simp only [he] at h
      cases h
  | case4 t hne pair rest hpair more hmore ih =>
      rw [parsePairs.eq_def, if_neg hne, hpair] at h
      simp only [hmore] at h
      cases h
      obtain ⟨before, hbefore, ht⟩ := exists_blanks t
      obtain ⟨hkey, gap, gap', valued, hgap, hgap', hvalue, hread⟩ := takePair_eq_ok hpair
      have hlist := IsPairList.cons hbefore hkey hgap hgap' hvalue (ih hmore)
      rwa [List.append_assoc, List.append_assoc, List.append_assoc, ← List.append_assoc pair.1,
        ← List.append_assoc _ _ valued, ← hread, ← ht] at hlist

/-! ## Every list of pairs is read -/

/-- A value is read to its end. What is left differs from what follows by blanks at most. -/
theorem takeValue_of_begins {t v rest : Text} (h : BeginsWithValue t v rest) :
    ∃ left, takeValue t.trimBlanks = .ok (v, left) ∧ left.trimBlanks = rest.trimBlanks := by
  cases h with
  | quoted hv =>
      have htrim : trimBlanks (quote v ++ rest) = quote v ++ rest := rfl
      exact ⟨rest, by rw [htrim, takeValue_quote hv], rfl⟩
  | bare hv hend hempty =>
      by_cases hne : v = []
      · subst hne
        have hrest := trimBlanks_eq_nil_iff.mpr (hempty rfl)
        exact ⟨[], by rw [List.nil_append, hrest]; rfl, hrest.symm⟩
      · have hword := beginsWord_append hne (fun c hc => (hv c hc).1) rest
        refine ⟨rest, ?_, rfl⟩
        rw [trimBlanks_of_beginsWord hword]
        exact takeValue_bare (fun c hc => (hv c hc).1) (fun hq => (hv _ hq).2 rfl) hne hend

/-- One pair is read, and then the rest. -/
theorem parsePairs_pair {before key gap gap' valued value rest : Text}
    (hbefore : IsBlanks before) (hkey : IsKey key) (hgap : IsBlanks gap) (hgap' : IsBlanks gap')
    (hvalue : BeginsWithValue valued value rest) :
    parsePairs (before ++ key ++ gap ++ '=' :: gap' ++ valued) =
      (parsePairs rest).map ((key, value) :: ·) := by
  obtain ⟨left, hread, hleft⟩ := takeValue_of_begins hvalue
  have hword : BeginsWord (key ++ (gap ++ '=' :: (gap' ++ valued))) :=
    beginsWord_append hkey.1 (fun c hc => isBlank_of_isKeyChar (hkey.2 c hc).1) _
  have hpair : takePair (key ++ (gap ++ '=' :: (gap' ++ valued))) =
      .ok ((key, value), left) := by
    rw [← List.append_assoc, takePair, takeKey_spaced hkey hgap, trimBlanks_append hgap']
    simp only [hread]
  have hassoc : before ++ key ++ gap ++ '=' :: gap' ++ valued =
      before ++ (key ++ (gap ++ '=' :: (gap' ++ valued))) := by
    simp only [List.append_assoc, List.cons_append]
  rw [hassoc, ← parsePairs_trimBlanks, trimBlanks_append hbefore, parsePairs_trimBlanks,
    parsePairs_takePair (List.append_ne_nil_of_left_ne_nil hkey.1 _) hword, hpair]
  simp only [Except.bind]
  rw [← parsePairs_trimBlanks left, hleft, parsePairs_trimBlanks]

/-- Pairs that are there are read. -/
theorem parsePairs_of_isPairList {t : Text} {pairs : List (Text × Text)}
    (h : IsPairList t pairs) : parsePairs t = .ok pairs := by
  induction h with
  | nil hblanks => rw [parsePairs.eq_def, if_pos (trimBlanks_eq_nil_iff.mpr hblanks)]
  | cons hbefore hkey hgap hgap' hvalue _ ih =>
      rw [parsePairs_pair hbefore hkey hgap hgap' hvalue, ih]
      rfl

theorem parsePairs_eq_ok_iff {t : Text} {pairs : List (Text × Text)} :
    parsePairs t = .ok pairs ↔ IsPairList t pairs :=
  ⟨isPairList_of_parsePairs, parsePairs_of_isPairList⟩

theorem IsPairList.unique {t : Text} {pairs pairs' : List (Text × Text)}
    (h : IsPairList t pairs) (h' : IsPairList t pairs') : pairs = pairs' :=
  Except.ok.inj ((parsePairs_of_isPairList h).symm.trans (parsePairs_of_isPairList h'))

/-! ## The rounds of the reader -/

/-- Reads pairs in at most so many rounds, one for each pair; nothing comes of it if there is more
to read after that. -/
def parsePairsWithin : Nat → Text → Option (Except GrammarError (List (Text × Text)))
  | rounds, t =>
      if t.trimBlanks = [] then some (.ok [])
      else
        match rounds with
        | 0 => none
        | rounds + 1 =>
            match takePair t.trimBlanks with
            | .error e => some (.error e)
            | .ok (pair, rest) => (parsePairsWithin rounds rest).map fun r => r.map (pair :: ·)

/-- A round takes a character at least, so the reader is done after as many rounds as its text has
characters. -/
theorem parsePairsWithin_eq {rounds : Nat} {t : Text} (h : t.length ≤ rounds) :
    parsePairsWithin rounds t = some (parsePairs t) := by
  induction rounds generalizing t with
  | zero =>
      have hnil : t.trimBlanks = [] := by rw [List.eq_nil_of_length_eq_zero (Nat.le_zero.mp h)]; rfl
      rw [parsePairsWithin, if_pos hnil, parsePairs.eq_def, if_pos hnil]
  | succ rounds ih =>
      rw [parsePairsWithin, parsePairs.eq_def]
      split
      · rfl
      · cases hpair : takePair t.trimBlanks with
        | error e => rfl
        | ok read =>
            have hless := takePair_length_lt hpair
            have htrim := length_trimBlanks_le t
            simp only [ih (show read.2.length ≤ rounds by omega), Option.map_some]
            cases parsePairs read.2 <;> rfl

end Wire

/-! ## Field sets -/

namespace FieldSet

/-- A set is what it gives for each field. -/
theorem ext_fields {s t : FieldSet} (htext : ∀ f, s.text? f = t.text? f)
    (hnumber : ∀ f, s.number? f = t.number? f) : s = t := by
  obtain ⟨app, site, mach, node, port, pid, comp, tag⟩ := s
  obtain ⟨app', site', mach', node', port', pid', comp', tag'⟩ := t
  congr 1
  · exact htext .app
  · exact htext .site
  · exact htext .mach
  · exact htext .node
  · exact hnumber .port
  · exact hnumber .pid
  · exact htext .comp
  · exact htext .tag

theorem text?_setText (s : FieldSet) (f g : Field) (t : Text) :
    (s.setText f t).text? g = if f = g ∧ f.isNumeric = false then some t else s.text? g := by
  cases f <;> cases g <;> rfl

theorem number?_setText (s : FieldSet) (f g : Field) (t : Text) :
    (s.setText f t).number? g = s.number? g := by
  cases f <;> cases g <;> rfl

theorem text?_setNumber (s : FieldSet) (f g : Field) (n : Int32) :
    (s.setNumber f n).text? g = s.text? g := by
  cases f <;> cases g <;> rfl

theorem number?_setNumber (s : FieldSet) (f g : Field) (n : Int32) :
    (s.setNumber f n).number? g = if f = g ∧ f.isNumeric = true then some n else s.number? g := by
  cases f <;> cases g <;> rfl

end FieldSet

namespace Wire

theorem ofName?_eq_some_iff {key : Text} {f : Field} :
    Field.ofName? key = some f ↔ f.name = key := by
  constructor
  · intro h
    have hname := List.find?_some h
    simpa using hname
  · rintro rfl
    exact Field.ofName?_name f

theorem name_injective {f g : Field} (h : f.name = g.name) : f = g :=
  Option.some.inj ((Field.ofName?_name f).symm.trans (h ▸ Field.ofName?_name g))

/-- A pair that gives a field a value: its key is the name of the field, and if the field is
numeric, the value is a number of thirty-two bits with white space around it. -/
def GivesField (pair : Text × Text) : Prop :=
  ∃ f : Field, f.name = pair.1 ∧
    (f.isNumeric = true → ∃ n : Int32, Decimal.IsDecimal pair.2.trim n.toInt)

/-- What is wrong with a pair that gives no value. -/
inductive IsFault : Text × Text → GrammarError → Prop
  | unknownKey {pair : Text × Text} (h : ∀ f : Field, f.name ≠ pair.1) :
      IsFault pair (.unknownKey pair.1)
  | invalidNumber {pair : Text × Text} {f : Field} (hf : f.name = pair.1)
      (hn : f.isNumeric = true) (h : ∀ n : Int32, ¬Decimal.IsDecimal pair.2.trim n.toInt) :
      IsFault pair (.invalidNumber pair.1 pair.2)

/-- The value of the last pair with a key. -/
def lastValue? (pairs : List (Text × Text)) (key : Text) : Option Text :=
  pairs.reverse.lookup key

theorem lastValue?_concat (pairs : List (Text × Text)) (pair : Text × Text) (key : Text) :
    lastValue? (pairs ++ [pair]) key =
      if pair.1 = key then some pair.2 else lastValue? pairs key := by
  rw [lastValue?, List.reverse_concat, List.lookup_cons, lastValue?]
  by_cases h : pair.1 = key
  · rw [if_pos h, h, beq_self_eq_true]
  · rw [if_neg h, beq_false_of_ne (Ne.symm h)]

theorem mem_of_lastValue? {pairs : List (Text × Text)} {key v : Text}
    (h : lastValue? pairs key = some v) : (key, v) ∈ pairs := by
  obtain ⟨before, behind, hpairs, -⟩ := List.lookup_eq_some_iff.mp h
  exact List.mem_reverse.mp (hpairs ▸ List.mem_append_right _ List.mem_cons_self)

/-- A set that gives each field the last value that there is for it among the pairs. -/
structure IsGivenBy (s : FieldSet) (pairs : List (Text × Text)) : Prop where
  /-- A text is given as it stands. -/
  text : ∀ f t, s.text? f = some t ↔ f.isNumeric = false ∧ lastValue? pairs f.name = some t
  /-- A number is given by its written form. -/
  number : ∀ f n, s.number? f = some n ↔ f.isNumeric = true ∧
    ∃ v, lastValue? pairs f.name = some v ∧ Decimal.IsDecimal v.trim n.toInt

theorem IsGivenBy.unique {s s' : FieldSet} {pairs : List (Text × Text)} (h : IsGivenBy s pairs)
    (h' : IsGivenBy s' pairs) : s = s' := by
  refine FieldSet.ext_fields (fun f => ?_) fun f => ?_
  · exact Option.ext fun t => (h.text f t).trans (h'.text f t).symm
  · exact Option.ext fun n => (h.number f n).trans (h'.number f n).symm

theorem isGivenBy_nil : IsGivenBy ∅ [] where
  text f t := by cases f <;> simp [lastValue?, FieldSet.text?, EmptyCollection.emptyCollection,
    FieldSet.empty]
  number f n := by cases f <;> simp [lastValue?, FieldSet.number?,
    EmptyCollection.emptyCollection, FieldSet.empty]

/-! ### One pair -/

theorem givePair_eq_ok_iff {s s' : FieldSet} {pair : Text × Text} :
    givePair s pair = .ok s' ↔ ∃ f : Field, f.name = pair.1 ∧
      (f.isNumeric = false ∧ s' = s.setText f pair.2 ∨
        f.isNumeric = true ∧ ∃ n, Decimal.IsDecimal pair.2.trim n.toInt ∧
          s' = s.setNumber f n) := by
  rw [givePair]
  constructor
  · intro h
    split at h
    · cases h
    · next f hf =>
        refine ⟨f, ofName?_eq_some_iff.mp hf, ?_⟩
        split at h
        · next hn =>
            split at h
            · next n hread =>
                cases h
                exact .inr ⟨hn, n, Decimal.int32?_eq_some_iff.mp hread, rfl⟩
            · cases h
        · next hn =>
            cases h
            exact .inl ⟨Bool.eq_false_iff.mpr hn, rfl⟩
  · rintro ⟨f, hf, ⟨hn, rfl⟩ | ⟨hn, n, hread, rfl⟩⟩
    · simp only [ofName?_eq_some_iff.mpr hf, hn, Bool.false_eq_true, if_false]
    · simp only [ofName?_eq_some_iff.mpr hf, hn, if_true, Decimal.int32?_eq_some_iff.mpr hread]

theorem givePair_eq_error_iff {s : FieldSet} {pair : Text × Text} {e : GrammarError} :
    givePair s pair = .error e ↔ IsFault pair e := by
  rw [givePair]
  constructor
  · intro h
    split at h
    · next hnone =>
        cases h
        refine .unknownKey fun f hf => ?_
        rw [ofName?_eq_some_iff.mpr hf] at hnone
        cases hnone
    · next f hf =>
        split at h
        · next hn =>
            split at h
            · cases h
            · next hread =>
                cases h
                refine .invalidNumber (ofName?_eq_some_iff.mp hf) hn fun n hdecimal => ?_
                rw [Decimal.int32?_eq_some_iff.mpr hdecimal] at hread
                cases hread
        · cases h
  · intro h
    cases h with
    | unknownKey hkey =>
        have hnone : Field.ofName? pair.1 = none :=
          Option.eq_none_iff_forall_ne_some.mpr fun f hf => hkey f (ofName?_eq_some_iff.mp hf)
        simp only [hnone]
    | invalidNumber hf hn hdecimal =>
        have hnone : Decimal.int32? pair.2.trim = none :=
          Option.eq_none_iff_forall_ne_some.mpr fun n hread =>
            hdecimal n (Decimal.int32?_eq_some_iff.mp hread)
        simp only [ofName?_eq_some_iff.mpr hf, hn, if_true, hnone]

/-- Whether a pair gives a value does not depend on what has been given before it. -/
theorem givesField_iff (s : FieldSet) (pair : Text × Text) :
    GivesField pair ↔ ∃ s', givePair s pair = .ok s' := by
  constructor
  · rintro ⟨f, hf, hnumber⟩
    cases hn : f.isNumeric with
    | false => exact ⟨_, givePair_eq_ok_iff.mpr ⟨f, hf, .inl ⟨hn, rfl⟩⟩⟩
    | true =>
        obtain ⟨n, hread⟩ := hnumber hn
        exact ⟨_, givePair_eq_ok_iff.mpr ⟨f, hf, .inr ⟨hn, n, hread, rfl⟩⟩⟩
  · rintro ⟨s', h⟩
    obtain ⟨f, hf, ⟨hn, -⟩ | ⟨-, n, hread, -⟩⟩ := givePair_eq_ok_iff.mp h
    · exact ⟨f, hf, fun hn' => absurd (hn.symm.trans hn') (by decide)⟩
    · exact ⟨f, hf, fun _ => ⟨n, hread⟩⟩

/-- A further pair replaces what the pairs before it gave to its field. -/
theorem IsGivenBy.concat {s s' : FieldSet} {pairs : List (Text × Text)} {pair : Text × Text}
    (hs : IsGivenBy s pairs) (h : givePair s pair = .ok s') : IsGivenBy s' (pairs ++ [pair]) := by
  obtain ⟨f, hf, hgiven⟩ := givePair_eq_ok_iff.mp h
  have hkey (g : Field) : pair.1 = g.name ↔ f = g :=
    ⟨fun hg => name_injective (hf.trans hg), fun hg => hg ▸ hf.symm⟩
  constructor
  · intro g t
    rw [lastValue?_concat]
    by_cases hfg : f = g
    · subst hfg
      rw [if_pos ((hkey f).mpr rfl)]
      rcases hgiven with ⟨hn, rfl⟩ | ⟨hn, n, -, rfl⟩
      · simp [FieldSet.text?_setText, hn]
      · simp [FieldSet.text?_setNumber, hs.text, hn]
    · rw [if_neg fun he => hfg ((hkey g).mp he), ← hs.text]
      rcases hgiven with ⟨-, rfl⟩ | ⟨-, n, -, rfl⟩
      · rw [FieldSet.text?_setText, if_neg fun he => hfg he.1]
      · rw [FieldSet.text?_setNumber]
  · intro g m
    rw [lastValue?_concat]
    by_cases hfg : f = g
    · subst hfg
      rw [if_pos ((hkey f).mpr rfl)]
      rcases hgiven with ⟨hn, rfl⟩ | ⟨hn, n, hread, rfl⟩
      · simp [FieldSet.number?_setText, hs.number, hn]
      · rw [FieldSet.number?_setNumber, if_pos ⟨rfl, hn⟩]
        constructor
        · intro hm
          cases hm
          exact ⟨hn, _, rfl, hread⟩
        · rintro ⟨-, v, hv, hm⟩
          cases hv
          -- Both numbers are what is read from the one text.
          exact (Decimal.int32?_eq_some_iff.mpr hread).symm.trans
            (Decimal.int32?_eq_some_iff.mpr hm)
    · rw [if_neg fun he => hfg ((hkey g).mp he), ← hs.number]
      rcases hgiven with ⟨-, rfl⟩ | ⟨-, n, -, rfl⟩
      · rw [FieldSet.number?_setText]
      · rw [FieldSet.number?_setNumber, if_neg fun he => hfg he.1]

/-! ### One pair after the other -/

theorem givePairs_append (s : FieldSet) (before behind : List (Text × Text)) :
    givePairs s (before ++ behind) = (givePairs s before).bind (givePairs · behind) := by
  induction before generalizing s with
  | nil => rfl
  | cons pair before ih =>
      rw [List.cons_append, givePairs, givePairs]
      cases givePair s pair with
      | error e => rfl
      | ok s' => exact ih s'

theorem givePairs_singleton (s : FieldSet) (pair : Text × Text) :
    givePairs s [pair] = givePair s pair := by
  rw [givePairs]
  cases givePair s pair <;> rfl

/-- What the pairs give, if each of them gives something, is the last value for each key. -/
theorem isGivenBy_of_givePairs {s : FieldSet} {pairs : List (Text × Text)}
    (h : givePairs ∅ pairs = .ok s) : (∀ p ∈ pairs, GivesField p) ∧ IsGivenBy s pairs := by
  -- From the back, since the last pair is the one that may undo what others have given.
  induction pairs using List.reverseRecOn generalizing s with
  | nil =>
      cases h
      exact ⟨List.forall_mem_nil _, isGivenBy_nil⟩
  | append_singleton pairs pair ih =>
      rw [givePairs_append] at h
      cases hbefore : givePairs ∅ pairs with
      | error e =>
          rw [hbefore] at h
          cases h
      | ok s' =>
          rw [hbefore] at h
          have hpair : givePair s' pair = .ok s := (givePairs_singleton s' pair).symm.trans h
          obtain ⟨hgives, hgiven⟩ := ih hbefore
          refine ⟨fun p hp => ?_, hgiven.concat hpair⟩
          rcases List.mem_append.mp hp with hp | hp
          · exact hgives p hp
          · rw [List.mem_singleton.mp hp]
            exact (givesField_iff s' pair).mpr ⟨s, hpair⟩

theorem exists_givePairs (s : FieldSet) {pairs : List (Text × Text)}
    (h : ∀ p ∈ pairs, GivesField p) : ∃ s', givePairs s pairs = .ok s' := by
  induction pairs generalizing s with
  | nil => exact ⟨s, rfl⟩
  | cons pair pairs ih =>
      obtain ⟨hpair, hpairs⟩ := List.forall_mem_cons.mp h
      obtain ⟨s', hs'⟩ := (givesField_iff s pair).mp hpair
      rw [givePairs, hs']
      exact ih s' hpairs

theorem givePairs_eq_ok_iff {s : FieldSet} {pairs : List (Text × Text)} :
    givePairs ∅ pairs = .ok s ↔ (∀ p ∈ pairs, GivesField p) ∧ IsGivenBy s pairs := by
  refine ⟨isGivenBy_of_givePairs, fun ⟨hgives, hgiven⟩ => ?_⟩
  obtain ⟨s', hs'⟩ := exists_givePairs ∅ hgives
  rw [hs', hgiven.unique (isGivenBy_of_givePairs hs').2]

/-- The first pair that gives no value is the one that is reported. -/
theorem givePairs_eq_error_iff {s : FieldSet} {pairs : List (Text × Text)} {e : GrammarError} :
    givePairs s pairs = .error e ↔ ∃ before pair behind, pairs = before ++ pair :: behind ∧
      (∀ p ∈ before, GivesField p) ∧ IsFault pair e := by
  constructor
  · intro h
    induction pairs generalizing s with
    | nil => cases h
    | cons pair pairs ih =>
        rw [givePairs] at h
        split at h
        · next hfault =>
            cases h
            exact ⟨[], pair, pairs, rfl, List.forall_mem_nil _, givePair_eq_error_iff.mp hfault⟩
        · next s' hgiven =>
            obtain ⟨before, faulty, behind, rfl, hgives, hfault⟩ := ih h
            have hpair := (givesField_iff s pair).mpr ⟨s', hgiven⟩
            exact ⟨pair :: before, faulty, behind, rfl,
              List.forall_mem_cons.mpr ⟨hpair, hgives⟩, hfault⟩
  · rintro ⟨before, pair, behind, rfl, hgives, hfault⟩
    obtain ⟨s', hs'⟩ := exists_givePairs s hgives
    rw [givePairs_append, hs', Except.bind, givePairs, givePair_eq_error_iff.mpr hfault]

theorem parseFieldSet_of_isPairList {t : Text} {pairs : List (Text × Text)}
    (h : IsPairList t pairs) : parseFieldSet t = givePairs ∅ pairs := by
  rw [parseFieldSet, parsePairs_of_isPairList h]

/-! ## The whole reader -/

/-- The reader accepts the lists of pairs, and each of them as one list only; it is done after as
many rounds as the text has characters; and a field set read off the pairs has the last value for
each key, or the fault of the first pair without one. -/
theorem parsePairs_grammar (t : Text) :
    (∀ pairs, parsePairs t = .ok pairs ↔ IsPairList t pairs) ∧
      (∀ pairs pairs', IsPairList t pairs → IsPairList t pairs' → pairs = pairs') ∧
      (∀ rounds, t.length ≤ rounds → parsePairsWithin rounds t = some (parsePairs t)) ∧
      ∀ pairs, IsPairList t pairs →
        (∀ s, parseFieldSet t = .ok s ↔ (∀ p ∈ pairs, GivesField p) ∧ IsGivenBy s pairs) ∧
        ∀ e, parseFieldSet t = .error e ↔ ∃ before pair behind,
          pairs = before ++ pair :: behind ∧ (∀ p ∈ before, GivesField p) ∧ IsFault pair e := by
  refine ⟨fun _ => parsePairs_eq_ok_iff, fun _ _ h h' => h.unique h',
    fun _ h => parsePairsWithin_eq h, fun pairs h => ?_⟩
  rw [parseFieldSet_of_isPairList h]
  exact ⟨fun _ => givePairs_eq_ok_iff, fun _ => givePairs_eq_error_iff⟩

/-- Adjacent quoted pairs, blanks on either side of `=`, an equals sign in a bare value, a key
that comes twice and an empty value at the end. -/
theorem parsePairs_grammar_mixed :
    let t : Text := "\t comp=\"h a\"pid\t=\" +007\u00a0\"tag = x=1 pid=8 tag= "
    let pairs : List (Text × Text) :=
      [("comp", "h a"), ("pid", " +007\u00a0"), ("tag", "x=1"), ("pid", "8"), ("tag", "")]
    let s : FieldSet := { pid := some 8, comp := some "h a", tag := some "" }
    t.length ≤ 50 ∧ parsePairsWithin 50 t = some (parsePairs t) ∧ IsPairList t pairs ∧
      (∀ p ∈ pairs, GivesField p) ∧ IsGivenBy s pairs ∧
      ∀ pairs', IsPairList t pairs' → pairs' = pairs := by
  intro t pairs s
  obtain ⟨haccepts, hunique, hrounds, hfields⟩ := parsePairs_grammar t
  have hlength : t.length ≤ 50 := by decide
  have hwithin : parsePairsWithin 50 t = some (.ok pairs) := by decide +kernel
  have hparse : parsePairs t = .ok pairs := Option.some.inj ((hrounds 50 hlength).symm.trans hwithin)
  have hlist : IsPairList t pairs := (haccepts pairs).mp hparse
  have hset : parseFieldSet t = .ok s := by
    rw [parseFieldSet_of_isPairList hlist]
    decide +kernel
  obtain ⟨hgives, hgiven⟩ := ((hfields pairs hlist).1 s).mp hset
  exact ⟨hlength, hrounds 50 hlength, hlist, hgives, hgiven,
    fun pairs' h => hunique pairs' pairs h hlist⟩

end Wire

end ToolRegistry
