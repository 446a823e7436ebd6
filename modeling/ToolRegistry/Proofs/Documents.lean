import ToolRegistry.Proofs.FieldPairs
import ToolRegistry.Proofs.QuotedStrings
import ToolRegistry.Toml.Document
import ToolRegistry.Toml.Section

/-!
# Sections that are written are read back

A document of sections is written line by line, and it is read by statements,
one on a line. So the argument goes along the lines. Each of them is read as
the statement that it was written for, whatever follows (`statement?_line`,
`statement?_header`), and carrying out that statement adds just its entry to
the section that was opened last.

The reader allows more than the writer makes use of, and each time one has to
see that what was written cannot be taken for something else. A number is not
the beginning of a date, because digits are followed by a line end. It has no
leading zeros, so it is not of another base. And a key is not a path, because a
space and an equals sign follow it.

The lines of a section are added to the last table of the document. For this
the names must differ, and the keys within each section.
-/

namespace ToolRegistry.Toml

open Text

/-! ## Numbers -/

/-- No number but zero begins with a zero. -/
theorem head?_ofNat {n : Nat} (h : (Decimal.ofNat n).head? = some '0') : n = 0 := by
  induction n using Nat.strongRecOn with
  | ind n ih =>
      by_cases hn : n < 10
      · have hall : ∀ n < 10, (Decimal.ofNat n).head? = some '0' → n = 0 := by decide
        exact hall n hn h
      · have hlast : Decimal.ofNat n = Decimal.ofNat (n / 10) ++ [Nat.digitChar (n % 10)] :=
          Nat.toDigits_of_base_le (by decide) (by omega)
        rw [hlast, List.head?_append_of_ne_nil _ (Decimal.ofNat_ne_nil _)] at h
        have := ih (n / 10) (by omega) h
        omega

theorem moreDigits_append {ds : Text} (hd : ∀ c ∈ ds, c.isDigit = true) (rest : Text) :
    moreDigits Char.isDigit (ds ++ '\n' :: rest) = some (ds, '\n' :: rest) := by
  induction ds with
  | nil =>
      rw [List.nil_append, moreDigits.eq_def]
      rfl
  | cons c ds ih =>
      obtain ⟨hc, hds⟩ := List.forall_mem_cons.mp hd
      have hunder : c ≠ '_' := by
        rintro rfl
        cases hc
      rw [List.cons_append, moreDigits.eq_def]
      split
      · next he => cases he
      · next he => exact absurd (List.cons.inj he).1 hunder
      · next he =>
          cases he
          rw [if_pos hc, ih hds, keep_some]

theorem wholeDigits_ofNat (n : Nat) (rest : Text) :
    wholeDigits (Decimal.ofNat n ++ '\n' :: rest) = some (Decimal.ofNat n, '\n' :: rest) := by
  obtain ⟨c, ds, hds⟩ := List.exists_cons_of_ne_nil (Decimal.ofNat_ne_nil n)
  have hdigits : ∀ d ∈ c :: ds, d.isDigit = true :=
    fun d hd => Decimal.isDigit_of_mem_ofNat (n := n) (hds ▸ hd)
  obtain ⟨hc, hrest⟩ := List.forall_mem_cons.mp hdigits
  rw [wholeDigits.eq_def]
  split
  · next more he =>
      have hzero : n = 0 := by
        refine head?_ofNat ?_
        rw [hds] at he ⊢
        cases he
        rfl
      subst hzero
      cases he
      rfl
  · rw [hds, List.cons_append, digitRun, if_pos hc, moreDigits_append hrest, keep_some]

theorem unsigned?_ofNat {negative : Bool} {n : Nat} {v : Value}
    (hv : integer? (if negative then -(n : Int) else n) = some v) (rest : Text) :
    unsigned? negative (Decimal.ofNat n ++ '\n' :: rest) = some (v, '\n' :: rest) := by
  have hspecial : specialFloat? (Decimal.ofNat n ++ '\n' :: rest) = none := by
    obtain ⟨c, ds, hds⟩ := List.exists_cons_of_ne_nil (Decimal.ofNat_ne_nil n)
    have hc : c.isDigit = true := Decimal.isDigit_of_mem_ofNat (n := n) (by simp [hds])
    have hi : 'i' ≠ c := by
      rintro rfl
      cases hc
    have hn : 'n' ≠ c := by
      rintro rfl
      cases hc
    rw [hds]
    simp [specialFloat?, after?, hi, hn, List.isPrefixOf?]
  rw [unsigned?, hspecial]
  simp only [wholeDigits_ofNat, Option.bind_eq_bind, Option.bind_some]
  rw [if_neg (show ¬isFractional ('\n' :: rest) = true from Bool.false_ne_true), Decimal.ofNat,
    Nat.ofDigitChars_ten_toDigits, hv]
  rfl

theorem ofNat_append_ne {c : Char} (hc : c.isDigit = false) (n : Nat) (rest t : Text) :
    Decimal.ofNat n ++ rest ≠ c :: t := by
  obtain ⟨d, ds, hds⟩ := List.exists_cons_of_ne_nil (Decimal.ofNat_ne_nil n)
  have hd : d.isDigit = true := Decimal.isDigit_of_mem_ofNat (n := n) (by simp [hds])
  intro he
  rw [hds, List.cons_append, List.cons.injEq] at he
  rw [he.1, hc] at hd
  cases hd

/-- A written number has no letter behind a leading zero. -/
theorem ofNat_ne_based {c : Char} (hc : c ≠ '\n') (n : Nat) (rest t : Text) :
    Decimal.ofNat n ++ '\n' :: rest ≠ '0' :: c :: t := by
  intro he
  have hzero : n = 0 := by
    refine head?_ofNat ?_
    rw [← List.head?_append_of_ne_nil _ (Decimal.ofNat_ne_nil n), he]
    rfl
  subst hzero
  cases he
  exact hc rfl

theorem number?_ofInt {i : Int} (h : fits i = true) (rest : Text) :
    number? (Decimal.ofInt i ++ '\n' :: rest) = some (.integer i, '\n' :: rest) := by
  have hinteger : integer? i = some (.integer i) := by rw [integer?, if_pos h]
  cases i with
  | negSucc n =>
      rw [Decimal.ofInt, List.cons_append, number?]
      refine unsigned?_ofNat ?_ rest
      rw [if_pos rfl]
      exact hinteger
  | ofNat n =>
      rw [Decimal.ofInt, number?.eq_def]
      split
      · next he => exact absurd he (ofNat_ne_based (by decide) n rest _)
      · next he => exact absurd he (ofNat_ne_based (by decide) n rest _)
      · next he => exact absurd he (ofNat_ne_based (by decide) n rest _)
      · next he => exact absurd he (ofNat_append_ne (by decide) n _ _)
      · next he => exact absurd he (ofNat_append_ne (by decide) n _ _)
      · refine unsigned?_ofNat ?_ rest
        rw [if_neg Bool.false_ne_true]
        exact hinteger

/-! ## Values -/

/-- Digits that a line ends behind are no part of a date or a time. -/
theorem begins_digits {c : Char} (hc : c.isDigit = false) (hlf : c ≠ '\n') {ds : Text}
    (hd : ∀ d ∈ ds, d.isDigit = true) (n : Nat) (rest : Text) :
    begins n c (ds ++ '\n' :: rest) = false := by
  induction ds generalizing n with
  | nil =>
      cases n with
      | zero => simp [begins, Ne.symm hlf]
      | succ n => simp [begins, show Char.isDigit '\n' = false from rfl]
  | cons d ds ih =>
      obtain ⟨hdigit, hds⟩ := List.forall_mem_cons.mp hd
      cases n with
      | zero =>
          have hne : d ≠ c := by
            rintro rfl
            rw [hc] at hdigit
            cases hdigit
          simp [begins, hne]
      | succ n => simpa [begins, hdigit] using ih hds n

theorem beginsMoment_ofInt (i : Int) (rest : Text) :
    beginsMoment (Decimal.ofInt i ++ '\n' :: rest) = false := by
  cases i with
  | ofNat n =>
      have hd : ∀ d ∈ Decimal.ofNat n, d.isDigit = true := fun d => Decimal.isDigit_of_mem_ofNat
      rw [Decimal.ofInt, beginsMoment, begins_digits (by decide) (by decide) hd,
        begins_digits (by decide) (by decide) hd]
      rfl
  | negSucc n =>
      simp [Decimal.ofInt, beginsMoment, begins, show Char.isDigit '-' = false from rfl]

/-- A value that is no list and no table is a simple one. -/
theorem value?_simple {t : Text} (hlist : t.head? ≠ some '[') (htable : t.head? ≠ some '\x7b')
    (depth : Nat) : value? depth t = simpleValue? t := by
  rw [value?.eq_def]
  split <;> first | rfl | exact absurd rfl hlist | exact absurd rfl htable

/-- A number is no string and no word. -/
theorem simpleValue?_number {c : Char} (hc : c = '-' ∨ c.isDigit = true) (t : Text) :
    simpleValue? (c :: t) =
      if beginsMoment (c :: t) then moment? (c :: t) else number? (c :: t) := by
  have hne : ∀ d : Char, d ≠ '-' → d.isDigit = false → d ≠ c := by
    rintro d hminus hdigit rfl
    rcases hc with hc | hc
    · exact hminus hc
    · rw [hdigit] at hc
      cases hc
  have hstring : string? (c :: t) = none := by
    have hdouble := hne '"' (by decide) (by decide)
    have hsingle := hne '\x27' (by decide) (by decide)
    rw [string?.eq_def]
    split
    · next he => exact absurd (List.cons.inj he).1.symm hdouble
    · next he => exact absurd (List.cons.inj he).1.symm hsingle
    · rw [lineString?.eq_def]
      split
      · next he => exact absurd (List.cons.inj he).1.symm hdouble
      · next he => exact absurd (List.cons.inj he).1.symm hsingle
      · rfl
  have htrue := hne 't' (by decide) (by decide)
  have hfalse := hne 'f' (by decide) (by decide)
  rw [simpleValue?, hstring]
  simp [after?, List.isPrefixOf?, htrue, hfalse]

/-- What a text or an integer begins with. -/
def beginsValue (c : Char) : Bool := c == '"' || c == '\x27' || c == '-' || c.isDigit

theorem beginsValue_rendered {v : Value} {w : Text} (h : renderValue? v = some w) :
    ∃ c t, w = c :: t ∧ beginsValue c = true := by
  cases v with
  | string t =>
      cases h
      rcases head?_renderString t with h | h <;>
        exact ⟨_, _, (List.head?_eq_some_iff.mp h).choose_spec, rfl⟩
  | integer i =>
      rw [renderValue?] at h
      split at h
      · cases h
        obtain ⟨c, ds, hds⟩ := List.exists_cons_of_ne_nil (Decimal.ofInt_ne_nil i)
        refine ⟨c, ds, hds, ?_⟩
        rcases Decimal.mem_ofInt (i := i) (c := c) (by simp [hds]) with rfl | hc
        · rfl
        · simp [beginsValue, hc]
      · cases h
  | float | boolean | moment | array | table | tables => cases h

theorem head?_rendered_ne {v : Value} {w : Text} (h : renderValue? v = some w) {d : Char}
    (hd : beginsValue d = false) (rest : Text) : (w ++ rest).head? ≠ some d := by
  obtain ⟨c, t, rfl, hc⟩ := beginsValue_rendered h
  intro he
  rw [← Option.some.inj he, hc] at hd
  cases hd

/-- A text or an integer is read back, and the reader stops at the end of the line. -/
theorem value?_rendered {v : Value} {w : Text} (h : renderValue? v = some w) (depth : Nat)
    (rest : Text) : value? depth (w ++ '\n' :: rest) = some (v, '\n' :: rest) := by
  rw [value?_simple (head?_rendered_ne h (by decide) _) (head?_rendered_ne h (by decide) _)]
  cases v with
  | string t =>
      cases h
      rw [simpleValue?, string?_renderString t (endsString_lineEnd rest)]
  | integer i =>
      rw [renderValue?] at h
      split at h
      · next hfits =>
          cases h
          obtain ⟨c, ds, hds⟩ := List.exists_cons_of_ne_nil (Decimal.ofInt_ne_nil i)
          have hc : c = '-' ∨ c.isDigit = true := Decimal.mem_ofInt (i := i) (by simp [hds])
          have hsimple := simpleValue?_number hc (ds ++ '\n' :: rest)
          rwa [← List.cons_append, ← hds, beginsMoment_ofInt, if_neg Bool.false_ne_true,
            number?_ofInt hfits] at hsimple
      · cases h
  | float | boolean | moment | array | table | tables => cases h

/-! ## Statements -/

/-- A key that needs no quotes. -/
def IsBareKey (key : Text) : Prop := key ≠ [] ∧ ∀ c ∈ key, isBare c = true

instance (key : Text) : Decidable (IsBareKey key) :=
  @instDecidableAnd _ _ _ (List.decidableBAll (fun c : Char => isBare c = true) key)

theorem isBare_ne {key : Text} (hkey : IsBareKey key) {c : Char} (hc : isBare c = false)
    (rest t : Text) : key ++ rest ≠ c :: t := by
  obtain ⟨d, key, rfl⟩ := List.exists_cons_of_ne_nil hkey.1
  intro he
  have hd := hkey.2 d List.mem_cons_self
  rw [(List.cons.inj he).1, hc] at hd
  cases hd

theorem isBlank_of_isBare {c : Char} (h : isBare c = true) : isBlank c = false := by
  refine Bool.eq_false_iff.mpr fun hb => ?_
  simp only [isBlank, Bool.or_eq_true, beq_iff_eq] at hb
  rcases hb with rfl | rfl <;> cases h

/-- A bare key is read as a path of its own, unless a dot follows it. -/
theorem keyPath?_bare {key : Text} (hkey : IsBareKey key) (c : Char) (rest : Text)
    (hc : isBare c = false) (hdot : ∀ more, trimBlanks (c :: rest) ≠ '.' :: more) :
    keyPath? (key ++ c :: rest) = some (⟨[], key⟩, trimBlanks (c :: rest)) := by
  have hbegins : BeginsWord (key ++ c :: rest) :=
    beginsWord_append hkey.1 (fun d hd => isBlank_of_isBare (hkey.2 d hd)) _
  have hword : (key ++ c :: rest).takeWhile isBare = key := by
    rw [List.takeWhile_append_of_pos hkey.2, List.takeWhile_cons_of_neg (by simp [hc]),
      List.append_nil]
  have hbehind : (key ++ c :: rest).dropWhile isBare = c :: rest := by
    rw [List.dropWhile_append_of_pos hkey.2, List.dropWhile_cons_of_neg (by simp [hc])]
  have hsimple : simpleKey? (key ++ c :: rest) = some (key, c :: rest) := by
    rw [simpleKey?, hword, hbehind]
    cases key with
    | nil => exact absurd rfl hkey.1
    | cons d key => rfl
  have hkeys : keys? (key ++ c :: rest) = some (⟨[], key⟩, trimBlanks (c :: rest)) := by
    rw [keys?, trimBlanks_of_beginsWord hbegins, hsimple]
    simp only [Option.bind_eq_bind, Option.bind_some]
    rfl
  rw [keyPath?, hkeys]
  rfl

theorem statement?_nothing (rest : Text) : statement? ('\n' :: rest) = some (.nothing, rest) := rfl

/-- The header of a section is read. -/
theorem statement?_header {s : Section} (h : IsBareKey s.name) (rest : Text) :
    statement? (s.header ++ rest) = some (.table ⟨[], s.name⟩, rest) := by
  have hline : line? ('[' :: (s.name ++ ']' :: '\n' :: rest)) =
      some (.table ⟨[], s.name⟩, '\n' :: rest) := by
    have hkey := keyPath?_bare h ']' ('\n' :: rest) (by decide) (by
      intro more he
      cases he)
    rw [line?.eq_def]
    split
    · next he => cases he
    · next he => cases he
    · next he => cases he
    · next he => cases he
    · next he => exact absurd (List.cons.inj he).2 (isBare_ne h (by decide) _ _)
    · next he =>
        cases he
        rw [hkey]
        rfl
    · next _ _ _ _ _ hne => exact absurd rfl (hne _)
  have hwritten : s.header ++ rest = '[' :: (s.name ++ ']' :: '\n' :: rest) := by
    show '[' :: (s.name ++ [']', '\n'] ++ rest) = _
    rw [List.append_assoc]
    rfl
  have htrim : trimBlanks ('[' :: (s.name ++ ']' :: '\n' :: rest)) =
      '[' :: (s.name ++ ']' :: '\n' :: rest) := rfl
  rw [statement?, hwritten, htrim, hline]
  rfl

/-- A line of a section is read. -/
theorem statement?_line {line : Text × Value} (h : IsBareKey line.1) {w : Text}
    (hw : renderLine? line = some w) (rest : Text) :
    statement? (w ++ rest) = some (.assign ⟨[], line.1⟩ line.2, rest) := by
  obtain ⟨v, hv, rfl⟩ := Option.map_eq_some_iff.mp hw
  have hwritten : line.1 ++ " = ".toList ++ v ++ ['\n'] ++ rest =
      line.1 ++ ' ' :: '=' :: ' ' :: (v ++ '\n' :: rest) := by
    simp only [List.append_assoc]
    rfl
  have htrim : trimBlanks (line.1 ++ ' ' :: '=' :: ' ' :: (v ++ '\n' :: rest)) =
      line.1 ++ ' ' :: '=' :: ' ' :: (v ++ '\n' :: rest) :=
    trimBlanks_of_beginsWord
      (beginsWord_append h.1 (fun d hd => isBlank_of_isBare (h.2 d hd)) _)
  have hassign : assignment? (value? depthLimit)
      (line.1 ++ ' ' :: '=' :: ' ' :: (v ++ '\n' :: rest)) =
        some ((⟨[], line.1⟩, line.2), '\n' :: rest) := by
    have hkey := keyPath?_bare h ' ' ('=' :: ' ' :: (v ++ '\n' :: rest)) (by decide) (by
      intro more he
      cases he)
    have hmark : mark? '=' (trimBlanks (' ' :: '=' :: ' ' :: (v ++ '\n' :: rest))) =
        some (' ' :: (v ++ '\n' :: rest)) := rfl
    have hvalue : trimBlanks (' ' :: (v ++ '\n' :: rest)) = v ++ '\n' :: rest := by
      rw [trimBlanks_space]
      refine trimBlanks_of_beginsWord fun c hc => Bool.eq_false_iff.mpr fun hb => ?_
      simp only [isBlank, Bool.or_eq_true, beq_iff_eq] at hb
      rcases hb with rfl | rfl
      · exact head?_rendered_ne hv (by decide) _ hc
      · exact head?_rendered_ne hv (by decide) _ hc
    rw [assignment?, hkey]
    simp only [Option.bind_eq_bind, Option.bind_some, hmark, hvalue, value?_rendered hv]
    rfl
  have hline : line? (line.1 ++ ' ' :: '=' :: ' ' :: (v ++ '\n' :: rest)) =
      some (.assign ⟨[], line.1⟩ line.2, '\n' :: rest) := by
    have hne : ∀ {c : Char}, isBare c = false → ∀ t,
        line.1 ++ ' ' :: '=' :: ' ' :: (v ++ '\n' :: rest) ≠ c :: t :=
      fun hc t => isBare_ne h hc _ t
    rw [line?.eq_def]
    split
    · next he => exact absurd (List.append_eq_nil_iff.mp he).1 h.1
    · next he => exact absurd he (hne (by decide) _)
    · next he => exact absurd he (hne (by decide) _)
    · next he => exact absurd he (hne (by decide) _)
    · next he => exact absurd he (hne (by decide) _)
    · next he => exact absurd he (hne (by decide) _)
    · rw [hassign]
      rfl
  rw [statement?, hwritten, htrim, hline]
  rfl

/-! ## Sections -/

/-- A statement is taken off the front of a document. -/
theorem extend_statement {d d' : Document} {w rest : Text} {s : Statement} (hw : w ≠ [])
    (hs : statement? (w ++ rest) = some (s, rest)) (hd : d.apply s = some d') :
    d.extend (w ++ rest) = d'.extend rest := by
  have hlt : rest.length < (w ++ rest).length := by
    have := List.length_pos_iff.mpr hw
    rw [List.length_append]
    omega
  rw [Document.extend, if_neg (by simp [hw]), hs]
  simp only [Option.bind_eq_bind, Option.bind_some, hd]
  rw [if_pos hlt]

/-- The keys of a table. -/
def Entries.keys (entries : Entries) : List Text := entries.map (·.1)

theorem Entries.not_mem_keys {xs ys : Entries} {p : Text × Value}
    (h : Entries.keys (xs ++ p :: ys) |>.Nodup) : p.1 ∉ xs.keys := by
  rw [keys, List.map_append, List.map_cons, List.nodup_append] at h
  exact fun hmem => h.2.2 _ hmem _ List.mem_cons_self rfl

theorem Entries.get?_append {xs : Entries} {key : Text} (h : key ∉ xs.keys) (ys : Entries) :
    Entries.get? (xs ++ ys) key = ys.get? key := by
  have hnone : List.lookup key xs = none := by
    refine List.lookup_eq_none_iff.mpr fun p hp => bne_iff_ne.mpr fun he => h ?_
    rw [he]
    exact List.mem_map_of_mem hp
  rw [get?, List.lookup_append, hnone]
  rfl

theorem Entries.put_append {xs : Entries} {key : Text} (h : key ∉ xs.keys) (v : Value)
    (ys : Entries) : Entries.put key v (xs ++ ys) = xs ++ Entries.put key v ys := by
  induction xs with
  | nil => rfl
  | cons p xs ih =>
      obtain ⟨k, old⟩ := p
      obtain ⟨hne, hxs⟩ := not_or.mp (mt List.mem_cons.mpr h)
      rw [List.cons_append, put, if_neg (Ne.symm hne), ih hxs, List.cons_append]

variable {root : Entries} {name : Text} {s : Section}

theorem addEntry_new {entries : Entries} {key : Text} (h : key ∉ entries.keys) (v : Value)
    (origin : Origin) : addEntry key v origin entries = some (entries ++ [(key, v)]) := by
  have hget : entries.get? key = none := by
    have happend := Entries.get?_append h []
    rwa [List.append_nil] at happend
  have hput : entries.put key v = entries ++ [(key, v)] := by
    have happend := Entries.put_append h v []
    rwa [List.append_nil] at happend
  rw [addEntry, hget, hput]

/-- An assignment adds an entry to the table that was opened last. -/
theorem assign_last (hname : name ∉ root.keys) {entries : Entries} {key : Text}
    (hkey : key ∉ entries.keys) (v : Value) :
    Document.assign ⟨root ++ [(name, .table .header entries)], [name]⟩ ⟨[], key⟩ v =
      some ⟨root ++ [(name, .table .header (entries ++ [(key, v)]))], [name]⟩ := by
  have hget : Entries.get? (root ++ [(name, .table .header entries)]) name =
      some (.table .header entries) := by
    rw [Entries.get?_append hname]
    exact List.lookup_cons_self
  simp only [Document.assign, Toml.assign, if_pos, within, hget, Walk.passes, addEntry_new hkey,
    Option.bind_eq_bind, Option.bind_some, Entries.put_append hname, Entries.put]
  rfl

/-- A header opens a new table behind the others. -/
theorem openTable_new (hname : name ∉ root.keys) (current : List Text) :
    Document.openTable ⟨root, current⟩ ⟨[], name⟩ =
      some ⟨root ++ [(name, .table .header [])], [name]⟩ := by
  have hget : root.get? name = none := by
    have happend := Entries.get?_append hname []
    rwa [List.append_nil] at happend
  have hput := Entries.put_append hname (.table .header []) []
  rw [List.append_nil] at hput
  simp only [Document.openTable, within, openTable, hget, hput, Entries.put, Option.bind_eq_bind,
    Option.bind_some]
  rfl

/-- A section whose name and keys need no quotes, and no key of which is given twice. -/
structure Section.IsPlain (s : Section) : Prop where
  name : IsBareKey s.name
  keys : ∀ line ∈ s.lines, IsBareKey line.1
  distinct : s.lines.keys.Nodup

/-- The lines of a section are added one after the other. -/
theorem extend_lines (hname : name ∉ root.keys) {lines : Entries} (entries : Entries)
    (hkeys : ∀ line ∈ lines, IsBareKey line.1) (hdistinct : (entries ++ lines).keys.Nodup)
    {texts : List Text} (h : lines.mapM renderLine? = some texts) (rest : Text) :
    Document.extend ⟨root ++ [(name, .table .header entries)], [name]⟩ (texts.flatten ++ rest) =
      Document.extend ⟨root ++ [(name, .table .header (entries ++ lines))], [name]⟩ rest := by
  induction lines generalizing entries texts with
  | nil =>
      cases h
      rw [List.append_nil]
      rfl
  | cons line lines ih =>
      obtain ⟨hkey, hkeys⟩ := List.forall_mem_cons.mp hkeys
      rw [List.mapM_cons] at h
      obtain ⟨w, hw, h⟩ := Option.bind_eq_some_iff.mp h
      obtain ⟨ws, hws, h⟩ := Option.bind_eq_some_iff.mp h
      cases h
      have hnew : line.1 ∉ entries.keys := Entries.not_mem_keys hdistinct
      have hne : w ≠ [] := by
        obtain ⟨v, -, rfl⟩ := Option.map_eq_some_iff.mp hw
        exact List.append_ne_nil_of_right_ne_nil _ (List.cons_ne_nil _ _)
      have hstep := extend_statement hne (statement?_line hkey hw (ws.flatten ++ rest))
        (assign_last hname hnew line.2)
      rw [List.flatten_cons, List.append_assoc, hstep, ih _ hkeys ?_ hws, List.append_assoc]
      · rfl
      · rwa [List.append_assoc]

theorem extend_section (hroot : s.name ∉ root.keys) (hs : s.IsPlain) {w : Text}
    (h : s.render? = some w) (current : List Text) (rest : Text) :
    Document.extend ⟨root, current⟩ (w ++ rest) =
      Document.extend ⟨root ++ [(s.name, .table .header s.lines)], [s.name]⟩ rest := by
  obtain ⟨texts, htexts, rfl⟩ := Option.map_eq_some_iff.mp h
  have hheader : s.header ≠ [] := List.cons_ne_nil _ _
  rw [List.append_assoc, extend_statement hheader (statement?_header hs.name _)
    (openTable_new hroot current)]
  exact extend_lines hroot [] hs.keys hs.distinct htexts rest

/-! ## Documents -/

/-- What the sections of a document are read as. -/
def tablesOf (sections : List Section) : Entries :=
  sections.map fun s => (s.name, .table .header s.lines)

theorem keys_tablesOf (sections : List Section) :
    (tablesOf sections).keys = sections.map (·.name) := by
  rw [tablesOf, Entries.keys, List.map_map]
  rfl

theorem extend_sections (root : Entries) {sections : List Section}
    (hplain : ∀ s ∈ sections, s.IsPlain) (hdistinct : (root ++ tablesOf sections).keys.Nodup)
    {texts : List Text} (h : sections.mapM Section.render? = some texts) (current : List Text) :
    (Document.extend ⟨root, current⟩ (join ['\n'] texts)).map Document.root =
      some (root ++ tablesOf sections) := by
  induction sections generalizing root texts current with
  | nil =>
      cases h
      have hnothing : join ['\n'] [].reverse = [] := rfl
      rw [hnothing, Document.extend, if_pos rfl, tablesOf, List.map_nil, List.append_nil]
      rfl
  | cons s sections ih =>
      obtain ⟨hs, hplain⟩ := List.forall_mem_cons.mp hplain
      rw [List.mapM_cons] at h
      obtain ⟨w, hw, h⟩ := Option.bind_eq_some_iff.mp h
      obtain ⟨ws, hws, h⟩ := Option.bind_eq_some_iff.mp h
      cases h
      have hnew : s.name ∉ root.keys := Entries.not_mem_keys hdistinct
      have hsplit : root ++ tablesOf (s :: sections) =
          root ++ [(s.name, .table .header s.lines)] ++ tablesOf sections := by
        rw [List.append_assoc]
        rfl
      rw [hsplit] at hdistinct ⊢
      have ih := ih _ hplain hdistinct hws [s.name]
      rw [join_cons, extend_section hnew hs hw current, ← ih]
      split
      · next hlast =>
          rw [hlast]
          rfl
      · -- An empty line stands between two sections.
        rw [extend_statement (List.cons_ne_nil _ _) (statement?_nothing _) rfl]

/-- Sections with bare names and keys, none of them twice, are read back as they were written. -/
theorem parse?_render? {sections : List Section} (hplain : ∀ s ∈ sections, s.IsPlain)
    (hdistinct : (sections.map (·.name)).Nodup) {t : Text} (h : render? sections = some t) :
    parse? t = some (tablesOf sections) := by
  obtain ⟨texts, htexts, rfl⟩ := Option.map_eq_some_iff.mp h
  have hmark : (join ['\n'] texts).head? ≠ some byteOrderMark := by
    cases sections with
    | nil =>
        cases htexts
        decide
    | cons s sections =>
        rw [List.mapM_cons] at htexts
        obtain ⟨w, hw, htexts⟩ := Option.bind_eq_some_iff.mp htexts
        obtain ⟨ws, -, htexts⟩ := Option.bind_eq_some_iff.mp htexts
        obtain ⟨lines, -, rfl⟩ := Option.map_eq_some_iff.mp hw
        cases htexts
        rw [join_cons]
        intro he
        exact absurd (Option.some.inj he) (by decide)
  rw [parse?, if_neg hmark]
  exact extend_sections [] hplain (by rwa [List.nil_append, keys_tablesOf]) htexts []

end ToolRegistry.Toml
