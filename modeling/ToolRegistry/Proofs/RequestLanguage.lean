import ToolRegistry.Proofs.PairGrammar
import ToolRegistry.Wire.Command

/-!
# The language of requests

A line is a request if its first word names a command and the rest has the form
of that command's arguments (`HasForm`). The forms are said here without the
readers: a word is what stands between blanks, an id is a word of digits with a
value in range, and a list of fields is a list of pairs that each give a field a
value.

Every reader of an argument is shown to succeed on its form and on nothing else,
with the value that the form tells, and the forms of whole commands follow one
command at a time (`parseArguments_eq_ok_iff`). What is not of the form is
refused, and then it matters in which way. Only a number in a list of fields can
be missing, for the two commands that write an entry, and only if the list as
such is well formed and nothing before the number is at fault
(`parseArguments_eq_incomplete_iff`): the syntax of all pairs is looked at before
the value of the first, and an id before any pair. Every other refusal is a bad
format.
-/

namespace ToolRegistry

/-! ## Steps that succeed and fail -/

/-- A computation that succeeds does so in all its steps. -/
theorem Except.bind_eq_ok {ε α β : Type} {x : Except ε α} {f : α → Except ε β} {b : β} :
    x >>= f = .ok b ↔ ∃ a, x = .ok a ∧ f a = .ok b := by
  constructor
  · intro h
    cases x with
    | error e => cases h
    | ok a => exact ⟨a, rfl, h⟩
  · rintro ⟨a, rfl, h⟩
    exact h

theorem Except.map_eq_ok {ε α β : Type} {f : α → β} {x : Except ε α} {b : β} :
    x.map f = .ok b ↔ ∃ a, x = .ok a ∧ f a = b := by
  cases x with
  | error e => simp [Except.map]
  | ok a => simp [Except.map]

theorem Except.map_eq_error {ε α β : Type} {f : α → β} {x : Except ε α} {e : ε} :
    x.map f = .error e ↔ x = .error e := by
  cases x with
  | error e => simp [Except.map]
  | ok a => simp [Except.map]

/-- A computation that fails does so in one of its steps. -/
theorem Except.bind_eq_error {ε α β : Type} {x : Except ε α} {f : α → Except ε β} {e : ε} :
    x >>= f = .error e ↔ x = .error e ∨ ∃ a, x = .ok a ∧ f a = .error e := by
  constructor
  · intro h
    cases x with
    | error _ =>
        cases h
        exact .inl rfl
    | ok a => exact .inr ⟨a, rfl, h⟩
  · rintro (rfl | ⟨a, rfl, h⟩)
    · rfl
    · exact h

namespace Wire

open Text Decimal

/-! ## Words and numbers -/

/-- The first word of a text and what follows it. There is no word in a text of blanks. -/
inductive FirstWord : Text → Text → Text → Prop
  | intro {blanks word rest : Text} (hblanks : IsBlanks blanks)
      (hword : ∀ c ∈ word, isBlank c = false) (hend : EndsWord rest)
      (hnone : word = [] → rest = []) : FirstWord (blanks ++ word ++ rest) word rest

theorem splitToken_eq_iff {t word rest : Text} :
    splitToken t = (word, rest) ↔ FirstWord t word rest := by
  constructor
  · intro h
    cases h
    obtain ⟨blanks, hblanks, ht⟩ := exists_blanks t
    have hword : ∀ c ∈ t.trimBlanks.untilBlank, isBlank c = false := fun c hc => by
      have hc : (!isBlank c) = true := List.all_eq_true.mp List.all_takeWhile c hc
      simpa using hc
    have hnone : t.trimBlanks.untilBlank = [] → t.trimBlanks.fromBlank = [] := fun hnil => by
      rw [eq_nil_of_untilBlank (beginsWord_trimBlanks t) hnil]
      rfl
    have hfirst := FirstWord.intro hblanks hword (endsWord_fromBlank _) hnone
    rwa [List.append_assoc, untilBlank_append_fromBlank, ← ht] at hfirst
  · rintro ⟨hblanks, hword, hend, hnone⟩
    rw [List.append_assoc, splitToken, trimBlanks_append hblanks]
    by_cases hne : word = []
    · rw [hne, hnone hne]
      rfl
    · rw [trimBlanks_of_beginsWord (beginsWord_append hne hword rest), untilBlank_append hword hend,
        fromBlank_append hword hend]

/-- A text whose first word is a number above zero that fits in `bits` bits, as an id and a
position are. -/
def BeginsWithNumber (bits : Nat) (t : Text) (n : Nat) (rest : Text) : Prop :=
  ∃ word, FirstWord t word rest ∧ IsNumeral word n ∧ 1 ≤ n ∧ n < 2 ^ bits

theorem beginsWithNumber_iff {bits n : Nat} {t rest : Text} :
    BeginsWithNumber bits t n rest ↔
      positive? bits (splitToken t).1 = some n ∧ (splitToken t).2 = rest := by
  rw [positive?_eq_some_iff]
  constructor
  · rintro ⟨word, hfirst, hn⟩
    rw [splitToken_eq_iff.mpr hfirst]
    exact ⟨hn, rfl⟩
  · rintro ⟨hn, rfl⟩
    exact ⟨_, splitToken_eq_iff.mp rfl, hn⟩

theorem takeId_eq_ok_iff {kind : CommandKind} {t rest : Text} {id : EntryId} :
    takeId kind t = .ok (id, rest) ↔ BeginsWithNumber 32 t id.toNat rest := by
  rw [beginsWithNumber_iff]
  simp only [takeId]
  constructor
  · intro h
    split at h
    · next n hn =>
        cases h
        have hlt := (positive?_eq_some_iff.mp hn).2.2
        rw [UInt32.toNat_ofNat', Nat.mod_eq_of_lt hlt]
        exact ⟨hn, rfl⟩
    · cases h
  · rintro ⟨hn, rfl⟩
    rw [hn]
    simp only [UInt32.ofNat_toNat]

theorem takePos_eq_ok_iff {kind : CommandKind} {t : Text} {pos : UInt64} :
    takePos kind t = .ok pos ↔ ∃ rest, BeginsWithNumber 64 t pos.toNat rest := by
  simp only [beginsWithNumber_iff, takePos]
  constructor
  · intro h
    split at h
    · next n hn =>
        cases h
        have hlt := (positive?_eq_some_iff.mp hn).2.2
        rw [UInt64.toNat_ofNat', Nat.mod_eq_of_lt hlt]
        exact ⟨_, hn, rfl⟩
    · cases h
  · rintro ⟨rest, hn, -⟩
    rw [hn]
    simp only [UInt64.ofNat_toNat]

/-! ## Refusals -/

/-- The command that a refusal is about, if the line names one. -/
def CommandError.kind? : CommandError → Option CommandKind
  | .unknown _ => none
  | .badFormat kind _ | .incomplete kind _ => some kind

variable {kind : CommandKind} {t : Text} {e : CommandError}

theorem takeId_refused (h : takeId kind t = .error e) : ∃ r, e = .badFormat kind r := by
  simp only [takeId] at h
  split at h <;> cases h
  exact ⟨_, rfl⟩

theorem takePos_refused (h : takePos kind t = .error e) : ∃ r, e = .badFormat kind r := by
  simp only [takePos] at h
  split at h <;> cases h
  exact ⟨_, rfl⟩

theorem takeText_refused (h : takeText kind t = .error e) : ∃ r, e = .badFormat kind r := by
  rw [takeText] at h
  split at h <;> cases h
  exact ⟨_, rfl⟩

theorem takeFields_eq_error_iff :
    takeFields kind t = .error e ↔ ∃ g, parseFieldSet t = .error g ∧ e = pairsError kind g := by
  rw [takeFields]
  cases parseFieldSet t with
  | ok s => simp
  | error g => simp [eq_comm]

theorem takeFields_refused (h : takeFields kind t = .error e) : e.kind? = some kind := by
  obtain ⟨g, -, rfl⟩ := takeFields_eq_error_iff.mp h
  rw [pairsError]
  split <;> rfl

/-- Once a line names a command, a refusal is about that command. -/
theorem parseArguments_refused (h : Command.parseArguments kind t = .error e) :
    e.kind? = some kind := by
  cases kind with
  | quit | help | list | clean => cases h
  | create | search =>
      rcases Except.bind_eq_error.mp h with h | ⟨_, -, h⟩
      · exact takeFields_refused h
      · cases h
  | change =>
      rcases Except.bind_eq_error.mp h with h | ⟨_, -, h⟩
      · obtain ⟨r, rfl⟩ := takeId_refused h
        rfl
      · rcases Except.bind_eq_error.mp h with h | ⟨_, -, h⟩
        · exact takeFields_refused h
        · cases h
  | delete | fetch | listStrings | countStrings =>
      rcases Except.bind_eq_error.mp h with h | ⟨_, -, h⟩
      · obtain ⟨r, rfl⟩ := takeId_refused h
        rfl
      · cases h
  | addString =>
      rcases Except.bind_eq_error.mp h with h | ⟨_, -, h⟩
      · obtain ⟨r, rfl⟩ := takeId_refused h
        rfl
      · rcases Except.bind_eq_error.mp h with h | ⟨_, -, h⟩
        · obtain ⟨r, rfl⟩ := takeText_refused h
          rfl
        · cases h
  | getString | deleteString =>
      rcases Except.bind_eq_error.mp h with h | ⟨_, -, h⟩
      · obtain ⟨r, rfl⟩ := takeId_refused h
        rfl
      · rcases Except.bind_eq_error.mp h with h | ⟨_, -, h⟩
        · obtain ⟨r, rfl⟩ := takePos_refused h
          rfl
        · cases h

theorem parseArguments_ne_unknown {token : Text} :
    Command.parseArguments kind t ≠ .error (.unknown token) :=
  fun h => by cases parseArguments_refused h

/-! ## Fields and texts -/

/-- A list of pairs that each give a field a value, and the set that they give. -/
def IsFieldList (t : Text) (s : FieldSet) : Prop :=
  ∃ pairs, IsPairList t pairs ∧ (∀ p ∈ pairs, GivesField p) ∧ IsGivenBy s pairs

/-- A list of pairs whose first fault is a value that is no number where one is wanted. -/
def LacksNumber (t key value : Text) : Prop :=
  ∃ before behind, IsPairList t (before ++ (key, value) :: behind) ∧
    (∀ p ∈ before, GivesField p) ∧
    ∃ f : Field, f.name = key ∧ f.isNumeric = true ∧ ∀ n : Int32, ¬IsDecimal value.trim n.toInt

/-- The text argument at the front of a text: quoted and closed, or one word. -/
inductive IsTextArgument : Text → Text → Prop
  | quoted {blanks v rest : Text} (hblanks : IsBlanks blanks) (hne : v ≠ []) (hv : '"' ∉ v) :
      IsTextArgument (blanks ++ quote v ++ rest) v
  | bare {t word rest : Text} (hword : FirstWord t word rest) (hne : word ≠ [])
      (hquote : word.head? ≠ some '"') : IsTextArgument t word

theorem parseFieldSet_eq_ok_iff {t : Text} {s : FieldSet} :
    parseFieldSet t = .ok s ↔ IsFieldList t s := by
  constructor
  · intro h
    rw [parseFieldSet] at h
    split at h
    · cases h
    · next pairs hpairs =>
        obtain ⟨hgives, hgiven⟩ := givePairs_eq_ok_iff.mp h
        exact ⟨pairs, isPairList_of_parsePairs hpairs, hgives, hgiven⟩
  · rintro ⟨pairs, hpairs, hgives, hgiven⟩
    rw [parseFieldSet_of_isPairList hpairs]
    exact givePairs_eq_ok_iff.mpr ⟨hgives, hgiven⟩

theorem takePair_ne_invalidNumber {t key value : Text} :
    takePair t ≠ .error (.invalidNumber key value) := by
  intro h
  rw [takePair] at h
  split at h
  · next hkey =>
      cases h
      simp only [takeKey] at hkey
      split at hkey
      · cases hkey
      · split at hkey
        · cases hkey
        · split at hkey <;> cases hkey
  · split at h
    · next hvalue =>
        cases h
        rw [takeValue.eq_def] at hvalue
        split at hvalue
        · rw [takeQuoted] at hvalue
          split at hvalue <;> cases hvalue
        · split at hvalue <;> cases hvalue
    · cases h

/-- The reader of pairs does not look at what the values say. -/
theorem parsePairs_ne_invalidNumber {t key value : Text} :
    parsePairs t ≠ .error (.invalidNumber key value) := by
  intro h
  induction t using parsePairs.induct with
  | case1 t hnil =>
      rw [parsePairs.eq_def, if_pos hnil] at h
      cases h
  | case2 t hne e he =>
      rw [parsePairs.eq_def, if_neg hne, he] at h
      cases h
      exact takePair_ne_invalidNumber he
  | case3 t hne pair rest hpair e he ih =>
      rw [parsePairs.eq_def, if_neg hne, hpair] at h
      simp only [he] at h
      cases h
      exact ih he
  | case4 t hne pair rest hpair more hmore ih =>
      rw [parsePairs.eq_def, if_neg hne, hpair] at h
      simp only [hmore] at h
      cases h

theorem parseFieldSet_eq_invalidNumber_iff {t key value : Text} :
    parseFieldSet t = .error (.invalidNumber key value) ↔ LacksNumber t key value := by
  constructor
  · intro h
    rw [parseFieldSet] at h
    split at h
    · next hpairs =>
        cases h
        exact absurd hpairs parsePairs_ne_invalidNumber
    · next pairs hpairs =>
        obtain ⟨before, pair, behind, rfl, hgives, hfault⟩ := givePairs_eq_error_iff.mp h
        cases hfault with
        | invalidNumber hf hn hdecimal =>
            exact ⟨before, behind, isPairList_of_parsePairs hpairs, hgives, _, hf, hn, hdecimal⟩
  · rintro ⟨before, behind, hpairs, hgives, f, hf, hn, hdecimal⟩
    rw [parseFieldSet_of_isPairList hpairs]
    exact givePairs_eq_error_iff.mpr
      ⟨before, (key, value), behind, rfl, hgives, .invalidNumber hf hn hdecimal⟩

theorem takeFields_eq_ok_iff {kind : CommandKind} {t : Text} {s : FieldSet} :
    takeFields kind t = .ok s ↔ IsFieldList t s := by
  rw [← parseFieldSet_eq_ok_iff, takeFields]
  cases parseFieldSet t <;> simp

theorem takeFields_eq_incomplete_iff {kind k : CommandKind} {t : Text} {r : ArgumentError} :
    takeFields kind t = .error (.incomplete k r) ↔ k = kind ∧ kind ≠ .search ∧
      ∃ key value, r = .grammar (.invalidNumber key value) ∧ LacksNumber t key value := by
  rw [takeFields_eq_error_iff]
  constructor
  · rintro ⟨g, hg, he⟩
    rw [pairsError] at he
    split at he
    · next hinvalid =>
        cases he
        cases g with
        | invalidNumber key value =>
            exact ⟨rfl, hinvalid.2, key, value, rfl, parseFieldSet_eq_invalidNumber_iff.mp hg⟩
        | _ => cases hinvalid.1
    · cases he
  · rintro ⟨rfl, hkind, key, value, rfl, hlacks⟩
    refine ⟨_, parseFieldSet_eq_invalidNumber_iff.mpr hlacks, ?_⟩
    rw [pairsError, if_pos ⟨rfl, hkind⟩]

theorem nonEmpty_eq_ok_iff {t u : Text} : nonEmpty t = .ok u ↔ u = t ∧ u ≠ [] := by
  rw [nonEmpty]
  split
  · next hnil => simp [hnil]
  · next hne =>
      constructor
      · rintro ⟨⟩
        exact ⟨rfl, hne⟩
      · rintro ⟨rfl, -⟩
        rfl

theorem trimBlanks_quote {blanks : Text} (hblanks : IsBlanks blanks) (u rest : Text) :
    trimBlanks (blanks ++ quote u ++ rest) = '"' :: (u ++ '"' :: rest) := by
  rw [List.append_assoc, trimBlanks_append hblanks, quote, List.append_assoc, List.cons_append,
    List.singleton_append]
  rfl

theorem parseTextArgument_eq_ok_iff {t u : Text} :
    parseTextArgument t = .ok u ↔ IsTextArgument t u := by
  obtain ⟨blanks, hblanks, ht⟩ := exists_blanks t
  constructor
  · intro h
    rw [parseTextArgument] at h
    split at h
    · next rest hrest =>
        split at h
        · cases h
        · next v left hquoted =>
            obtain ⟨rfl, hne⟩ := nonEmpty_eq_ok_iff.mp h
            obtain ⟨hv, rfl⟩ := takeQuoted_eq_ok hquoted
            have htext : IsTextArgument (_ ++ quote _ ++ left) _ := .quoted hblanks hne hv
            rwa [quote, List.append_assoc, List.append_assoc, List.cons_append,
              List.singleton_append, ← hrest, ← ht] at htext
    · next hbare =>
        obtain ⟨rfl, hne⟩ := nonEmpty_eq_ok_iff.mp h
        refine .bare (splitToken_eq_iff.mp rfl) hne fun hhead => ?_
        obtain ⟨rest, hrest⟩ := (head?_splitToken t).mp hhead
        exact hbare rest hrest
  · intro h
    cases h with
    | quoted hblanks hne hv =>
        rw [parseTextArgument, trimBlanks_quote hblanks]
        simp only [takeQuoted_append hv]
        exact nonEmpty_eq_ok_iff.mpr ⟨rfl, hne⟩
    | bare hword hne hquote =>
        have hsplit := splitToken_eq_iff.mpr hword
        have hu : t.trimBlanks.untilBlank = u := congrArg Prod.fst hsplit
        rw [parseTextArgument]
        split
        · next rest hrest =>
            rw [hrest] at hu
            exact absurd (hu ▸ rfl) hquote
        · exact nonEmpty_eq_ok_iff.mpr ⟨hu.symm, hne⟩

theorem takeText_eq_ok_iff {kind : CommandKind} {t u : Text} :
    takeText kind t = .ok u ↔ IsTextArgument t u := by
  rw [← parseTextArgument_eq_ok_iff, takeText]
  cases parseTextArgument t <;> simp

/-! ## Names -/

/-- A word names a command: by the command's own name, or by the second name for deleting an
entry. The case of ASCII letters makes no difference. -/
def CommandKind.IsNamedBy (kind : CommandKind) (word : Text) : Prop :=
  kind.name.sameIgnoringCase word = true ∨
    kind = .delete ∧ CommandKind.deleteAlias.sameIgnoringCase word = true

theorem ofToken?_congr {word other : Text} (h : word.lowerAscii = other.lowerAscii) :
    CommandKind.ofToken? word = CommandKind.ofToken? other := by
  unfold CommandKind.ofToken? Text.sameIgnoringCase
  rw [h]

theorem ofToken?_eq_some_iff {word : Text} {kind : CommandKind} :
    CommandKind.ofToken? word = some kind ↔ kind.IsNamedBy word := by
  constructor
  · intro h
    rw [CommandKind.ofToken?] at h
    split at h
    · next halias =>
        cases h
        have halias := beq_iff_eq.mp halias
        exact .inr ⟨rfl, beq_iff_eq.mpr halias.symm⟩
    · have hname := List.find?_some h
      exact .inl (by simpa using hname)
  · rintro (hname | ⟨rfl, halias⟩)
    · rw [← ofToken?_congr (beq_iff_eq.mp hname), CommandKind.ofToken?_name]
    · rw [← ofToken?_congr (beq_iff_eq.mp halias)]
      rfl

/-! ## Commands -/

/-- The arguments of a command, and the command that they make. -/
inductive HasForm : CommandKind → Text → Command → Prop
  | quit {t : Text} : HasForm .quit t .quit
  | help {t : Text} : HasForm .help t .help
  | list {t : Text} : HasForm .list t .list
  | clean {t : Text} : HasForm .clean t .clean
  | create {t : Text} {s : FieldSet} (hs : IsFieldList t s) : HasForm .create t (.create s)
  | search {t : Text} {s : FieldSet} (hs : IsFieldList t s) : HasForm .search t (.search s)
  | change {t rest : Text} {id : EntryId} {s : FieldSet}
      (hid : BeginsWithNumber 32 t id.toNat rest) (hs : IsFieldList rest s) :
      HasForm .change t (.change id s)
  | delete {t rest : Text} {id : EntryId} (hid : BeginsWithNumber 32 t id.toNat rest) :
      HasForm .delete t (.delete id)
  | fetch {t rest : Text} {id : EntryId} (hid : BeginsWithNumber 32 t id.toNat rest) :
      HasForm .fetch t (.fetch id)
  | listStrings {t rest : Text} {id : EntryId} (hid : BeginsWithNumber 32 t id.toNat rest) :
      HasForm .listStrings t (.listStrings id)
  | countStrings {t rest : Text} {id : EntryId} (hid : BeginsWithNumber 32 t id.toNat rest) :
      HasForm .countStrings t (.countStrings id)
  | addString {t rest text : Text} {id : EntryId} (hid : BeginsWithNumber 32 t id.toNat rest)
      (htext : IsTextArgument rest text) : HasForm .addString t (.addString id text)
  | getString {t rest rest' : Text} {id : EntryId} {pos : UInt64}
      (hid : BeginsWithNumber 32 t id.toNat rest)
      (hpos : BeginsWithNumber 64 rest pos.toNat rest') : HasForm .getString t (.getString id pos)
  | deleteString {t rest rest' : Text} {id : EntryId} {pos : UInt64}
      (hid : BeginsWithNumber 32 t id.toNat rest)
      (hpos : BeginsWithNumber 64 rest pos.toNat rest') :
      HasForm .deleteString t (.deleteString id pos)

theorem HasForm.kind_eq {kind : CommandKind} {t : Text} {c : Command} (h : HasForm kind t c) :
    c.kind = kind := by
  cases h <;> rfl

/-- Arguments that are well formed but lack a number, for a command that writes an entry. -/
inductive IsIncomplete : CommandKind → Text → Text → Text → Prop
  | create {t key value : Text} (h : LacksNumber t key value) : IsIncomplete .create t key value
  | change {t rest key value : Text} {id : EntryId} (hid : BeginsWithNumber 32 t id.toNat rest)
      (h : LacksNumber rest key value) : IsIncomplete .change t key value

theorem parseArguments_eq_ok_iff {kind : CommandKind} {t : Text} {c : Command} :
    Command.parseArguments kind t = .ok c ↔ HasForm kind t c := by
  constructor
  · intro h
    cases kind with
    | quit => cases h; exact .quit
    | help => cases h; exact .help
    | list => cases h; exact .list
    | clean => cases h; exact .clean
    | create =>
        obtain ⟨s, hs, hc⟩ := Except.bind_eq_ok.mp h
        cases hc
        exact .create (takeFields_eq_ok_iff.mp hs)
    | search =>
        obtain ⟨s, hs, hc⟩ := Except.bind_eq_ok.mp h
        cases hc
        exact .search (takeFields_eq_ok_iff.mp hs)
    | change =>
        obtain ⟨⟨id, rest⟩, hid, h⟩ := Except.bind_eq_ok.mp h
        obtain ⟨s, hs, hc⟩ := Except.bind_eq_ok.mp h
        cases hc
        exact .change (takeId_eq_ok_iff.mp hid) (takeFields_eq_ok_iff.mp hs)
    | delete =>
        obtain ⟨⟨id, rest⟩, hid, hc⟩ := Except.bind_eq_ok.mp h
        cases hc
        exact .delete (takeId_eq_ok_iff.mp hid)
    | fetch =>
        obtain ⟨⟨id, rest⟩, hid, hc⟩ := Except.bind_eq_ok.mp h
        cases hc
        exact .fetch (takeId_eq_ok_iff.mp hid)
    | listStrings =>
        obtain ⟨⟨id, rest⟩, hid, hc⟩ := Except.bind_eq_ok.mp h
        cases hc
        exact .listStrings (takeId_eq_ok_iff.mp hid)
    | countStrings =>
        obtain ⟨⟨id, rest⟩, hid, hc⟩ := Except.bind_eq_ok.mp h
        cases hc
        exact .countStrings (takeId_eq_ok_iff.mp hid)
    | addString =>
        obtain ⟨⟨id, rest⟩, hid, h⟩ := Except.bind_eq_ok.mp h
        obtain ⟨u, hu, hc⟩ := Except.bind_eq_ok.mp h
        cases hc
        exact .addString (takeId_eq_ok_iff.mp hid) (takeText_eq_ok_iff.mp hu)
    | getString =>
        obtain ⟨⟨id, rest⟩, hid, h⟩ := Except.bind_eq_ok.mp h
        obtain ⟨pos, hpos, hc⟩ := Except.bind_eq_ok.mp h
        cases hc
        obtain ⟨rest', hpos⟩ := takePos_eq_ok_iff.mp hpos
        exact .getString (takeId_eq_ok_iff.mp hid) hpos
    | deleteString =>
        obtain ⟨⟨id, rest⟩, hid, h⟩ := Except.bind_eq_ok.mp h
        obtain ⟨pos, hpos, hc⟩ := Except.bind_eq_ok.mp h
        cases hc
        obtain ⟨rest', hpos⟩ := takePos_eq_ok_iff.mp hpos
        exact .deleteString (takeId_eq_ok_iff.mp hid) hpos
  · intro h
    cases h with
    | quit | help | list | clean => rfl
    | create hs | search hs =>
        exact Except.bind_eq_ok.mpr ⟨_, takeFields_eq_ok_iff.mpr hs, rfl⟩
    | change hid hs =>
        exact Except.bind_eq_ok.mpr ⟨_, takeId_eq_ok_iff.mpr hid,
          Except.bind_eq_ok.mpr ⟨_, takeFields_eq_ok_iff.mpr hs, rfl⟩⟩
    | delete hid | fetch hid | listStrings hid | countStrings hid =>
        exact Except.bind_eq_ok.mpr ⟨_, takeId_eq_ok_iff.mpr hid, rfl⟩
    | addString hid htext =>
        exact Except.bind_eq_ok.mpr ⟨_, takeId_eq_ok_iff.mpr hid,
          Except.bind_eq_ok.mpr ⟨_, takeText_eq_ok_iff.mpr htext, rfl⟩⟩
    | getString hid hpos | deleteString hid hpos =>
        exact Except.bind_eq_ok.mpr ⟨_, takeId_eq_ok_iff.mpr hid,
          Except.bind_eq_ok.mpr ⟨_, takePos_eq_ok_iff.mpr ⟨_, hpos⟩, rfl⟩⟩

/-- A reader whose refusals are all bad formats does not find data incomplete. -/
theorem ne_incomplete {kind k : CommandKind} {e : CommandError} {r : ArgumentError}
    (h : ∃ r, e = .badFormat kind r) : e ≠ .incomplete k r := by
  obtain ⟨r', rfl⟩ := h
  exact fun he => by cases he

theorem parseArguments_eq_incomplete_iff {kind k : CommandKind} {t : Text} {r : ArgumentError} :
    Command.parseArguments kind t = .error (.incomplete k r) ↔ k = kind ∧
      ∃ key value, r = .grammar (.invalidNumber key value) ∧ IsIncomplete kind t key value := by
  constructor
  · intro h
    cases kind with
    | quit | help | list | clean => cases h
    | create =>
        rcases Except.bind_eq_error.mp h with h | ⟨_, -, h⟩
        · obtain ⟨rfl, -, key, value, hr, hlacks⟩ := takeFields_eq_incomplete_iff.mp h
          exact ⟨rfl, key, value, hr, .create hlacks⟩
        · cases h
    | search =>
        rcases Except.bind_eq_error.mp h with h | ⟨_, -, h⟩
        · exact absurd rfl (takeFields_eq_incomplete_iff.mp h).2.1
        · cases h
    | change =>
        rcases Except.bind_eq_error.mp h with h | ⟨⟨id, rest⟩, hid, h⟩
        · exact absurd rfl (ne_incomplete (takeId_refused h))
        · rcases Except.bind_eq_error.mp h with h | ⟨_, -, h⟩
          · obtain ⟨rfl, -, key, value, hr, hlacks⟩ := takeFields_eq_incomplete_iff.mp h
            exact ⟨rfl, key, value, hr, .change (takeId_eq_ok_iff.mp hid) hlacks⟩
          · cases h
    | delete | fetch | listStrings | countStrings =>
        rcases Except.bind_eq_error.mp h with h | ⟨_, -, h⟩
        · exact absurd rfl (ne_incomplete (takeId_refused h))
        · cases h
    | addString =>
        rcases Except.bind_eq_error.mp h with h | ⟨_, -, h⟩
        · exact absurd rfl (ne_incomplete (takeId_refused h))
        · rcases Except.bind_eq_error.mp h with h | ⟨_, -, h⟩
          · exact absurd rfl (ne_incomplete (takeText_refused h))
          · cases h
    | getString | deleteString =>
        rcases Except.bind_eq_error.mp h with h | ⟨_, -, h⟩
        · exact absurd rfl (ne_incomplete (takeId_refused h))
        · rcases Except.bind_eq_error.mp h with h | ⟨_, -, h⟩
          · exact absurd rfl (ne_incomplete (takePos_refused h))
          · cases h
  · rintro ⟨rfl, key, value, rfl, h⟩
    cases h with
    | create hlacks =>
        exact Except.bind_eq_error.mpr (.inl (takeFields_eq_incomplete_iff.mpr
          ⟨rfl, by decide, key, value, rfl, hlacks⟩))
    | change hid hlacks =>
        exact Except.bind_eq_error.mpr (.inr ⟨_, takeId_eq_ok_iff.mpr hid,
          Except.bind_eq_error.mpr (.inl (takeFields_eq_incomplete_iff.mpr
            ⟨rfl, by decide, key, value, rfl, hlacks⟩))⟩)

/-- Arguments are of the form, or incomplete, or malformed, and never two of these. -/
theorem parseArguments_eq_badFormat_iff {kind k : CommandKind} {t : Text} :
    (∃ r, Command.parseArguments kind t = .error (.badFormat k r)) ↔ k = kind ∧
      (∀ c, ¬HasForm kind t c) ∧ ∀ key value, ¬IsIncomplete kind t key value := by
  constructor
  · rintro ⟨r, h⟩
    have hkind := parseArguments_refused h
    refine ⟨Option.some.inj hkind, fun c hc => ?_, fun key value hi => ?_⟩
    · rw [parseArguments_eq_ok_iff.mpr hc] at h
      cases h
    · rw [parseArguments_eq_incomplete_iff.mpr ⟨rfl, key, value, rfl, hi⟩] at h
      cases h
  · rintro ⟨rfl, hform, hcomplete⟩
    cases h : Command.parseArguments k t with
    | ok c => exact absurd (parseArguments_eq_ok_iff.mp h) (hform c)
    | error e =>
        have hkind := parseArguments_refused h
        cases e with
        | unknown token => cases hkind
        | badFormat k' r =>
            cases hkind
            exact ⟨r, rfl⟩
        | incomplete k' r =>
            obtain ⟨-, key, value, -, hi⟩ := parseArguments_eq_incomplete_iff.mp h
            exact absurd hi (hcomplete key value)

/-! ## Lines -/

theorem parse_named {line word rest : Text} {kind : CommandKind} (hfirst : FirstWord line word rest)
    (hkind : kind.IsNamedBy word) : Command.parse line = Command.parseArguments kind rest := by
  simp only [Command.parse, splitToken_eq_iff.mpr hfirst, ofToken?_eq_some_iff.mpr hkind]

theorem parse_unnamed {line word rest : Text} (hfirst : FirstWord line word rest)
    (hkind : ∀ kind : CommandKind, ¬kind.IsNamedBy word) :
    Command.parse line = .error (.unknown word) := by
  have hnone : CommandKind.ofToken? word = none :=
    Option.eq_none_iff_forall_ne_some.mpr fun kind h => hkind kind (ofToken?_eq_some_iff.mp h)
  simp only [Command.parse, splitToken_eq_iff.mpr hfirst, hnone]

theorem parse_eq_ok_iff {line : Text} {c : Command} :
    Command.parse line = .ok c ↔ ∃ word rest kind, FirstWord line word rest ∧
      CommandKind.IsNamedBy kind word ∧ HasForm kind rest c := by
  constructor
  · intro h
    have hfirst : FirstWord line (splitToken line).1 (splitToken line).2 := splitToken_eq_iff.mp rfl
    simp only [Command.parse] at h
    split at h
    · cases h
    · next kind hkind =>
        exact ⟨_, _, kind, hfirst, ofToken?_eq_some_iff.mp hkind, parseArguments_eq_ok_iff.mp h⟩
  · rintro ⟨word, rest, kind, hfirst, hkind, hform⟩
    rw [parse_named hfirst hkind]
    exact parseArguments_eq_ok_iff.mpr hform

/-- What becomes of a line is told by its first word and the form of the rest. -/
theorem parse_classified (line : Text) :
    (∃ word rest, FirstWord line word rest) ∧ ∀ word rest, FirstWord line word rest →
      (∀ token, Command.parse line = .error (.unknown token) ↔
        token = word ∧ ∀ kind : CommandKind, ¬kind.IsNamedBy word) ∧
      ∀ kind : CommandKind, kind.IsNamedBy word →
        (∀ c, Command.parse line = .ok c ↔ HasForm kind rest c) ∧
        (∀ k r, Command.parse line = .error (.incomplete k r) ↔ k = kind ∧
          ∃ key value, r = .grammar (.invalidNumber key value) ∧
            IsIncomplete kind rest key value) ∧
        ∀ k, (∃ r, Command.parse line = .error (.badFormat k r)) ↔ k = kind ∧
          (∀ c, ¬HasForm kind rest c) ∧ ∀ key value, ¬IsIncomplete kind rest key value := by
  refine ⟨⟨_, _, splitToken_eq_iff.mp rfl⟩, fun word rest hfirst => ⟨fun token => ?_, ?_⟩⟩
  · constructor
    · intro h
      by_cases hkind : ∀ kind : CommandKind, ¬kind.IsNamedBy word
      · rw [parse_unnamed hfirst hkind] at h
        cases h
        exact ⟨rfl, hkind⟩
      · obtain ⟨kind, hkind⟩ := not_forall_not.mp hkind
        rw [parse_named hfirst hkind] at h
        exact absurd h parseArguments_ne_unknown
    · rintro ⟨rfl, hkind⟩
      exact parse_unnamed hfirst hkind
  · intro kind hkind
    rw [parse_named hfirst hkind]
    exact ⟨fun _ => parseArguments_eq_ok_iff, fun _ _ => parseArguments_eq_incomplete_iff,
      fun _ => parseArguments_eq_badFormat_iff⟩

/-- A change of a field to what is no number lacks data, in whatever case the command is written
and although an unknown key comes later. The same list is no form at all for a search. -/
theorem parse_classified_change :
    let fields : Text := " tag=h port=x9 color=1"
    let line : Text := "\tchange 007" ++ fields
    IsIncomplete .change (" 007" ++ fields) "port" "x9" ∧
      Command.parse line = .error (.incomplete .change (.grammar (.invalidNumber "port" "x9"))) ∧
      ∃ r, Command.parse ("Search" ++ fields) = .error (.badFormat .search r) := by
  intro fields line
  have hpairs : IsPairList fields [("tag", "h"), ("port", "x9"), ("color", "1")] := by
    have hwithin : parsePairsWithin 30 fields =
        some (.ok [("tag", "h"), ("port", "x9"), ("color", "1")]) := by decide +kernel
    rw [parsePairsWithin_eq (by decide)] at hwithin
    exact parsePairs_eq_ok_iff.mp (Option.some.inj hwithin)
  have hlacks : LacksNumber fields "port" "x9" :=
    parseFieldSet_eq_invalidNumber_iff.mp (by
      rw [parseFieldSet_of_isPairList hpairs]
      decide +kernel)
  have hid : BeginsWithNumber 32 (" 007" ++ fields) (7 : EntryId).toNat fields :=
    takeId_eq_ok_iff.mp (by decide +kernel : takeId .change _ = .ok (7, fields))
  have hincomplete : IsIncomplete .change (" 007" ++ fields) "port" "x9" := .change hid hlacks
  obtain ⟨-, hchange⟩ := parse_classified line
  have hfirst : FirstWord line "change" (" 007" ++ fields) :=
    splitToken_eq_iff.mp (by decide +kernel)
  obtain ⟨-, hchange⟩ := hchange _ _ hfirst
  obtain ⟨-, hchange, -⟩ := hchange .change (.inl (by decide +kernel))
  obtain ⟨-, hsearch⟩ := parse_classified ("Search" ++ fields)
  have hfirst : FirstWord ("Search" ++ fields) "Search" fields :=
    splitToken_eq_iff.mp (by decide +kernel)
  obtain ⟨-, hsearch⟩ := hsearch _ _ hfirst
  obtain ⟨-, -, hsearch⟩ := hsearch .search (.inl (by decide +kernel))
  refine ⟨hincomplete, (hchange .change _).mpr ⟨rfl, _, _, rfl, hincomplete⟩,
    (hsearch .search).mpr ⟨rfl, fun c hc => ?_, fun key value hi => by cases hi⟩⟩
  cases hc with
  | search hs =>
      rw [← parseFieldSet_eq_ok_iff, parseFieldSet_eq_invalidNumber_iff.mpr hlacks] at hs
      cases hs

end Wire

end ToolRegistry
