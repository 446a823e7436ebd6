import ToolRegistry.Entry.Fields
import ToolRegistry.Proofs.Utf8
import ToolRegistry.Wire.Command
import ToolRegistry.Wire.Template

/-!
# Numbers that are written are read back

Every number on the wire is written by `ofNat` or `ofInt` and read by one of
the bounded readers. The written form holds nothing but digits, with a minus
sign in front at most, which is why it survives whatever is around it: it
begins with no plus sign, it ends where something else than a digit begins,
and there is no white space to trim.

The last section is about written numbers that have lost digits at their end.
What is left is a number again, and always a smaller one, because the first
digit of a number with more than one digit is not zero.
-/

namespace ToolRegistry.Decimal

/-! ## The characters of a number -/

theorem ofNat_ne_nil (n : Nat) : ofNat n ≠ [] := Nat.toDigits_ne_nil

theorem ofInt_ne_nil (i : Int) : ofInt i ≠ [] := by
  cases i with
  | ofNat n => exact ofNat_ne_nil n
  | negSucc n => exact List.cons_ne_nil _ _

/-- Only digits and the minus sign occur in a written number. -/
theorem mem_ofInt {i : Int} {c : Char} (h : c ∈ ofInt i) : c = '-' ∨ c.isDigit = true := by
  cases i with
  | ofNat n => exact .inr (isDigit_of_mem_ofNat h)
  | negSucc n =>
      rcases List.mem_cons.mp h with h | h
      · exact .inl h
      · exact .inr (isDigit_of_mem_ofNat h)

/-- A digit lies between `0` and `9`. -/
theorem toNat_of_isDigit {c : Char} (h : c.isDigit = true) : 48 ≤ c.toNat ∧ c.toNat ≤ 57 := by
  simp only [Char.isDigit, Bool.and_eq_true, decide_eq_true_eq, ge_iff_le] at h
  exact ⟨h.1, h.2⟩

/-! ## Reading back -/

theorem nat?_of_digits {t : Text} (h : ∀ c ∈ t, c.isDigit = true) : nat? t = digits? t := by
  cases t with
  | nil => rfl
  | cons c t =>
      have hc := h c List.mem_cons_self
      rw [nat?]
      rintro rest he
      rw [List.cons.injEq] at he
      rw [he.1] at hc
      exact absurd hc (by decide)

theorem nat?_ofNat (n : Nat) : nat? (ofNat n) = some n := by
  rw [nat?_of_digits fun _ => isDigit_of_mem_ofNat, digits?_ofNat]

theorem int?_of_digits {t : Text} (h : ∀ c ∈ t, c.isDigit = true) :
    int? t = (digits? t).map Int.ofNat := by
  cases t with
  | nil => rfl
  | cons c t =>
      have hc := h c List.mem_cons_self
      rw [int?, nat?_of_digits h]
      rintro rest he
      rw [List.cons.injEq] at he
      rw [he.1] at hc
      exact absurd hc (by decide)

theorem int?_ofInt (i : Int) : int? (ofInt i) = some i := by
  cases i with
  | ofNat n =>
      rw [ofInt, int?_of_digits fun _ => isDigit_of_mem_ofNat, digits?_ofNat]
      rfl
  | negSucc n =>
      rw [ofInt, int?, digits?_ofNat]
      rfl

theorem signed?_ofInt {bits : Nat} {i : Int} (hl : -2 ^ (bits - 1) ≤ i)
    (hh : i < 2 ^ (bits - 1)) : signed? bits (ofInt i) = some i := by
  rw [signed?, int?_ofInt, Option.filter_some, if_pos (decide_eq_true ⟨hl, hh⟩)]

theorem int32?_ofInt (n : Int32) : int32? (ofInt n.toInt) = some n := by
  rw [int32?, signed?_ofInt n.le_toInt n.toInt_lt, Option.map_some, Int32.ofInt_toInt]

theorem uint32?_ofNat (n : UInt32) : uint32? (ofNat n.toNat) = some n := by
  rw [uint32?, below?, nat?_ofNat, Option.filter_some, if_pos (decide_eq_true n.toNat_lt),
    Option.map_some, UInt32.ofNat_toNat]

theorem uint16?_ofNat (n : UInt16) : uint16? (ofNat n.toNat) = some n := by
  rw [uint16?, below?, nat?_ofNat, Option.filter_some, if_pos (decide_eq_true n.toNat_lt),
    Option.map_some, UInt16.ofNat_toNat]

theorem isWhiteSpace_of_isDigit {c : Char} (h : c.isDigit = true) :
    Text.isWhiteSpace c = false := by
  have hn := toNat_of_isDigit h
  rw [← Bool.not_eq_true]
  intro hw
  simp only [Text.isWhiteSpace, Bool.or_eq_true, Bool.and_eq_true, decide_eq_true_eq,
    beq_iff_eq] at hw
  omega

/-- There is no white space among the characters of numbers. -/
theorem trim_eq_self {t : Text} (h : ∀ c ∈ t, c = '-' ∨ c.isDigit = true) : t.trim = t := by
  have hmem : ∀ c ∈ t, Text.isWhiteSpace c = false := by
    intro c hc
    rcases h c hc with rfl | hd
    · rfl
    · exact isWhiteSpace_of_isDigit hd
  exact Text.trim_of_ends (fun c hc => hmem c (List.mem_of_head? hc))
    fun c hc => hmem c (List.mem_of_getLast? hc)

theorem trim_ofInt (i : Int) : (ofInt i).trim = ofInt i := trim_eq_self fun _ => mem_ofInt

/-! ## Texts of digits -/

theorem digits?_of_digits {d : Text} (hne : d ≠ []) (hd : ∀ c ∈ d, c.isDigit = true) :
    digits? d = some (Nat.ofDigitChars 10 d 0) := by
  rw [digits?, if_pos ⟨hne, List.all_eq_true.mpr hd⟩]

/-- Digits are read as the number they make, if it is within the bounds. -/
theorem signed?_digits {bits : Nat} {d : Text} (hne : d ≠ []) (hd : ∀ c ∈ d, c.isDigit = true)
    {v : Int} :
    signed? bits d = some v ↔
      v = Nat.ofDigitChars 10 d 0 ∧ Nat.ofDigitChars 10 d 0 < 2 ^ (bits - 1) := by
  have hint : int? d = some (Nat.ofDigitChars 10 d 0 : Int) := by
    rw [int?_of_digits hd, digits?_of_digits hne hd]
    rfl
  have hcast : ((Nat.ofDigitChars 10 d 0 : Nat) : Int) < 2 ^ (bits - 1) ↔
      Nat.ofDigitChars 10 d 0 < 2 ^ (bits - 1) := by norm_cast
  have hlow : -2 ^ (bits - 1) ≤ ((Nat.ofDigitChars 10 d 0 : Nat) : Int) := by
    have : (0 : Int) ≤ 2 ^ (bits - 1) := Int.pow_nonneg (by decide)
    omega
  rw [signed?, hint, Option.filter_some]
  constructor
  · intro h
    split at h
    · next hv =>
        cases h
        exact ⟨rfl, hcast.mp (of_decide_eq_true hv).2⟩
    · cases h
  · rintro ⟨rfl, hv⟩
    rw [if_pos (decide_eq_true ⟨hlow, hcast.mpr hv⟩)]

/-! ## What is a number -/

/-- One or more decimal digits, and the number that they make. -/
def IsNumeral (t : Text) (n : Nat) : Prop :=
  t ≠ [] ∧ (∀ c ∈ t, c.isDigit = true) ∧ Nat.ofDigitChars 10 t 0 = n

/-- A number as it may be written: digits, and perhaps a sign in front of them. -/
inductive IsDecimal : Text → Int → Prop
  | plain {t : Text} {n : Nat} (h : IsNumeral t n) : IsDecimal t n
  | plus {t : Text} {n : Nat} (h : IsNumeral t n) : IsDecimal ('+' :: t) n
  | minus {t : Text} {n : Nat} (h : IsNumeral t n) : IsDecimal ('-' :: t) (-n)

/-- A number without a minus sign as it may be written. -/
inductive IsNatural : Text → Nat → Prop
  | plain {t : Text} {n : Nat} (h : IsNumeral t n) : IsNatural t n
  | plus {t : Text} {n : Nat} (h : IsNumeral t n) : IsNatural ('+' :: t) n

theorem digits?_eq_some_iff {t : Text} {n : Nat} : digits? t = some n ↔ IsNumeral t n := by
  rw [digits?, IsNumeral]
  split
  · next h =>
      rw [Option.some.injEq]
      exact ⟨fun hn => ⟨h.1, List.all_eq_true.mp h.2, hn⟩, fun hn => hn.2.2⟩
  · next h =>
      refine ⟨fun hn => (by cases hn), fun hn => absurd ⟨hn.1, ?_⟩ h⟩
      exact List.all_eq_true.mpr hn.2.1

theorem nat?_eq_some_iff {t : Text} {n : Nat} : nat? t = some n ↔ IsNatural t n := by
  constructor
  · intro h
    rw [nat?.eq_def] at h
    split at h
    · exact .plus (digits?_eq_some_iff.mp h)
    · exact .plain (digits?_eq_some_iff.mp h)
  · rintro (⟨h⟩ | ⟨h⟩)
    · rw [nat?_of_digits h.2.1, digits?_eq_some_iff.mpr h]
    · rw [nat?, digits?_eq_some_iff.mpr h]

theorem int?_eq_some_iff {t : Text} {i : Int} : int? t = some i ↔ IsDecimal t i := by
  constructor
  · intro h
    rw [int?.eq_def] at h
    split at h
    · next digits =>
        cases hn : digits? digits with
        | none =>
            rw [hn] at h
            cases h
        | some n =>
            rw [hn] at h
            cases h
            exact .minus (digits?_eq_some_iff.mp hn)
    · obtain ⟨n, hn, rfl⟩ := Option.map_eq_some_iff.mp h
      rcases nat?_eq_some_iff.mp hn with ⟨h⟩ | ⟨h⟩
      · exact .plain h
      · exact .plus h
  · rintro (⟨h⟩ | ⟨h⟩ | ⟨h⟩)
    · rw [int?_of_digits h.2.1, digits?_eq_some_iff.mpr h]
      rfl
    · rw [int?, nat?, digits?_eq_some_iff.mpr h]
      · rfl
      · rintro rest ⟨⟩
    · rw [int?, digits?_eq_some_iff.mpr h]
      rfl

/-- The numbers of thirty-two bits with a sign are those that a numeric field can hold. -/
theorem int32?_eq_some_iff {t : Text} {n : Int32} :
    int32? t = some n ↔ IsDecimal t n.toInt := by
  rw [← int?_eq_some_iff, int32?, signed?, Option.map_eq_some_iff]
  constructor
  · rintro ⟨i, hi, rfl⟩
    obtain ⟨hi, hrange⟩ := Option.filter_eq_some_iff.mp hi
    obtain ⟨hl, hh⟩ := of_decide_eq_true hrange
    rw [hi, Int32.toInt_ofInt_of_le hl hh]
  · intro h
    refine ⟨n.toInt, Option.filter_eq_some_iff.mpr ⟨h, decide_eq_true ?_⟩, Int32.ofInt_toInt n⟩
    exact ⟨n.le_toInt, n.toInt_lt⟩

/-! ## Numbers of a width -/

theorem below?_eq_some_iff {bits n : Nat} {t : Text} :
    below? bits t = some n ↔ IsNatural t n ∧ n < 2 ^ bits := by
  rw [below?, Option.filter_eq_some_iff, nat?_eq_some_iff, decide_eq_true_eq]

theorem below?_eq_none_iff {bits : Nat} {t : Text} :
    below? bits t = none ↔ ∀ n, IsNatural t n → 2 ^ bits ≤ n := by
  rw [Option.eq_none_iff_forall_ne_some]
  refine forall_congr' fun n => ?_
  rw [Ne, below?_eq_some_iff, not_and, Nat.not_lt]

/-- No number is changed by the type that holds it. -/
theorem map_below? {α : Type} {bits : Nat} {hold : Nat → α} {value : α → Nat}
    (h : ∀ n < 2 ^ bits, value (hold n) = n) (t : Text) :
    ((below? bits t).map hold).map value = below? bits t := by
  cases hn : below? bits t with
  | none => rfl
  | some n => rw [Option.map_some, Option.map_some, h n (below?_eq_some_iff.mp hn).2]

theorem map_uint16? (t : Text) : (uint16? t).map UInt16.toNat = below? 16 t :=
  map_below? (fun _ => UInt16.toNat_ofNat_of_lt') t

theorem map_uint32? (t : Text) : (uint32? t).map UInt32.toNat = below? 32 t :=
  map_below? (fun _ => UInt32.toNat_ofNat_of_lt') t

theorem map_uint64? (t : Text) : (uint64? t).map UInt64.toNat = below? 64 t :=
  map_below? (fun _ => UInt64.toNat_ofNat_of_lt') t

theorem uint16?_eq_some_iff {t : Text} {n : UInt16} :
    uint16? t = some n ↔ IsNatural t n.toNat := by
  constructor
  · intro h
    have hbelow : below? 16 t = some n.toNat := by rw [← map_uint16?, h, Option.map_some]
    exact (below?_eq_some_iff.mp hbelow).1
  · intro h
    rw [uint16?, below?_eq_some_iff.mpr ⟨h, n.toNat_lt⟩, Option.map_some, UInt16.ofNat_toNat]

/-! ## Ids and positions -/

theorem positive?_eq_some_iff {bits n : Nat} {t : Text} :
    Wire.positive? bits t = some n ↔ IsNumeral t n ∧ 0 < n ∧ n < 2 ^ bits := by
  rw [Wire.positive?, Option.filter_eq_some_iff, digits?_eq_some_iff, decide_eq_true_eq]

theorem positive?_ofNat {bits n : Nat} (hpos : 0 < n) (hlt : n < 2 ^ bits) :
    Wire.positive? bits (ofNat n) = some n := by
  rw [Wire.positive?, digits?_ofNat, Option.filter_some, if_pos (decide_eq_true ⟨hpos, hlt⟩)]

theorem positive?_zero (bits : Nat) : Wire.positive? bits (ofNat 0) = none := by
  rw [Wire.positive?, digits?_ofNat, Option.filter_some, if_neg (by simp)]

/-! ## Numbers inside a text -/

/-- What a number inside a text is followed by: nothing, or no digit. -/
def EndsNumber (t : Text) : Prop := ∀ c ∈ t.head?, c.isDigit = false

instance (t : Text) : Decidable (EndsNumber t) :=
  decidable_of_iff (t.head?.all (!·.isDigit) = true) (by
    rw [EndsNumber]
    cases t.head? <;> simp)

theorem takeWhile_digits {d rest : Text} (hd : ∀ c ∈ d, c.isDigit = true)
    (hr : EndsNumber rest) : (d ++ rest).takeWhile Char.isDigit = d := by
  rw [List.takeWhile_append_of_pos hd]
  cases rest with
  | nil => rw [List.takeWhile_nil, List.append_nil]
  | cons c rest =>
      rw [List.takeWhile_cons_of_neg (by simp [hr c rfl]), List.append_nil]

theorem dropWhile_digits {d rest : Text} (hd : ∀ c ∈ d, c.isDigit = true)
    (hr : EndsNumber rest) : (d ++ rest).dropWhile Char.isDigit = rest := by
  rw [List.dropWhile_append_of_pos hd]
  cases rest with
  | nil => rfl
  | cons c rest => rw [List.dropWhile_cons_of_neg (by simp [hr c rfl])]

/-- The longest number at the front of a text. -/
theorem takeNumber_digits {d rest : Text} (hd : ∀ c ∈ d, c.isDigit = true)
    (hm : (d ++ rest).head? ≠ some '-') (hr : EndsNumber rest) :
    Wire.Template.takeNumber (d ++ rest) = (d, rest) := by
  rw [Wire.Template.takeNumber, takeWhile_digits hd hr, dropWhile_digits hd hr]
  rintro u hu
  exact hm (by rw [hu]; rfl)

theorem head?_ne_minus {d : Text} (hne : d ≠ []) (hd : ∀ c ∈ d, c.isDigit = true) (rest : Text) :
    (d ++ rest).head? ≠ some '-' := by
  obtain ⟨c, d, rfl⟩ := List.exists_cons_of_ne_nil hne
  intro h
  have hc := hd c List.mem_cons_self
  rw [List.cons_append, List.head?_cons, Option.some.injEq] at h
  rw [h] at hc
  exact absurd hc (by decide)

theorem takeNumber_ofNat (n : Nat) {rest : Text} (hr : EndsNumber rest) :
    Wire.Template.takeNumber (ofNat n ++ rest) = (ofNat n, rest) :=
  takeNumber_digits (fun _ => isDigit_of_mem_ofNat)
    (head?_ne_minus (ofNat_ne_nil n) (fun _ => isDigit_of_mem_ofNat) rest) hr

theorem takeNumber_ofInt (i : Int) {rest : Text} (hr : EndsNumber rest) :
    Wire.Template.takeNumber (ofInt i ++ rest) = (ofInt i, rest) := by
  cases i with
  | ofNat n => exact takeNumber_ofNat n hr
  | negSucc n =>
      have hd : ∀ c ∈ ofNat (n + 1), c.isDigit = true := fun _ => isDigit_of_mem_ofNat
      rw [ofInt, List.cons_append, Wire.Template.takeNumber, takeWhile_digits hd hr,
        dropWhile_digits hd hr]

theorem takeNumber_all {d : Text} (hne : d ≠ []) (hd : ∀ c ∈ d, c.isDigit = true) :
    Wire.Template.takeNumber d = (d, []) := by
  have h := takeNumber_digits hd (head?_ne_minus hne hd []) fun _ hc => by cases hc
  rwa [List.append_nil] at h

/-! ## Numbers that are cut off -/

/-- What is left of a number that has lost digits at its end is a smaller number. -/
theorem ofDigitChars_cut {n : Nat} {d : Text} (hd : d <+: ofNat n) (hcut : d ≠ ofNat n) :
    d = [] ∨ Nat.ofDigitChars 10 d 0 < n := by
  induction n using Nat.strongRecOn with
  | ind n ih =>
    by_cases hn : n < 10
    · rw [ofNat, Nat.toDigits_of_lt_base hn] at hd hcut
      rcases List.prefix_cons_iff.mp hd with h | ⟨e, rfl, he⟩
      · exact .inl h
      · exact absurd (by rw [List.prefix_nil.mp he]) hcut
    · have hlast : ofNat n = ofNat (n / 10) ++ [Nat.digitChar (n % 10)] :=
        Nat.toDigits_of_base_le (by decide) (by omega)
      rw [hlast] at hd hcut
      have hd : d <+: ofNat (n / 10) := by
        rcases List.prefix_concat_iff.mp hd with h | h
        · exact absurd h hcut
        · exact h
      by_cases hall : d = ofNat (n / 10)
      · right
        rw [hall, ofNat, Nat.ofDigitChars_ten_toDigits]
        omega
      · rcases ih (n / 10) (by omega) hd hall with h | h
        · exact .inl h
        · exact .inr (by omega)

/-- What is left of a number is not greater than it. -/
theorem ofDigitChars_le {n : Nat} {d : Text} (hd : d <+: ofNat n) :
    Nat.ofDigitChars 10 d 0 ≤ n := by
  by_cases hall : d = ofNat n
  · rw [hall]
    exact Nat.le_of_eq Nat.ofDigitChars_ten_toDigits
  · rcases ofDigitChars_cut hd hall with h | h
    · rw [h]
      exact Nat.zero_le n
    · exact Nat.le_of_lt h

theorem isDigit_of_mem_cut {n : Nat} {d : Text} (hd : d <+: ofNat n) :
    ∀ c ∈ d, c.isDigit = true := fun _ hc => isDigit_of_mem_ofNat (hd.mem hc)

end ToolRegistry.Decimal
