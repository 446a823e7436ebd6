import ToolRegistry.Text.Utf8

/-!
# What was encoded is decoded again

The decoding machine is run over the bytes of a text. Between two characters
it is in its start state, so the whole argument is about one character: the
first byte opens it with the number of bytes that the encoder will write, the
bounds on the second byte hold because the value is a scalar value of that
length, and the last byte completes it.

The same walk, stopped early, says what becomes of a text that is cut off
somewhere in its bytes. If the cut falls between two characters, the text
before it comes out. If it falls inside a character, the machine is left in
the middle of it and puts one replacement in its place. That is all a reader
can ever see of a line whose end has not arrived.
-/

namespace ToolRegistry.Utf8

/-! ## Cuts

A cut in something that was put together falls in its first part or after it. -/

theorem prefix_append_cases {α : Type} {q a b : List α} (h : q <+: a ++ b) :
    (q <+: a ∧ q ≠ a) ∨ ∃ r, q = a ++ r ∧ r <+: b := by
  obtain ⟨u, hu⟩ := h
  rcases List.append_eq_append_iff.mp hu with ⟨v, ha, -⟩ | ⟨v, hq, hb⟩
  · by_cases hv : v = []
    · exact .inr ⟨[], by rw [ha, hv, List.append_nil, List.append_nil], List.nil_prefix⟩
    · refine .inl ⟨⟨v, ha.symm⟩, fun he => hv ?_⟩
      rw [he] at ha
      exact List.self_eq_append_right.mp ha
  · exact .inr ⟨v, hq, ⟨u, hb.symm⟩⟩

/-! ## The bytes of a character -/

theorem toNat_byte {base n : Nat} (h : base + n < 256) : (byte base n).toNat = base + n := by
  rw [byte, UInt8.toNat_ofNat', Nat.mod_eq_of_lt h]

/-- A character is a scalar value: below the surrogates, or above them and at most U+10FFFF. -/
theorem toNat_scalar (c : Char) :
    c.toNat < 0xD800 ∨ (0xDFFF < c.toNat ∧ c.toNat < 0x110000) := c.valid

/-- The four lengths of a character in bytes. -/
theorem encodeChar_cases {c : Char} {n : Nat} (hn : c.toNat = n) :
    (n < 0x80 ∧ encodeChar c = [byte 0 n]) ∨
    (0x80 ≤ n ∧ n < 0x800 ∧ encodeChar c = [byte 0xC0 (n / 64), byte 0x80 (n % 64)]) ∨
    (0x800 ≤ n ∧ n < 0x10000 ∧ (n < 0xD800 ∨ 0xDFFF < n) ∧ encodeChar c =
      [byte 0xE0 (n / 4096), byte 0x80 (n / 64 % 64), byte 0x80 (n % 64)]) ∨
    (0x10000 ≤ n ∧ n < 0x110000 ∧ encodeChar c = [byte 0xF0 (n / 262144),
      byte 0x80 (n / 4096 % 64), byte 0x80 (n / 64 % 64), byte 0x80 (n % 64)]) := by
  have hc := toNat_scalar c
  subst hn
  by_cases h1 : c.toNat < 0x80
  · exact .inl ⟨h1, by rw [encodeChar, if_pos h1]⟩
  by_cases h2 : c.toNat < 0x800
  · exact .inr (.inl ⟨by omega, h2, by rw [encodeChar, if_neg h1, if_pos h2]⟩)
  by_cases h3 : c.toNat < 0x10000
  · refine .inr (.inr (.inl ⟨by omega, h3, by omega, ?_⟩))
    rw [encodeChar, if_neg h1, if_neg h2, if_pos h3]
  · refine .inr (.inr (.inr ⟨by omega, by omega, ?_⟩))
    rw [encodeChar, if_neg h1, if_neg h2, if_neg h3]

theorem encodeChar_ne_nil (c : Char) : encodeChar c ≠ [] := by
  rcases encodeChar_cases (c := c) rfl with ⟨-, h⟩ | ⟨-, -, h⟩ | ⟨-, -, -, h⟩ | ⟨-, -, h⟩ <;>
    rw [h] <;> exact List.cons_ne_nil _ _

theorem encodeChar_ascii {c : Char} (h : c.toNat < 0x80) : encodeChar c = [byte 0 c.toNat] := by
  rw [encodeChar, if_pos h]

/-- An ASCII value is a byte of no other character. -/
theorem mem_encodeChar_ascii {c : Char} {b : UInt8} (hb : b ∈ encodeChar c)
    (hlt : b.toNat < 0x80) : c.toNat = b.toNat := by
  rcases encodeChar_cases (c := c) rfl with
    ⟨hn, h⟩ | ⟨hn, hh, h⟩ | ⟨hn, hh, -, h⟩ | ⟨hn, hh, h⟩
  all_goals
    rw [h] at hb
    simp only [List.mem_cons, List.not_mem_nil, or_false] at hb
  · rw [hb, toNat_byte (by omega), Nat.zero_add]
  -- The bytes of a longer character are all 128 and more.
  · rcases hb with rfl | rfl <;> rw [toNat_byte (by omega)] at hlt <;> omega
  · rcases hb with rfl | rfl | rfl <;> rw [toNat_byte (by omega)] at hlt <;> omega
  · rcases hb with rfl | rfl | rfl | rfl <;> rw [toNat_byte (by omega)] at hlt <;> omega

/-! ## The machine on one character -/

/-- The first byte of a character of two bytes. -/
theorem firstByte_two {n : Nat} (hl : 0x80 ≤ n) (hh : n < 0x800) :
    firstByte (byte 0xC0 (n / 64)) = .opens ⟨0, 0x80, 0xBF, n / 64⟩ := by
  simp only [firstByte]
  rw [toNat_byte (by omega), if_neg (by omega), if_neg (by omega), if_pos (by omega),
    Nat.add_sub_cancel_left]

/-- The first byte of a character of three bytes, with bounds that admit its second byte. -/
theorem firstByte_three {n : Nat} (hl : 0x800 ≤ n) (hh : n < 0x10000)
    (hs : n < 0xD800 ∨ 0xDFFF < n) :
    ∃ low high, firstByte (byte 0xE0 (n / 4096)) = .opens ⟨1, low, high, n / 4096⟩ ∧
      low ≤ 0x80 + n / 64 % 64 ∧ 0x80 + n / 64 % 64 ≤ high := by
  simp only [firstByte]
  rw [toNat_byte (by omega), if_neg (by omega), if_neg (by omega), if_neg (by omega)]
  split
  · rw [show n / 4096 = 0 by omega]
    exact ⟨0xA0, 0xBF, rfl, by omega, by omega⟩
  · split
    · rw [show n / 4096 = 13 by omega]
      exact ⟨0x80, 0x9F, rfl, by omega, by omega⟩
    · rw [if_pos (by omega), Nat.add_sub_cancel_left]
      exact ⟨0x80, 0xBF, rfl, by omega, by omega⟩

/-- The first byte of a character of four bytes, with bounds that admit its second byte. -/
theorem firstByte_four {n : Nat} (hl : 0x10000 ≤ n) (hh : n < 0x110000) :
    ∃ low high, firstByte (byte 0xF0 (n / 262144)) = .opens ⟨2, low, high, n / 262144⟩ ∧
      low ≤ 0x80 + n / 4096 % 64 ∧ 0x80 + n / 4096 % 64 ≤ high := by
  simp only [firstByte]
  rw [toNat_byte (by omega), if_neg (by omega), if_neg (by omega), if_neg (by omega),
    if_neg (by omega), if_neg (by omega), if_neg (by omega)]
  split
  · rw [show n / 262144 = 0 by omega]
    exact ⟨0x90, 0xBF, rfl, by omega, by omega⟩
  · split
    · rw [Nat.add_sub_cancel_left]
      exact ⟨0x80, 0xBF, rfl, by omega, by omega⟩
    · rw [if_pos (by omega), show n / 262144 = 4 by omega]
      exact ⟨0x80, 0x8F, rfl, by omega, by omega⟩

theorem itemsFrom_opens {b : UInt8} {p : Pending} (h : firstByte b = .opens p) (rest : Bytes) :
    itemsFrom none (b :: rest) = itemsFrom (some p) rest := by
  rw [itemsFrom, h]

/-- A byte within the bounds, with more to come. -/
theorem itemsFrom_more {low high bits owed k : Nat} (hk : k < 64) (hl : low ≤ 0x80 + k)
    (hh : 0x80 + k ≤ high) (rest : Bytes) :
    itemsFrom (some ⟨owed + 1, low, high, bits⟩) (byte 0x80 k :: rest) =
      itemsFrom (some ⟨owed, 0x80, 0xBF, bits * 64 + k⟩) rest := by
  rw [itemsFrom]
  simp only [toNat_byte (show 0x80 + k < 256 by omega)]
  rw [if_pos ⟨hl, hh⟩, Nat.add_sub_cancel_left]

/-- The last byte of a character. -/
theorem itemsFrom_last {low high bits k : Nat} (hk : k < 64) (hl : low ≤ 0x80 + k)
    (hh : 0x80 + k ≤ high) (rest : Bytes) :
    itemsFrom (some ⟨0, low, high, bits⟩) (byte 0x80 k :: rest) =
      some (Char.ofNat (bits * 64 + k)) :: itemsFrom none rest := by
  rw [itemsFrom]
  simp only [toNat_byte (show 0x80 + k < 256 by omega)]
  rw [if_pos ⟨hl, hh⟩, Nat.add_sub_cancel_left]

/-- A byte out of the bounds ends the character, and is read as if none had been begun. -/
theorem itemsFrom_ill {p : Pending} {b : UInt8} (h : ¬(p.low ≤ b.toNat ∧ b.toNat ≤ p.high))
    (rest : Bytes) : itemsFrom (some p) (b :: rest) = none :: itemsFrom none (b :: rest) := by
  rw [itemsFrom, itemsFrom, if_neg h]

/-- The bytes of a character are one item, whatever follows them. -/
theorem itemsFrom_encodeChar (c : Char) (rest : Bytes) :
    itemsFrom none (encodeChar c ++ rest) = some c :: itemsFrom none rest := by
  have hback := Char.ofNat_toNat c
  generalize hn : c.toNat = n at hback
  rcases encodeChar_cases hn with ⟨hh, h⟩ | ⟨hl, hh, h⟩ | ⟨hl, hh, hs, h⟩ | ⟨hl, hh, h⟩
  all_goals
    rw [h]
    simp only [List.cons_append, List.nil_append]
  · rw [itemsFrom]
    simp only [firstByte]
    rw [toNat_byte (by omega), if_pos (by omega), Nat.zero_add, hback]
  · rw [itemsFrom_opens (firstByte_two hl hh), itemsFrom_last (by omega) (by omega) (by omega),
      show n / 64 * 64 + n % 64 = n by omega, hback]
  · obtain ⟨low, high, hopen, hlow, hhigh⟩ := firstByte_three hl hh hs
    rw [itemsFrom_opens hopen, itemsFrom_more (by omega) hlow hhigh,
      itemsFrom_last (by omega) (by omega) (by omega),
      show (n / 4096 * 64 + n / 64 % 64) * 64 + n % 64 = n by omega, hback]
  · obtain ⟨low, high, hopen, hlow, hhigh⟩ := firstByte_four hl hh
    rw [itemsFrom_opens hopen, itemsFrom_more (by omega) hlow hhigh,
      itemsFrom_more (by omega) (by omega) (by omega),
      itemsFrom_last (by omega) (by omega) (by omega),
      show ((n / 262144 * 64 + n / 4096 % 64) * 64 + n / 64 % 64) * 64 + n % 64 = n by omega,
      hback]

/-- A character that is cut off is one ill-formed part. -/
theorem itemsFrom_cut {c : Char} {q : Bytes} (hq : q <+: encodeChar c) (hne : q ≠ [])
    (hcut : q ≠ encodeChar c) : itemsFrom none q = [none] := by
  generalize hn : c.toNat = n
  obtain ⟨b, q, rfl⟩ := List.exists_cons_of_ne_nil hne
  rcases encodeChar_cases hn with ⟨-, h⟩ | ⟨hl, hh, h⟩ | ⟨hl, hh, hs, h⟩ | ⟨hl, hh, h⟩
  all_goals
    rw [h] at hq hcut
    obtain ⟨rfl, ht⟩ := List.cons_prefix_cons.mp hq
  · exact absurd (by rw [List.prefix_nil.mp ht]) hcut
  · rw [itemsFrom_opens (firstByte_two hl hh)]
    rcases List.prefix_cons_iff.mp ht with rfl | ⟨r, rfl, hr⟩
    · rfl
    · exact absurd (by rw [List.prefix_nil.mp hr]) hcut
  · obtain ⟨low, high, hopen, hlow, hhigh⟩ := firstByte_three hl hh hs
    rw [itemsFrom_opens hopen]
    rcases List.prefix_cons_iff.mp ht with rfl | ⟨r, rfl, hr⟩
    · rfl
    · rw [itemsFrom_more (by omega) hlow hhigh]
      rcases List.prefix_cons_iff.mp hr with rfl | ⟨s, rfl, hs⟩
      · rfl
      · exact absurd (by rw [List.prefix_nil.mp hs]) hcut
  · obtain ⟨low, high, hopen, hlow, hhigh⟩ := firstByte_four hl hh
    rw [itemsFrom_opens hopen]
    rcases List.prefix_cons_iff.mp ht with rfl | ⟨r, rfl, hr⟩
    · rfl
    · rw [itemsFrom_more (by omega) hlow hhigh]
      rcases List.prefix_cons_iff.mp hr with rfl | ⟨s, rfl, hs⟩
      · rfl
      · rw [itemsFrom_more (by omega) (by omega) (by omega)]
        rcases List.prefix_cons_iff.mp hs with rfl | ⟨u, rfl, hu⟩
        · rfl
        · exact absurd (by rw [List.prefix_nil.mp hu]) hcut

/-! ## Texts -/

@[simp]
theorem encode_nil : encode [] = [] := rfl

@[simp]
theorem encode_cons (c : Char) (t : Text) : encode (c :: t) = encodeChar c ++ encode t := rfl

@[simp]
theorem encode_append (s t : Text) : encode (s ++ t) = encode s ++ encode t :=
  List.flatMap_append

theorem encode_eq_nil_iff {t : Text} : encode t = [] ↔ t = [] := by
  cases t with
  | nil => simp
  | cons c t => simp [encodeChar_ne_nil]

theorem itemsFrom_encode (t : Text) (rest : Bytes) :
    itemsFrom none (encode t ++ rest) = t.map some ++ itemsFrom none rest := by
  induction t with
  | nil => rfl
  | cons c t ih =>
      rw [encode_cons, List.append_assoc, itemsFrom_encodeChar, ih, List.map_cons,
        List.cons_append]

/-- What stands before some bytes is decoded by itself. -/
theorem decodeLossy_encode_append (t : Text) (rest : Bytes) :
    decodeLossy (encode t ++ rest) = t ++ decodeLossy rest := by
  rw [decodeLossy, items, itemsFrom_encode, List.map_append, List.map_map]
  congr 1
  exact List.map_id t

/-- What was encoded is decoded again. -/
theorem decodeLossy_encode (t : Text) : decodeLossy (encode t) = t := by
  have h := decodeLossy_encode_append t []
  rwa [List.append_nil, show decodeLossy [] = [] from rfl, List.append_nil] at h

theorem mapM_some (t : Text) : (t.map some).mapM id = some t := by
  induction t with
  | nil => rfl
  | cons c t ih =>
      rw [List.map_cons, List.mapM_cons, ih]
      rfl

/-- The strict decoder finds nothing wrong with it either. -/
theorem decode?_encode (t : Text) : decode? (encode t) = some t := by
  have hitems := itemsFrom_encode t []
  rw [List.append_nil, show itemsFrom none [] = [] from rfl, List.append_nil] at hitems
  rw [decode?, items, hitems, mapM_some]

theorem encode_injective {s t : Text} (h : encode s = encode t) : s = t := by
  rw [← decodeLossy_encode s, h, decodeLossy_encode]

/-- The byte of an ASCII character stands for nothing else. -/
theorem mem_encode_ascii {a : Char} (ha : a.toNat < 0x80) {t : Text} :
    byte 0 a.toNat ∈ encode t ↔ a ∈ t := by
  have hb : (byte 0 a.toNat).toNat = a.toNat := by rw [toNat_byte (by omega), Nat.zero_add]
  induction t with
  | nil => simp
  | cons c t ih =>
      rw [encode_cons, List.mem_append, List.mem_cons]
      refine or_congr ⟨fun hmem => ?_, fun hc => ?_⟩ ih
      · have hn := mem_encodeChar_ascii hmem (by omega)
        rw [← Char.ofNat_toNat a, ← Char.ofNat_toNat c, hn, hb]
      · rw [← hc, encodeChar_ascii ha]
        exact List.mem_singleton_self _

/-! ## Texts that are cut off -/

/-- A cut in the bytes of a text falls after some of its characters, and possibly inside the
next one. -/
theorem prefix_encode {t : Text} {q : Bytes} (h : q <+: encode t) :
    ∃ s part, q = encode s ++ part ∧
      (s <+: t ∧ part = [] ∨ ∃ c, s ++ [c] <+: t ∧ part <+: encodeChar c ∧ part ≠ [] ∧
        part ≠ encodeChar c) := by
  induction t generalizing q with
  | nil => exact ⟨[], [], List.prefix_nil.mp h, .inl ⟨List.nil_prefix, rfl⟩⟩
  | cons c t ih =>
      rcases prefix_append_cases h with ⟨hq, hcut⟩ | ⟨r, rfl, hr⟩
      · by_cases hne : q = []
        · exact ⟨[], [], hne, .inl ⟨List.nil_prefix, rfl⟩⟩
        · refine ⟨[], q, rfl, .inr ⟨c, ?_, hq, hne, hcut⟩⟩
          exact ⟨t, rfl⟩
      · obtain ⟨s, part, rfl, hs⟩ := ih hr
        refine ⟨c :: s, part, by rw [encode_cons, List.append_assoc], ?_⟩
        rcases hs with ⟨hs, hpart⟩ | ⟨d, hs, hpart⟩
        · exact .inl ⟨(List.prefix_cons_inj c).mpr hs, hpart⟩
        · exact .inr ⟨d, (List.prefix_cons_inj c).mpr hs, hpart⟩

/-- A text that is cut off is read as some of its characters, with one replacement after them if
the cut falls inside the next one. -/
theorem decodeLossy_prefix {t : Text} {q : Bytes} (h : q <+: encode t) :
    (∃ s, s <+: t ∧ q = encode s ∧ decodeLossy q = s) ∨
      ∃ s c, s ++ [c] <+: t ∧ 0x80 ≤ c.toNat ∧ decodeLossy q = s ++ [replacement] := by
  obtain ⟨s, part, rfl, ⟨hs, rfl⟩ | ⟨c, hs, hpart, hne, hcut⟩⟩ := prefix_encode h
  · rw [List.append_nil]
    exact .inl ⟨s, hs, rfl, decodeLossy_encode s⟩
  · refine .inr ⟨s, c, hs, ?_, ?_⟩
    · -- The one byte of an ASCII character cannot be cut.
      refine Nat.le_of_not_lt fun hc => ?_
      rw [encodeChar_ascii hc] at hpart hcut
      rcases List.prefix_cons_iff.mp hpart with h | ⟨rest, h, hrest⟩
      · exact hne h
      · exact hcut (by rw [h, List.prefix_nil.mp hrest])
    rw [decodeLossy_encode_append, decodeLossy, items, itemsFrom_cut hpart hne hcut]
    rfl

/-! ## Bytes that are no text -/

/-- A character that has begun, and whose value will be at least 128. -/
def Pending.IsWide (p : Pending) : Prop :=
  0x80 ≤ p.low ∧ 0x80 ≤ (p.bits * 64 + (p.low - 0x80)) * 64 ^ p.owed

theorem isWide_of_opens {b : UInt8} {p : Pending} (h : firstByte b = .opens p) : p.IsWide := by
  simp only [firstByte] at h
  repeat' split at h
  all_goals first
    | cases h; done
    | cases h; simp only [Pending.IsWide]; omega

/-- Another byte within the bounds keeps the value above 128. -/
theorem Pending.IsWide.next {p : Pending} (hp : p.IsWide) {n : Nat} (hl : p.low ≤ n) :
    0x80 ≤ (p.bits * 64 + (n - 0x80)) * 64 ^ p.owed :=
  Nat.le_trans hp.2 (Nat.mul_le_mul_right _ (by have := hp.1; omega))

theorem toNat_ofNat_wide {n : Nat} (hn : 0x80 ≤ n) :
    (Char.ofNat n).toNat = 0 ∨ 0x80 ≤ (Char.ofNat n).toNat := by
  by_cases h : n.isValidChar
  · rw [Char.ofNat, dif_pos h]
    exact .inr hn
  · rw [Char.ofNat, dif_neg h]
    exact .inl rfl

theorem ofNat_wide_ne {a : Char} (h0 : a ≠ '\x00') (ha : a.toNat < 0x80) {n : Nat}
    (hn : 0x80 ≤ n) : a ≠ Char.ofNat n := by
  rintro rfl
  rcases toNat_ofNat_wide hn with h | h
  · exact h0 (Char.toNat_inj.mp h)
  · omega

theorem byte_of_complete {b : UInt8} {c : Char} (h : firstByte b = .complete c) :
    byte 0 c.toNat = b := by
  simp only [firstByte] at h
  split at h
  · cases h
    have hv : b.toNat.isValidChar := .inl (by omega)
    have hc : (Char.ofNat b.toNat).toNat = b.toNat := by rw [Char.ofNat, dif_pos hv]; rfl
    rw [hc, byte, Nat.zero_add, UInt8.ofNat_toNat]
  · repeat' split at h
    all_goals cases h

/-- Decoding makes no ASCII character out of anything but its own byte. -/
theorem mem_itemsFrom_ascii {a : Char} (h0 : a ≠ '\x00') (ha : a.toNat < 0x80) {bytes : Bytes}
    {p : Option Pending} (hp : ∀ q ∈ p, q.IsWide) (h : some a ∈ itemsFrom p bytes) :
    byte 0 a.toNat ∈ bytes := by
  -- The machine may be in the middle of a character, but of none that can end as `a`.
  induction bytes generalizing p with
  | nil => cases p <;> simp [itemsFrom] at h
  | cons b rest ih =>
      have hfirst : some a ∈ itemsFrom none (b :: rest) → byte 0 a.toNat ∈ b :: rest := by
        intro h
        rw [itemsFrom] at h
        split at h
        · next c hc =>
            rcases List.mem_cons.mp h with h | h
            · cases h
              exact byte_of_complete hc ▸ List.mem_cons_self
            · exact List.mem_cons_of_mem _ (ih (fun _ hq => by cases hq) h)
        · next q hq =>
            refine List.mem_cons_of_mem _ (ih ?_ h)
            rintro _ ⟨⟩
            exact isWide_of_opens hq
        · rcases List.mem_cons.mp h with h | h
          · cases h
          · exact List.mem_cons_of_mem _ (ih (fun _ hq => by cases hq) h)
      cases p with
      | none => exact hfirst h
      | some q =>
          by_cases hb : q.low ≤ b.toNat ∧ b.toNat ≤ q.high
          · have hwide := (hp q rfl).next hb.1
            rw [itemsFrom, if_pos hb] at h
            split at h
            · next howed =>
                rw [howed, Nat.pow_zero, Nat.mul_one] at hwide
                rcases List.mem_cons.mp h with h | h
                · rw [Option.some.injEq] at h
                  exact absurd h (ofNat_wide_ne h0 ha hwide)
                · exact List.mem_cons_of_mem _ (ih (fun _ hq => by cases hq) h)
            · next owed howed =>
                refine List.mem_cons_of_mem _ (ih ?_ h)
                rintro _ ⟨⟩
                rw [howed, Nat.pow_succ', ← Nat.mul_assoc] at hwide
                simp only [Pending.IsWide, Nat.sub_self, Nat.add_zero]
                exact ⟨Nat.le_refl _, hwide⟩
          · rw [itemsFrom_ill hb] at h
            rcases List.mem_cons.mp h with h | h
            · cases h
            · exact hfirst h

theorem mem_decodeLossy_ascii {a : Char} (h0 : a ≠ '\x00') (ha : a.toNat < 0x80) {bytes : Bytes}
    (h : a ∈ decodeLossy bytes) : byte 0 a.toNat ∈ bytes := by
  obtain ⟨item, hitem, hget⟩ := List.mem_map.mp h
  cases item with
  | none =>
      have hr : ¬replacement.toNat < 0x80 := by decide
      rw [← hget] at ha
      exact absurd ha hr
  | some c =>
      cases hget
      exact mem_itemsFrom_ascii h0 ha (fun _ hq => by cases hq) hitem

end ToolRegistry.Utf8
