import ToolRegistry.Client.Link
import ToolRegistry.Proofs.Segments
import ToolRegistry.Proofs.Utf8

/-!
# A line that is sent is the line that is read

A line of text goes out as its bytes and a line feed. Because a line feed and
a carriage return stand for nothing but themselves, the bytes of a text
without line breaks hold neither, so the reader finds the end of the line
where the sender put it and has no carriage return to drop. Whether it accepts
the line is then only a matter of its length, and in both cases it goes on
right after the line feed.

The reader counts bytes with 64-bit numbers that stop at the greatest one, so
none of this could hold of a line of 2^64 bytes. There are no such lines: the
bytes of a text that a program holds are counted by such a number themselves
(`FitsInMemory`).
-/

namespace ToolRegistry

/-- A text that a program can hold as a line: with a line feed after it, its bytes are counted by
a 64-bit number. Lengths in memory are below 2^63, so no text of a program is left out. -/
def Text.FitsInMemory (t : Text) : Prop := (Utf8.encode t).length + 1 < 2 ^ 64

instance (t : Text) : Decidable t.FitsInMemory := inferInstanceAs (Decidable (_ < _))

/-- A text without line breaks. -/
def Text.IsOneLine (t : Text) : Prop := '\r' ∉ t ∧ '\n' ∉ t

instance (t : Text) : Decidable t.IsOneLine := inferInstanceAs (Decidable (_ ∧ _))

/-- A text of printable ASCII characters. -/
def Text.IsPlain (t : Text) : Prop := ∀ c ∈ t, 0x20 ≤ c.toNat ∧ c.toNat < 0x80

instance (t : Text) : Decidable t.IsPlain :=
  List.decidableBAll (fun c : Char => 0x20 ≤ c.toNat ∧ c.toNat < 0x80) t

theorem Text.isPlain_append {s t : Text} : Text.IsPlain (s ++ t) ↔ s.IsPlain ∧ t.IsPlain :=
  List.forall_mem_append

theorem Text.IsPlain.isOneLine {t : Text} (h : t.IsPlain) : t.IsOneLine := by
  constructor <;> intro hm <;> exact absurd (h _ hm).1 (by decide)

theorem Text.IsOneLine.mono {s t : Text} (h : t.IsOneLine) (hs : s ⊆ t) : s.IsOneLine :=
  ⟨fun hr => h.1 (hs hr), fun hn => h.2 (hs hn)⟩

theorem Text.isOneLine_append {s t : Text} :
    Text.IsOneLine (s ++ t) ↔ s.IsOneLine ∧ t.IsOneLine := by
  simp only [Text.IsOneLine, List.mem_append, not_or]
  constructor
  · rintro ⟨⟨h1, h2⟩, h3, h4⟩; exact ⟨⟨h1, h3⟩, h2, h4⟩
  · rintro ⟨⟨h1, h3⟩, h2, h4⟩; exact ⟨⟨h1, h2⟩, h3, h4⟩

namespace Wire

/-! ## Line ends in bytes -/

theorem lineFeed_mem_encode {t : Text} : lineFeed ∈ Utf8.encode t ↔ '\n' ∈ t :=
  Utf8.mem_encode_ascii (a := '\n') (by decide)

theorem carriageReturn_mem_encode {t : Text} : carriageReturn ∈ Utf8.encode t ↔ '\r' ∈ t :=
  Utf8.mem_encode_ascii (a := '\r') (by decide)

theorem encode_newline : Utf8.encode ['\n'] = [lineFeed] := rfl

/-- The carriage returns of a text are bytes of their own. -/
theorem filter_encode (t : Text) :
    (Utf8.encode t).filter (· ≠ carriageReturn) = Utf8.encode (t.filter (· ≠ '\r')) := by
  induction t with
  | nil => rfl
  | cons c t ih =>
      rw [Utf8.encode_cons, List.filter_append, ih]
      by_cases hc : c = '\r'
      · rw [hc, List.filter_cons_of_neg (by simp)]
        rfl
      · rw [List.filter_cons_of_pos (by simpa using hc), Utf8.encode_cons]
        congr 1
        refine List.filter_eq_self.mpr fun b hb => decide_eq_true fun hr => hc ?_
        rw [hr] at hb
        exact Char.toNat_inj.mp (Utf8.mem_encodeChar_ascii hb (by decide))

theorem decodeLine_of_not_mem {b : Bytes} (hcr : carriageReturn ∉ b) (hlf : lineFeed ∉ b) :
    decodeLine b = Utf8.decodeLossy b := by
  rw [decodeLine, dropFinalByte_of_not_mem hlf, List.filter_eq_self.mpr]
  intro x hx
  exact decide_eq_true fun h => hcr (h ▸ hx)

theorem decodeLine_concat {b : Bytes} (hcr : carriageReturn ∉ b) :
    decodeLine (b ++ [lineFeed]) = Utf8.decodeLossy b := by
  rw [decodeLine, dropFinalByte_concat, List.filter_eq_self.mpr]
  intro x hx
  exact decide_eq_true fun h => hcr (h ▸ hx)

/-! ## Reading one line -/

/-- A line within the limit is read whole. -/
theorem readLine_line {limit : UInt64} {b : Bytes} (hcr : carriageReturn ∉ b)
    (hlf : lineFeed ∉ b) (hlen : b.length ≤ limit.toNat) (hfit : b.length + 1 < 2 ^ 64)
    (rest : Bytes) :
    readLine limit (b ++ lineFeed :: rest) = (.line (Utf8.decodeLossy b), rest) := by
  rw [readLine_terminated hlf (.inr hfit), itemOf, dropFinalByte_concat, dropFinalByte_of_not_mem hcr,
    if_neg (by omega), if_pos (by simp), decodeLine_concat hcr]

/-- A line beyond the limit is passed over, whatever its length. -/
theorem readLine_tooLong {limit : UInt64} {b : Bytes} (hcr : carriageReturn ∉ b)
    (hlf : lineFeed ∉ b) (hlen : limit.toNat < b.length) (hfit : b.length + 1 < 2 ^ 64)
    (rest : Bytes) :
    readLine limit (b ++ lineFeed :: rest) = (.tooLong, rest) := by
  rw [readLine_terminated hlf (.inr hfit), itemOf, dropFinalByte_concat, dropFinalByte_of_not_mem hcr,
    if_pos hlen]

/-- Bytes that end before a line feed are read as what is left of a line. -/
theorem readLine_unterminated {limit : UInt64} {b : Bytes} (hcr : carriageReturn ∉ b)
    (hlf : lineFeed ∉ b) (hne : b ≠ []) (hlen : b.length ≤ limit.toNat)
    (hfit : b.length + 1 < 2 ^ 64) :
    readLine limit b = (.unterminated (Utf8.decodeLossy b), []) := by
  rw [readLine_unended hlf hne (by omega), itemOf, dropFinalByte_of_not_mem hlf,
    dropFinalByte_of_not_mem hcr, if_neg (by omega), if_neg (getLast?_ne_lineFeed hlf),
    decodeLine_of_not_mem hcr hlf]

/-! ## Lines of text -/

theorem readLine_encode {limit : UInt64} {t : Text} (h : t.IsOneLine) (hfit : t.FitsInMemory)
    (hlen : (Utf8.encode t).length ≤ limit.toNat) (rest : Bytes) :
    readLine limit (Utf8.encode t ++ lineFeed :: rest) = (.line t, rest) := by
  rw [readLine_line (mt carriageReturn_mem_encode.mp h.1) (mt lineFeed_mem_encode.mp h.2) hlen
    hfit, Utf8.decodeLossy_encode]

/-- A line is read without the carriage returns in it. -/
theorem readLine_encode_returns {limit : UInt64} {t : Text} (hlf : '\n' ∉ t)
    (hfit : t.FitsInMemory) (hlen : (Utf8.encode t).length ≤ limit.toNat) (rest : Bytes) :
    readLine limit (Utf8.encode t ++ lineFeed :: rest) = (.line (t.filter (· ≠ '\r')), rest) := by
  have hbytes := mt lineFeed_mem_encode.mp hlf
  have hbody : (dropFinalByte carriageReturn (Utf8.encode t)).length ≤ limit.toNat := by
    refine Nat.le_trans ?_ hlen
    rw [dropFinalByte]
    split
    · exact List.length_dropLast ▸ Nat.sub_le _ _
    · exact Nat.le_refl _
  rw [readLine_terminated hbytes (.inr hfit), itemOf, dropFinalByte_concat,
    if_neg (Nat.not_lt.mpr hbody), if_pos (by simp), decodeLine, dropFinalByte_concat, filter_encode,
    Utf8.decodeLossy_encode]

theorem readLine_encode_tooLong {limit : UInt64} {t : Text} (h : t.IsOneLine)
    (hfit : t.FitsInMemory) (hlen : limit.toNat < (Utf8.encode t).length) (rest : Bytes) :
    readLine limit (Utf8.encode t ++ lineFeed :: rest) = (.tooLong, rest) :=
  readLine_tooLong (mt carriageReturn_mem_encode.mp h.1) (mt lineFeed_mem_encode.mp h.2)
    hlen hfit rest

/-- The bytes of some lines, each with a line feed after it. -/
def lineBytes (lines : List Text) : Bytes := Utf8.encode (lines.flatMap (· ++ ['\n']))

@[simp]
theorem lineBytes_nil : lineBytes [] = [] := rfl

theorem lineBytes_cons (t : Text) (lines : List Text) :
    lineBytes (t :: lines) = Utf8.encode t ++ lineFeed :: lineBytes lines := by
  rw [lineBytes, List.flatMap_cons, Utf8.encode_append, Utf8.encode_append, encode_newline,
    List.append_assoc, List.singleton_append]
  rfl

theorem lineBytes_append (a b : List Text) : lineBytes (a ++ b) = lineBytes a ++ lineBytes b := by
  rw [lineBytes, List.flatMap_append, Utf8.encode_append]
  rfl

/-- A cut in the bytes of some lines falls into the first of them or after it. -/
theorem prefix_lineBytes_cons {t : Text} {lines : List Text} {q : Bytes}
    (h : q <+: lineBytes (t :: lines)) (hne : q ≠ lineBytes (t :: lines)) :
    q <+: Utf8.encode t ∨
      ∃ r, q = Utf8.encode t ++ lineFeed :: r ∧ r <+: lineBytes lines ∧ r ≠ lineBytes lines := by
  rw [lineBytes_cons] at h hne
  rcases Utf8.prefix_append_cases h with ⟨hq, -⟩ | ⟨u, rfl, hu⟩
  · exact .inl hq
  · rcases List.prefix_cons_iff.mp hu with rfl | ⟨r, rfl, hr⟩
    · rw [List.append_nil]
      exact .inl (List.prefix_refl _)
    · exact .inr ⟨r, rfl, hr, fun heq => hne (by rw [heq])⟩

/-- A cut in the bytes of some lines falls into one of them. -/
theorem prefix_lineBytes {lines : List Text} {q : Bytes} (h : q <+: lineBytes lines)
    (hne : q ≠ lineBytes lines) :
    ∃ before t after u, lines = before ++ t :: after ∧ u <+: Utf8.encode t ∧
      q = lineBytes before ++ u := by
  induction lines generalizing q with
  | nil => exact absurd (List.prefix_nil.mp h) hne
  | cons t lines ih =>
      rcases prefix_lineBytes_cons h hne with hq | ⟨r, rfl, hr, hrne⟩
      · exact ⟨[], t, lines, q, rfl, hq, rfl⟩
      · obtain ⟨before, v, after, u, rfl, hu, rfl⟩ := ih hr hrne
        refine ⟨t :: before, v, after, u, rfl, hu, ?_⟩
        rw [lineBytes_cons, List.append_assoc, List.cons_append]

/-- Lines fit in memory if their bytes do. -/
theorem fitsInMemory_of_lineBytes {lines : List Text} (h : (lineBytes lines).length < 2 ^ 64) :
    ∀ t ∈ lines, t.FitsInMemory := by
  induction lines with
  | nil => exact List.forall_mem_nil _
  | cons t lines ih =>
      rw [lineBytes_cons, List.length_append, List.length_cons] at h
      refine List.forall_mem_cons.mpr ⟨?_, ih (by omega)⟩
      rw [Text.FitsInMemory]
      omega

/-- What a reader with a limit makes of a line that is sent whole. -/
def readAs (limit : UInt64) (t : Text) : LineRead :=
  if limit.toNat < (Utf8.encode t).length then .tooLong else .line t

theorem readLine_lineBytes_cons {limit : UInt64} {t : Text} (h : t.IsOneLine)
    (hfit : t.FitsInMemory) (lines : List Text) (rest : Bytes) :
    readLine limit (lineBytes (t :: lines) ++ rest) =
      (readAs limit t, lineBytes lines ++ rest) := by
  rw [lineBytes_cons, List.append_assoc, List.cons_append, readAs]
  split
  · next hlong => exact readLine_encode_tooLong h hfit hlong _
  · next hshort => exact readLine_encode h hfit (Nat.le_of_not_lt hshort) _

/-- Lines that are sent one after the other are read one after the other. -/
theorem readAll_lineBytes (limit : UInt64) {lines : List Text}
    (h : ∀ t ∈ lines, t.IsOneLine ∧ t.FitsInMemory) :
    readAll limit (lineBytes lines) = lines.map (readAs limit) ++ [.ended] := by
  induction lines with
  | nil => rw [readAll, dif_pos lineBytes_nil]; rfl
  | cons t lines ih =>
      have ht := h t List.mem_cons_self
      have hread := @readLine_lineBytes_cons limit _ ht.1 ht.2 lines []
      have hne : lineBytes (t :: lines) ≠ [] := by
        rw [lineBytes_cons]
        exact List.append_ne_nil_of_right_ne_nil _ (List.cons_ne_nil _ _)
      rw [List.append_nil, List.append_nil] at hread
      rw [readAll, dif_neg hne, hread, ih fun s hs => h s (List.mem_cons_of_mem _ hs)]
      rfl

/-! ## Whatever is read is one line -/

theorem isOneLine_decodeLossy {b : Bytes} (hcr : carriageReturn ∉ b) (hlf : lineFeed ∉ b) :
    Text.IsOneLine (Utf8.decodeLossy b) :=
  ⟨fun h => hcr (Utf8.mem_decodeLossy_ascii (by decide) (by decide) h),
    fun h => hlf (Utf8.mem_decodeLossy_ascii (by decide) (by decide) h)⟩

/-- The bytes that are kept for a line hold no line feed but their last byte. -/
theorem lineFeed_not_mem_kept (w : Nat) (bytes : Bytes) :
    lineFeed ∉ dropFinalByte lineFeed (bytes.take (extent w bytes)) := by
  rcases lineFeed_cases bytes with hlf | ⟨b, rest, hlf, rfl⟩
  · have hcut : lineFeed ∉ bytes.take (extent w bytes) := fun h => hlf (List.mem_of_mem_take h)
    rw [dropFinalByte_of_not_mem hcut]
    exact hcut
  · rw [extent_line hlf]
    rcases Nat.lt_or_ge w (b.length + 1) with hw | hw
    · have hcut : lineFeed ∉ b.take w := fun h => hlf (List.mem_of_mem_take h)
      rw [Nat.min_eq_left (by omega), List.take_append_of_le_length (by omega),
        dropFinalByte_of_not_mem hcut]
      exact hcut
    · rw [Nat.min_eq_right hw, List.take_length_add_append, List.take_one, List.head?_cons,
        Option.toList_some, dropFinalByte_concat]
      exact hlf

theorem classify_decodes {limit : UInt64} {kept : Bytes} {item : LineRead} {t : Text}
    (h : classify limit kept = some item) (ht : item = .line t ∨ item = .unterminated t) :
    t = decodeLine kept := by
  simp only [classify] at h
  split at h
  · cases h
    rcases ht with ht | ht <;> cases ht
  · split at h
    · cases h
    · split at h
      · cases h
        rcases ht with ht | ht <;> cases ht
      · split at h
        · cases h
          rcases ht with ht | ht <;> cases ht
          rfl
        · cases h
          rcases ht with ht | ht <;> cases ht
          rfl

/-- A line that has been read, of whatever bytes, has no line breaks. -/
theorem isOneLine_of_readLine {limit : UInt64} {bytes : Bytes} {t : Text}
    (h : (readLine limit bytes).1 = .line t ∨ (readLine limit bytes).1 = .unterminated t) :
    t.IsOneLine := by
  have hkept := lineFeed_not_mem_kept (window limit) bytes
  have hdecoded : t = decodeLine (bytes.take (extent (window limit) bytes)) := by
    simp only [readLine] at h
    split at h
    · next item hitem => exact classify_decodes hitem h
    · rcases h with h | h <;> cases h
  rw [hdecoded, decodeLine]
  refine isOneLine_decodeLossy (fun hm => ?_) fun hm => hkept (List.mem_filter.mp hm).1
  exact absurd (List.mem_filter.mp hm).2 (by simp)

end Wire

/-! ## The client's end of a connection -/

namespace Link

open Wire

theorem noLimit_toNat : noLimit.toNat = 2 ^ 64 - 1 := rfl

/-- A line that has arrived whole is received without the carriage returns in it. -/
theorem receive_returns {l : Link} {t : Text} {rest : Bytes} (hlf : '\n' ∉ t)
    (hfit : t.FitsInMemory) (hl : l.inbox = Utf8.encode t ++ lineFeed :: rest) :
    l.receive = (.ok (t.filter (· ≠ '\r')),
      { l with inbox := rest }.note (.received (t.filter (· ≠ '\r')))) := by
  have hlen : (Utf8.encode t).length + 1 < 2 ^ 64 := hfit
  rw [receive, hl, readLine_encode_returns hlf hfit (by rw [noLimit_toNat]; omega)]

/-- A line that has arrived whole is received. -/
theorem receive_line {l : Link} {t : Text} {rest : Bytes} (h : t.IsOneLine)
    (hfit : t.FitsInMemory) (hl : l.inbox = Utf8.encode t ++ lineFeed :: rest) :
    l.receive = (.ok t, { l with inbox := rest }.note (.received t)) := by
  have hlen : (Utf8.encode t).length + 1 < 2 ^ 64 := hfit
  rw [receive, hl, readLine_encode h hfit (by rw [noLimit_toNat]; omega)]

/-- What has arrived of a line before the end of the stream is received as if it were a line. -/
theorem receive_cut {l : Link} {t : Text} (h : t.IsOneLine) (hfit : t.FitsInMemory)
    (hcut : l.inbox <+: Utf8.encode t) (hne : l.inbox ≠ []) :
    l.receive = (.ok (Utf8.decodeLossy l.inbox),
      { l with inbox := [] }.note (.received (Utf8.decodeLossy l.inbox))) := by
  have hmax : (Utf8.encode t).length + 1 < 2 ^ 64 := hfit
  have hlen := hcut.length_le
  rw [receive, readLine_unterminated
    (fun hm => h.1 (carriageReturn_mem_encode.mp (hcut.mem hm)))
    (fun hm => h.2 (lineFeed_mem_encode.mp (hcut.mem hm))) hne
    (by rw [noLimit_toNat]; omega) (by omega)]

theorem receive_end {l : Link} (h : l.inbox = []) :
    l.receive = (.error .disconnected, l.note .ended) := by
  rw [receive, h, readLine_nil]
  cases l
  cases h
  rfl

end Link

end ToolRegistry
