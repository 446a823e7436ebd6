import Mathlib.Logic.Function.Iterate
import ToolRegistry.Wire.LineRead

/-!
# Reading lines is cutting the stream

Behind its window, its counter that stops at the greatest 64-bit number and its
loop that throws the rest of a long line away, the reader of lines does a simple
thing. It cuts the stream behind every line feed (`segments`) and makes one item
of each piece (`itemOf`): too long if more than the limit is left of it without
its line end, and its text otherwise.

The argument has two halves. The first says what one read does to bytes that are
all there. Only three things can happen in the window. It holds the whole
segment, and then `classify` sees just what `itemOf` looks at. Or the segment
goes on beyond the window, and then two bytes of line end cannot bring it back
below the limit. Or the stream ends in the window without a line feed, and the
segment may be one byte too long for `classify` to look at its end; then nothing
is left to throw away. The second half says that chunks do not matter: whatever
is moved out of them is what would have been taken off the bytes themselves
(`readChunks_flatten`), so that everything else follows from the first half.

The reader counts in 64 bits, so all of this is about segments of fewer than
2^64 bytes.
-/

namespace ToolRegistry.Wire

/-! ## Line ends -/

theorem dropFinalByte_concat (b : UInt8) (x : Bytes) : dropFinalByte b (x ++ [b]) = x := by
  rw [dropFinalByte, if_pos (by simp), List.dropLast_concat]

theorem dropFinalByte_of_not_mem {b : UInt8} {x : Bytes} (h : b ∉ x) : dropFinalByte b x = x := by
  rw [dropFinalByte, if_neg fun hl => h (List.mem_of_getLast? hl)]

theorem length_dropFinalByte_le (b : UInt8) (x : Bytes) :
    (dropFinalByte b x).length ≤ x.length := by
  rw [dropFinalByte]
  split
  · rw [List.length_dropLast]
    omega
  · exact Nat.le_refl _

theorem length_le_dropFinalByte (b : UInt8) (x : Bytes) :
    x.length ≤ (dropFinalByte b x).length + 1 := by
  rw [dropFinalByte]
  split
  · rw [List.length_dropLast]
    omega
  · omega

theorem getLast?_ne_lineFeed {b : Bytes} (hlf : lineFeed ∉ b) : b.getLast? ≠ some lineFeed :=
  fun h => hlf (List.mem_of_getLast? h)

/-- Bytes hold a line feed, and then there is a first one, or they hold none. -/
theorem lineFeed_cases (bytes : Bytes) :
    lineFeed ∉ bytes ∨ ∃ b rest, lineFeed ∉ b ∧ bytes = b ++ lineFeed :: rest := by
  by_cases h : lineFeed ∈ bytes
  · obtain ⟨b, rest, hbytes, hlf⟩ := List.eq_append_cons_of_mem h
    exact .inr ⟨b, rest, hlf, hbytes⟩
  · exact .inl h

/-! ## How far the reader goes -/

theorem ne_lineFeed {b : Bytes} (hlf : lineFeed ∉ b) : ∀ x ∈ b, decide (x ≠ lineFeed) = true :=
  fun _ hx => decide_eq_true fun h => hlf (h ▸ hx)

theorem takeWhile_lineFeed {b : Bytes} (hlf : lineFeed ∉ b) (rest : Bytes) :
    (b ++ lineFeed :: rest).takeWhile (· ≠ lineFeed) = b := by
  rw [List.takeWhile_append_of_pos (ne_lineFeed hlf), List.takeWhile_cons_of_neg (by simp),
    List.append_nil]

theorem takeWhile_append_no_lineFeed {b : Bytes} (hlf : lineFeed ∉ b) (rest : Bytes) :
    (b ++ rest).takeWhile (· ≠ lineFeed) = b ++ rest.takeWhile (· ≠ lineFeed) :=
  List.takeWhile_append_of_pos (ne_lineFeed hlf)

theorem dropWhile_append_no_lineFeed {b : Bytes} (hlf : lineFeed ∉ b) (rest : Bytes) :
    (b ++ rest).dropWhile (· ≠ lineFeed) = rest.dropWhile (· ≠ lineFeed) :=
  List.dropWhile_append_of_pos (ne_lineFeed hlf)

theorem dropWhile_lineFeed {b : Bytes} (hlf : lineFeed ∉ b) (rest : Bytes) :
    (b ++ lineFeed :: rest).dropWhile (· ≠ lineFeed) = lineFeed :: rest := by
  rw [dropWhile_append_no_lineFeed hlf, List.dropWhile_cons_of_neg (by simp)]

theorem dropWhile_no_lineFeed {b : Bytes} (hlf : lineFeed ∉ b) :
    b.dropWhile (· ≠ lineFeed) = [] := by
  have h := dropWhile_append_no_lineFeed hlf []
  rwa [List.append_nil] at h

theorem extent_line {b : Bytes} (hlf : lineFeed ∉ b) (w : Nat) (rest : Bytes) :
    extent w (b ++ lineFeed :: rest) = min w (b.length + 1) := by
  rw [extent, takeWhile_lineFeed hlf]

theorem extent_append_no_lineFeed {b : Bytes} (hlf : lineFeed ∉ b) (w : Nat) (rest : Bytes) :
    extent w (b ++ rest) =
      min w (b.length + (rest.takeWhile (· ≠ lineFeed)).length + 1) := by
  rw [extent, takeWhile_append_no_lineFeed hlf, List.length_append]

theorem extent_rest {b : Bytes} (hlf : lineFeed ∉ b) (w : Nat) :
    extent w b = min w (b.length + 1) := by
  have h := extent_append_no_lineFeed hlf w []
  rwa [List.append_nil, List.takeWhile_nil, List.length_nil, Nat.add_zero] at h

theorem skipLine_line {b : Bytes} (hlf : lineFeed ∉ b) (rest : Bytes) :
    skipLine (b ++ lineFeed :: rest) = rest := by
  rw [skipLine, dropWhile_lineFeed hlf, List.drop_one, List.tail_cons]

theorem skipLine_rest {b : Bytes} (hlf : lineFeed ∉ b) : skipLine b = [] := by
  rw [skipLine, dropWhile_no_lineFeed hlf, List.drop_nil]

/-! ## Segments -/

/-- The pieces of a stream, which is cut behind every line feed. -/
def segments : Bytes → List Bytes
  | [] => []
  | b :: rest =>
      if b = lineFeed then [b] :: segments rest
      else
        match segments rest with
        | [] => [[b]]
        | segment :: more => (b :: segment) :: more

/-- What a segment is read as. -/
def itemOf (limit : UInt64) (segment : Bytes) : LineRead :=
  if limit.toNat < (dropFinalByte carriageReturn (dropFinalByte lineFeed segment)).length then
    .tooLong
  else if segment.getLast? = some lineFeed then .line (decodeLine segment)
  else .unterminated (decodeLine segment)

@[simp]
theorem segments_nil : segments [] = [] := rfl

theorem segments_line {b : Bytes} (hlf : lineFeed ∉ b) (rest : Bytes) :
    segments (b ++ lineFeed :: rest) = (b ++ [lineFeed]) :: segments rest := by
  induction b with
  | nil => simp [segments]
  | cons x b ih =>
      obtain ⟨hx, hb⟩ := not_or.mp (mt List.mem_cons.mpr hlf)
      rw [List.cons_append, segments, if_neg (Ne.symm hx), ih hb]
      rfl

theorem segments_rest {b : Bytes} (hlf : lineFeed ∉ b) (hne : b ≠ []) : segments b = [b] := by
  induction b with
  | nil => exact absurd rfl hne
  | cons x b ih =>
      obtain ⟨hx, hb⟩ := not_or.mp (mt List.mem_cons.mpr hlf)
      rw [segments, if_neg (Ne.symm hx)]
      cases b with
      | nil => rfl
      | cons y b => rw [ih hb (List.cons_ne_nil _ _)]

/-- Nothing is lost and nothing moved by cutting. -/
theorem flatten_segments (bytes : Bytes) : (segments bytes).flatten = bytes := by
  induction bytes with
  | nil => rfl
  | cons b rest ih =>
      rw [segments]
      split
      · rw [List.flatten_cons, ih, List.singleton_append]
      · split
        · next h => rw [h] at ih; rw [← ih]; rfl
        · next h => rw [h] at ih; rw [← ih]; rfl

theorem eq_nil_of_segments {bytes : Bytes} (h : segments bytes = []) : bytes = [] := by
  rw [← flatten_segments bytes, h]
  rfl

/-- The first segment is what the stream begins with, and the others are the segments of what
follows it. -/
theorem segments_eq_cons {bytes segment : Bytes} {more : List Bytes}
    (h : segments bytes = segment :: more) :
    segment ≠ [] ∧ bytes = segment ++ more.flatten ∧ segments more.flatten = more := by
  have hbytes : bytes = segment ++ more.flatten := by
    rw [← List.flatten_cons, ← h, flatten_segments]
  rcases lineFeed_cases bytes with hlf | ⟨b, rest, hlf, rfl⟩
  · have hne : bytes ≠ [] := by
      rintro rfl
      cases h
    rw [segments_rest hlf hne] at h
    cases h
    exact ⟨hne, hbytes, rfl⟩
  · rw [segments_line hlf] at h
    cases h
    exact ⟨by simp, hbytes, by rw [flatten_segments]⟩

/-! ## One read -/

/-- What fills the window without a line feed is not looked at any further. -/
theorem classify_overfull {limit : UInt64} {kept : Bytes} (hlf : lineFeed ∉ kept)
    (hlong : saturatingAdd limit 1 < kept.length) : classify limit kept = none := by
  have hne : kept ≠ [] := by
    rintro rfl
    simp at hlong
  simp only [classify]
  rw [if_neg hne, if_pos ⟨getLast?_ne_lineFeed hlf, hlong⟩]

/-- What is looked at to its end is read as the item that it makes. -/
theorem classify_segment {limit : UInt64} {segment : Bytes} (hne : segment ≠ [])
    (hend : segment.getLast? = some lineFeed ∨ segment.length ≤ saturatingAdd limit 1) :
    classify limit segment = some (itemOf limit segment) := by
  have hwhole : ¬(¬segment.getLast? = some lineFeed ∧ saturatingAdd limit 1 < segment.length) := by
    rintro ⟨hopen, hlong⟩
    rcases hend with hend | hend
    · exact hopen hend
    · omega
  simp only [classify, itemOf]
  rw [if_neg hne, if_neg hwhole]
  split
  · rfl
  · split <;> rfl

/-- A line end is two bytes at most. -/
theorem itemOf_overfull {limit : UInt64} {segment b : Bytes}
    (hb : dropFinalByte lineFeed segment = b) (hlong : limit.toNat + 1 < b.length) :
    itemOf limit segment = .tooLong := by
  have hlen := length_le_dropFinalByte carriageReturn b
  rw [itemOf, hb, if_pos (by omega)]

theorem readLine_terminated {limit : UInt64} {b : Bytes} (hlf : lineFeed ∉ b)
    (hfit : limit.toNat + 2 < 2 ^ 64 ∨ b.length + 1 < 2 ^ 64) (rest : Bytes) :
    readLine limit (b ++ lineFeed :: rest) = (itemOf limit (b ++ [lineFeed]), rest) := by
  simp only [readLine]
  rw [extent_line hlf]
  rcases Nat.lt_or_ge (window limit) (b.length + 1) with hw | hw
  · -- The window ends before the line feed, so it is not cut short at 2^64 - 1.
    have hlong : limit.toNat + 1 < b.length := by
      rw [window, saturatingAdd] at hw
      omega
    have hkept : lineFeed ∉ b.take (window limit) := fun h => hlf (List.mem_of_mem_take h)
    have hnone : classify limit (b.take (window limit)) = none := by
      refine classify_overfull hkept ?_
      rw [List.length_take]
      simp only [window, saturatingAdd] at hw ⊢
      omega
    rw [Nat.min_eq_left (by omega), List.take_append_of_le_length (by omega),
      List.drop_append_of_le_length (by omega), hnone,
      itemOf_overfull (dropFinalByte_concat lineFeed b) hlong]
    simp only [skipLine_line fun h => hlf (List.mem_of_mem_drop h)]
  · rw [Nat.min_eq_right hw, List.take_length_add_append, List.drop_length_add_append,
      List.take_one, List.head?_cons, Option.toList_some, List.drop_one, List.tail_cons,
      classify_segment (by simp) (.inl (by simp))]

theorem readLine_unended {limit : UInt64} {b : Bytes} (hlf : lineFeed ∉ b) (hne : b ≠ [])
    (hfit : b.length < 2 ^ 64) : readLine limit b = (itemOf limit b, []) := by
  simp only [readLine]
  rw [extent_rest hlf]
  have hrest : lineFeed ∉ b.drop (min (window limit) (b.length + 1)) :=
    fun h => hlf (List.mem_of_mem_drop h)
  have hkept : lineFeed ∉ b.take (min (window limit) (b.length + 1)) :=
    fun h => hlf (List.mem_of_mem_take h)
  rcases Nat.lt_or_ge (saturatingAdd limit 1) b.length with hlong | hshort
  · -- The stream ends, but `classify` does not know it and gives up.
    have hnone : classify limit (b.take (min (window limit) (b.length + 1))) = none := by
      refine classify_overfull hkept ?_
      rw [List.length_take]
      simp only [window, saturatingAdd] at hlong ⊢
      omega
    have hmore : limit.toNat + 1 < b.length := by
      rw [saturatingAdd] at hlong
      omega
    rw [hnone, itemOf_overfull (dropFinalByte_of_not_mem hlf) hmore]
    simp only [skipLine_rest hrest]
  · have hall : b.length ≤ min (window limit) (b.length + 1) := by
      simp only [window, saturatingAdd] at hshort ⊢
      omega
    rw [List.take_of_length_le hall, List.drop_eq_nil_of_le hall,
      classify_segment hne (.inr hshort)]

/-- One read takes one segment off the stream and yields its item. -/
theorem readLine_segment {limit : UInt64} {bytes segment : Bytes} {more : List Bytes}
    (hfit : segment.length < 2 ^ 64) (h : segments bytes = segment :: more) :
    readLine limit bytes = (itemOf limit segment, more.flatten) := by
  rcases lineFeed_cases bytes with hlf | ⟨b, rest, hlf, rfl⟩
  · have hne : bytes ≠ [] := by
      rintro rfl
      cases h
    rw [segments_rest hlf hne] at h
    cases h
    exact readLine_unended hlf hne hfit
  · rw [segments_line hlf] at h
    cases h
    rw [List.length_append, List.length_singleton] at hfit
    rw [readLine_terminated hlf (.inr hfit), flatten_segments]

theorem readLine_segments {limit : UInt64} {bytes segment : Bytes} {more : List Bytes}
    (hfit : bytes.length < 2 ^ 64) (h : segments bytes = segment :: more) :
    readLine limit bytes = (itemOf limit segment, more.flatten) := by
  obtain ⟨-, hbytes, -⟩ := segments_eq_cons h
  rw [hbytes, List.length_append] at hfit
  exact readLine_segment (Nat.lt_of_le_of_lt (Nat.le_add_right _ _) hfit) h

theorem readAll_segments (limit : UInt64) {bytes : Bytes} (hfit : bytes.length < 2 ^ 64) :
    readAll limit bytes = (segments bytes).map (itemOf limit) ++ [.ended] := by
  induction bytes using readAll.induct limit with
  | case1 =>
      rw [readAll, dif_pos rfl]
      rfl
  | case2 bytes hne ih =>
      have hlen := @readLine_length_lt limit _ hne
      have ih := ih (Nat.lt_trans hlen hfit)
      rw [readAll, dif_neg hne]
      cases hseg : segments bytes with
      | nil => exact absurd (eq_nil_of_segments hseg) hne
      | cons segment more =>
          obtain ⟨-, -, hmore⟩ := segments_eq_cons hseg
          rw [readLine_segments hfit hseg, hmore] at ih
          rw [readLine_segments hfit hseg, ih]
          rfl

/-! ## Chunks -/

/-- What is moved out of chunks is what would be taken off their bytes. -/
theorem fill_flatten (w : Nat) (chunks : List Bytes) :
    (fill w chunks).1 = chunks.flatten.take (extent w chunks.flatten) ∧
      (fill w chunks).2.flatten = chunks.flatten.drop (extent w chunks.flatten) := by
  induction chunks generalizing w with
  | nil => simp [fill]
  | cons chunk chunks ih =>
      simp only [fill, List.flatten_cons]
      split
      · next hn =>
          -- The chunk holds a line feed or the end of the window, so what follows it is not seen.
          have hext : extent w (chunk ++ chunks.flatten) = extent w chunk := by
            rcases lineFeed_cases chunk with hlf | ⟨b, rest, hlf, rfl⟩
            · rw [extent_rest hlf] at hn ⊢
              rw [extent_append_no_lineFeed hlf]
              omega
            · rw [List.append_assoc, List.cons_append, extent_line hlf, extent_line hlf]
          rw [hext, List.take_append_of_le_length hn, List.drop_append_of_le_length hn,
            List.flatten_cons]
          exact ⟨rfl, rfl⟩
      · next hn =>
          have hlf : lineFeed ∉ chunk := by
            rcases lineFeed_cases chunk with hlf | ⟨b, rest, hlf, rfl⟩
            · exact hlf
            · rw [extent_line hlf, List.length_append, List.length_cons] at hn
              omega
          have hext : extent w (chunk ++ chunks.flatten) =
              chunk.length + extent (w - chunk.length) chunks.flatten := by
            rw [extent_rest hlf] at hn
            rw [extent_append_no_lineFeed hlf, extent]
            omega
          obtain ⟨hkept, hleft⟩ := ih (w - chunk.length)
          rw [hext, List.take_length_add_append, List.drop_length_add_append, hkept, hleft]
          exact ⟨rfl, rfl⟩

theorem skipChunks_flatten (chunks : List Bytes) :
    (skipChunks chunks).flatten = skipLine chunks.flatten := by
  induction chunks with
  | nil => rfl
  | cons chunk chunks ih =>
      rw [List.flatten_cons, skipChunks.eq_def]
      rcases lineFeed_cases chunk with hlf | ⟨b, rest, hlf, rfl⟩
      · simp only [dropWhile_no_lineFeed hlf, ih]
        rw [skipLine, skipLine, dropWhile_append_no_lineFeed hlf]
      · simp only [dropWhile_lineFeed hlf, List.append_assoc, List.cons_append,
          skipLine_line hlf, List.flatten_cons]

/-- A read out of chunks is a read off their bytes. -/
theorem readChunks_flatten (limit : UInt64) (chunks : List Bytes) :
    (readChunks limit chunks).1 = (readLine limit chunks.flatten).1 ∧
      (readChunks limit chunks).2.flatten = (readLine limit chunks.flatten).2 := by
  obtain ⟨hkept, hleft⟩ := fill_flatten (window limit) chunks
  simp only [readChunks, readLine, hkept]
  split
  · exact ⟨rfl, hleft⟩
  · exact ⟨rfl, by rw [skipChunks_flatten, hleft]⟩

theorem readAllChunks_flatten (limit : UInt64) (chunks : List Bytes) :
    readAllChunks limit chunks = readAll limit chunks.flatten := by
  induction chunks using readAllChunks.induct limit with
  | case1 chunks hdrained =>
      have hnil : chunks.flatten = [] := List.length_eq_zero_iff.mp (isDrained_iff.mp hdrained)
      rw [readAllChunks, dif_pos hdrained, readAll, dif_pos hnil]
  | case2 chunks hmore ih =>
      have hne : chunks.flatten ≠ [] :=
        fun hnil => hmore (isDrained_iff.mpr (List.length_eq_zero_iff.mpr hnil))
      obtain ⟨hitem, hleft⟩ := readChunks_flatten limit chunks
      rw [readAllChunks, dif_neg hmore, readAll, dif_neg hne, ih, hitem, hleft]

/-! ## One read after the other -/

/-- What is left in the chunks after a number of reads. -/
def leftAfter (limit : UInt64) (reads : Nat) (chunks : List Bytes) : List Bytes :=
  (fun c => (readChunks limit c).2)^[reads] chunks

theorem leftAfter_succ (limit : UInt64) (reads : Nat) (chunks : List Bytes) :
    leftAfter limit (reads + 1) chunks = (readChunks limit (leftAfter limit reads chunks)).2 :=
  Function.iterate_succ_apply' _ _ _

/-- After some reads what is left is the segments that have not been read. -/
theorem flatten_leftAfter (limit : UInt64) {chunks : List Bytes}
    (hfit : chunks.flatten.length < 2 ^ 64) (reads : Nat) :
    (leftAfter limit reads chunks).flatten.length < 2 ^ 64 ∧
      segments (leftAfter limit reads chunks).flatten = (segments chunks.flatten).drop reads := by
  induction reads with
  | zero => exact ⟨hfit, rfl⟩
  | succ reads ih =>
      obtain ⟨hfit, hdrop⟩ := ih
      obtain ⟨-, hleft⟩ := readChunks_flatten limit (leftAfter limit reads chunks)
      rw [leftAfter_succ, hleft, ← List.drop_drop, ← hdrop]
      cases hseg : segments (leftAfter limit reads chunks).flatten with
      | nil =>
          rw [eq_nil_of_segments hseg, readLine_nil]
          exact ⟨by decide, rfl⟩
      | cons segment more =>
          obtain ⟨-, hbytes, hmore⟩ := segments_eq_cons hseg
          rw [hbytes, List.length_append] at hfit
          rw [readLine_segments (by rw [hbytes, List.length_append]; exact hfit) hseg]
          exact ⟨show more.flatten.length < 2 ^ 64 by omega, hmore⟩

/-- Whatever the bytes are and however they come in chunks, reading lines yields the items of the
segments in order and then the end. Every read takes exactly the segment of its item, which is
never empty, so that nothing of a line that is too long is taken for a line of its own. -/
theorem readAllChunks_segments (limit : UInt64) {chunks : List Bytes}
    (hfit : chunks.flatten.length < 2 ^ 64) :
    readAllChunks limit chunks = (segments chunks.flatten).map (itemOf limit) ++ [.ended] ∧
      readAll limit chunks.flatten = readAllChunks limit chunks ∧
      ∀ reads,
        match (segments chunks.flatten)[reads]? with
        | some segment =>
            (readChunks limit (leftAfter limit reads chunks)).1 = itemOf limit segment ∧
              (leftAfter limit reads chunks).flatten =
                segment ++ (leftAfter limit (reads + 1) chunks).flatten ∧
              0 < segment.length
        | none =>
            (readChunks limit (leftAfter limit reads chunks)).1 = .ended ∧
              (leftAfter limit reads chunks).flatten = [] := by
  refine ⟨?_, (readAllChunks_flatten limit chunks).symm, fun reads => ?_⟩
  · rw [readAllChunks_flatten, readAll_segments limit hfit]
  obtain ⟨hfit, hdrop⟩ := flatten_leftAfter limit hfit reads
  obtain ⟨hitem, hleft⟩ := readChunks_flatten limit (leftAfter limit reads chunks)
  rw [leftAfter_succ, hitem, hleft, ← List.head?_drop, ← hdrop]
  cases hseg : segments (leftAfter limit reads chunks).flatten with
  | nil =>
      rw [eq_nil_of_segments hseg, readLine_nil]
      exact ⟨rfl, rfl⟩
  | cons segment more =>
      obtain ⟨hne, hbytes, -⟩ := segments_eq_cons hseg
      rw [readLine_segments hfit hseg]
      exact ⟨rfl, hbytes, List.length_pos_iff.mpr hne⟩

/-- With a limit of two bytes: a line of that length whose line end is torn apart, a line of three
bytes, one that is longer than the window and whose line feed begins a chunk, an empty line, and
two bytes and a carriage return at the end of the stream. -/
theorem readAllChunks_segments_torn :
    let chunks : List Bytes :=
      [[97, 98, 13], [10, 97, 98, 99, 13], [10], [97, 98, 99, 100, 101, 102], [10, 10, 97], [98, 13]]
    chunks.flatten.length < 2 ^ 64 ∧
      readAllChunks 2 chunks =
        [.line "ab", .tooLong, .tooLong, .line "", .unterminated "ab", .ended] ∧
      readAll 2 chunks.flatten = readAllChunks 2 chunks ∧
      (readChunks 2 (leftAfter 2 2 chunks)).1 = .tooLong ∧
      (leftAfter 2 2 chunks).flatten =
        [97, 98, 99, 100, 101, 102, 10] ++ (leftAfter 2 3 chunks).flatten := by
  intro chunks
  obtain ⟨hitems, hbytes, hreads⟩ := @readAllChunks_segments 2 chunks (by decide)
  obtain ⟨hitem, hleft, -⟩ := hreads 2
  exact ⟨by decide, hitems.trans (by decide), hbytes, hitem, hleft⟩

end ToolRegistry.Wire
