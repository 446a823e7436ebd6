import ToolRegistry.Text.Utf8

/-!
# Reading lines

Both ends of a connection read lines that end in a line feed. A carriage
return in front of it does not count towards the length of the line, every
carriage return is dropped, and the bytes are decoded forgivingly, so any
bytes make a line.

A peer may never send a line feed, so what is kept in memory is bounded. The
reader looks at a *window* of the limit and two more bytes, enough for a line
of exactly that length with its line end. Either the window holds the end of
the line, or the bytes end inside it, or the line is too long whatever
follows; in the last case the rest of the line is skipped unread, so that its
tail is never mistaken for a line of its own.

Bytes reach a reader in chunks that fall where they may. `readLine` reads
from bytes that are all there, and `readChunks` from a list of chunks, which
it empties one after the other. Both decide by the same rule, `classify`, on
the bytes of the window.
-/

namespace ToolRegistry.Wire

/-- What reading one line can yield. -/
inductive LineRead where
  /-- A line that ended in a line feed. -/
  | line (t : Text)
  /-- What stood after the last line feed when the bytes ended. -/
  | unterminated (t : Text)
  /-- A line beyond the limit, which has been skipped. -/
  | tooLong
  /-- The bytes ended between two lines. -/
  | ended
deriving DecidableEq, Repr

/-- The byte that ends a line. -/
def lineFeed : UInt8 := 10

/-- The byte that may stand before it. -/
def carriageReturn : UInt8 := 13

/-- The bytes without one final `b`, if they end in one. -/
def dropFinalByte (b : UInt8) (bytes : Bytes) : Bytes :=
  if bytes.getLast? = some b then bytes.dropLast else bytes

/-- The text of a line: without its line feed and without any carriage return. -/
def decodeLine (bytes : Bytes) : Text :=
  Utf8.decodeLossy ((dropFinalByte lineFeed bytes).filter (· ≠ carriageReturn))

/-! ## The window -/

/-- `limit + n`, or the greatest 64-bit number if that is less. -/
def saturatingAdd (limit : UInt64) (n : Nat) : Nat := min (limit.toNat + n) (2 ^ 64 - 1)

/-- How many bytes of the window are kept for a line: the limit and a line end. -/
def window (limit : UInt64) : Nat := saturatingAdd limit 2

theorem window_pos (limit : UInt64) : 0 < window limit := by
  simp only [window, saturatingAdd]; omega

/-- How far a line goes at most: up to its line feed, and not beyond the window. -/
def extent (window : Nat) (bytes : Bytes) : Nat :=
  min window ((bytes.takeWhile (· ≠ lineFeed)).length + 1)

/-- What the bytes of a window amount to; `none` if the line goes on beyond the limit. -/
def classify (limit : UInt64) (kept : Bytes) : Option LineRead :=
  let complete := kept.getLast? = some lineFeed
  let body := dropFinalByte carriageReturn (dropFinalByte lineFeed kept)
  if kept = [] then some .ended
  else if ¬complete ∧ saturatingAdd limit 1 < kept.length then none
  else if limit.toNat < body.length then some .tooLong
  else if complete then some (.line (decodeLine kept))
  else some (.unterminated (decodeLine kept))

/-! ## Reading from bytes -/

/-- The bytes after the next line feed. -/
def skipLine (bytes : Bytes) : Bytes := (bytes.dropWhile (· ≠ lineFeed)).drop 1

/-- Reads one line of at most `limit` bytes and leaves what follows it. -/
def readLine (limit : UInt64) (bytes : Bytes) : LineRead × Bytes :=
  let n := extent (window limit) bytes
  match classify limit (bytes.take n) with
  | some item => (item, bytes.drop n)
  | none => (.tooLong, skipLine (bytes.drop n))

theorem length_skipLine_le (bytes : Bytes) : (skipLine bytes).length ≤ bytes.length := by
  have h : (bytes.dropWhile (· ≠ lineFeed)).length ≤ bytes.length :=
    (List.dropWhile_suffix _).length_le
  simp only [skipLine, List.length_drop]
  omega

theorem extent_pos {window : Nat} (h : 0 < window) (bytes : Bytes) : 0 < extent window bytes := by
  simp only [extent]; omega

@[simp]
theorem readLine_nil (limit : UInt64) : readLine limit [] = (.ended, []) := by
  simp [readLine, classify, extent]

/-- Reading takes at least one byte, as long as there is one. -/
theorem readLine_length_lt {limit : UInt64} {bytes : Bytes} (h : bytes ≠ []) :
    (readLine limit bytes).2.length < bytes.length := by
  have hn := extent_pos (window_pos limit) bytes
  have hb := List.length_pos_iff.mpr h
  have hd : (bytes.drop (extent (window limit) bytes)).length < bytes.length := by
    simp only [List.length_drop]; omega
  simp only [readLine]
  split
  next => exact hd
  next => exact Nat.lt_of_le_of_lt (length_skipLine_le _) hd

/-- Everything that reading yields, up to the end of the bytes. -/
def readAll (limit : UInt64) (bytes : Bytes) : List LineRead :=
  if _h : bytes = [] then [.ended]
  else (readLine limit bytes).1 :: readAll limit (readLine limit bytes).2
termination_by bytes.length
decreasing_by exact readLine_length_lt _h

/-! ## Reading from chunks -/

/-- Moves bytes out of the chunks until a line feed has been moved, the window is full, or there
are no more. A chunk that holds neither the line feed nor the end of the window is moved whole. -/
def fill (window : Nat) : List Bytes → Bytes × List Bytes
  | [] => ([], [])
  | chunk :: rest =>
      let n := extent window chunk
      if n ≤ chunk.length then (chunk.take n, chunk.drop n :: rest)
      else
        let (more, left) := fill (window - chunk.length) rest
        (chunk ++ more, left)

/-- Empties chunks up to and including the next line feed. -/
def skipChunks : List Bytes → List Bytes
  | [] => []
  | chunk :: rest =>
      match chunk.dropWhile (· ≠ lineFeed) with
      | _ :: left => left :: rest
      | [] => skipChunks rest

/-- Reads one line of at most `limit` bytes out of chunks. -/
def readChunks (limit : UInt64) (chunks : List Bytes) : LineRead × List Bytes :=
  let (kept, rest) := fill (window limit) chunks
  match classify limit kept with
  | some item => (item, rest)
  | none => (.tooLong, skipChunks rest)

/-- How many bytes the chunks hold. -/
def held (chunks : List Bytes) : Nat := chunks.flatten.length

theorem held_fill (window : Nat) (chunks : List Bytes) :
    (fill window chunks).1.length + held (fill window chunks).2 = held chunks := by
  induction chunks generalizing window with
  | nil => rfl
  | cons chunk rest ih =>
      simp only [fill]
      split
      next =>
        simp only [held, List.flatten_cons, List.length_append, List.length_take, List.length_drop]
        omega
      next =>
        have hi := ih (window - chunk.length)
        simp only [held, List.flatten_cons, List.length_append] at hi ⊢
        omega

theorem fill_ne_nil {window : Nat} {chunks : List Bytes} (hw : 0 < window)
    (hc : 0 < held chunks) : 0 < (fill window chunks).1.length := by
  induction chunks generalizing window with
  | nil => simp [held] at hc
  | cons chunk rest ih =>
      have he := extent_pos hw chunk
      simp only [fill]
      split
      next => simp only [List.length_take]; omega
      next hn =>
        simp only [List.length_append]
        by_cases hchunk : chunk.length = 0
        · have hi : 0 < (fill (window - chunk.length) rest).1.length := ih (by omega) (by
            simp only [held, List.flatten_cons, List.length_append] at hc ⊢; omega)
          omega
        · omega

theorem held_skipChunks_le (chunks : List Bytes) : held (skipChunks chunks) ≤ held chunks := by
  induction chunks with
  | nil => exact Nat.le_refl _
  | cons chunk rest ih =>
      simp only [skipChunks]
      split
      next c left hd =>
        have h : (chunk.dropWhile (· ≠ lineFeed)).length ≤ chunk.length :=
          (List.dropWhile_suffix _).length_le
        rw [hd] at h
        simp only [held, List.flatten_cons, List.length_append, List.length_cons] at h ⊢
        omega
      next =>
        simp only [held, List.flatten_cons, List.length_append] at ih ⊢
        omega

/-- Reading takes at least one byte out of the chunks, as long as there is one. -/
theorem held_readChunks_lt {limit : UInt64} {chunks : List Bytes} (h : held chunks ≠ 0) :
    held (readChunks limit chunks).2 < held chunks := by
  have h1 := held_fill (window limit) chunks
  have h2 := fill_ne_nil (window_pos limit) (Nat.pos_of_ne_zero h)
  simp only [readChunks]
  split
  next => simp only; omega
  next =>
    have h3 := held_skipChunks_le (fill (window limit) chunks).2
    simp only; omega

/-- Whether the chunks hold no more bytes. -/
def isDrained (chunks : List Bytes) : Bool := chunks.all List.isEmpty

theorem isDrained_iff {chunks : List Bytes} : isDrained chunks ↔ held chunks = 0 := by
  induction chunks with
  | nil => simp [isDrained, held]
  | cons chunk rest ih =>
      simp only [isDrained, held, List.all_cons, List.flatten_cons, List.length_append,
        Bool.and_eq_true, List.isEmpty_iff, Nat.add_eq_zero_iff, List.length_eq_zero_iff] at ih ⊢
      rw [ih]

/-- Everything that reading out of chunks yields, up to the end of the bytes. -/
def readAllChunks (limit : UInt64) (chunks : List Bytes) : List LineRead :=
  if _h : isDrained chunks then [.ended]
  else (readChunks limit chunks).1 :: readAllChunks limit (readChunks limit chunks).2
termination_by held chunks
decreasing_by exact held_readChunks_lt (mt isDrained_iff.mpr _h)

end ToolRegistry.Wire
