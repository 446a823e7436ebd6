import ToolRegistry.Proofs.Exchanges

/-!
# A body ends where its sender ended it

A body is read line by line until the terminator, so three things have to be
right: no line of the body is sent as the terminator, every line is read as it
was before dots were put in front of it, and reading stops behind the
terminator, whatever bytes come next. Then the bytes of a body tell the body
and their own length (`bodyBytes_append_inj`): a body is never the beginning of
another one.

None of the lines may hold a line feed, or the bytes would be those of another
body. A carriage return would leave the bytes of two bodies apart, but the
reader drops it, so the lines are taken to hold none either.
-/

namespace ToolRegistry.Wire

/-! ## Cancelling -/

theorem stuff_injective : Function.Injective stuff :=
  Function.LeftInverse.injective unstuff_stuff

/-- Two lines that go on in some way and are the same bytes are the same line. -/
theorem line_append_inj {s t : Text} (hs : '\n' ∉ s) (ht : '\n' ∉ t) {u v : Bytes}
    (h : Utf8.encode s ++ lineFeed :: u = Utf8.encode t ++ lineFeed :: v) : s = t ∧ u = v := by
  have hsBytes : lineFeed ∉ Utf8.encode s := mt lineFeed_mem_encode.mp hs
  have htBytes : lineFeed ∉ Utf8.encode t := mt lineFeed_mem_encode.mp ht
  constructor
  · have hline := congrArg (List.takeWhile (· ≠ lineFeed)) h
    rw [takeWhile_lineFeed hsBytes, takeWhile_lineFeed htBytes] at hline
    exact Utf8.encode_injective hline
  · have hrest := congrArg skipLine h
    rwa [skipLine_line hsBytes, skipLine_line htBytes] at hrest

namespace Reply

open Exchange

/-- The bytes that a body adds to a reply. -/
def bodyBytes (body : List Text) : Bytes := lineBytes (bodyLines body)

theorem bodyBytes_nil : bodyBytes [] = Utf8.encode terminator ++ [lineFeed] := rfl

theorem bodyBytes_cons (t : Text) (body : List Text) :
    bodyBytes (t :: body) = Utf8.encode (stuff t) ++ lineFeed :: bodyBytes body :=
  lineBytes_cons (stuff t) (bodyLines body)

theorem encode_withBody (r : Reply) (body : List Text) :
    Utf8.encode (r.withBody body).encode = Utf8.encode r.encode ++ bodyBytes body := by
  show lineBytes (r.lines ++ body.map stuff ++ [terminator]) = _
  rw [List.append_assoc, lineBytes_append]
  rfl

/-- The bytes of a body tell the body and where it ends. -/
theorem bodyBytes_append_inj {body other : List Text} (hbody : ∀ t ∈ body, t.IsOneLine)
    (hother : ∀ t ∈ other, t.IsOneLine) {u v : Bytes}
    (h : bodyBytes body ++ u = bodyBytes other ++ v) : body = other ∧ u = v := by
  have hend : '\n' ∉ terminator := by decide
  induction body generalizing other with
  | nil =>
      cases other with
      | nil => exact ⟨rfl, List.append_cancel_left h⟩
      | cons t other =>
          rw [bodyBytes_nil, bodyBytes_cons, List.append_assoc, List.append_assoc] at h
          have ht := isOneLine_stuff (hother t List.mem_cons_self)
          exact absurd (line_append_inj hend ht.2 h).1.symm (stuff_ne_terminator t)
  | cons s body ih =>
      obtain ⟨hs, hbody⟩ := List.forall_mem_cons.mp hbody
      cases other with
      | nil =>
          rw [bodyBytes_nil, bodyBytes_cons, List.append_assoc, List.append_assoc] at h
          exact absurd (line_append_inj (isOneLine_stuff hs).2 hend h).1 (stuff_ne_terminator s)
      | cons t other =>
          obtain ⟨ht, hother⟩ := List.forall_mem_cons.mp hother
          rw [bodyBytes_cons, bodyBytes_cons, List.append_assoc, List.append_assoc] at h
          obtain ⟨hline, hrest⟩ := line_append_inj (isOneLine_stuff hs).2 (isOneLine_stuff ht).2 h
          obtain ⟨rfl, hsame⟩ := ih hbody hother hrest
          exact ⟨by rw [stuff_injective hline], hsame⟩

/-! ## Reading -/

/-- The bytes that a body of whole lines adds to a reply are read as that body, and what follows
them is left unread; a line in the form in which it is sent must be one that a program can hold.
None of the lines is sent as the terminator, and the bytes are not those of another body, nor the
beginning of them. -/
theorem body_round_trip {body : List Text} (hline : ∀ t ∈ body, t.IsOneLine) {ω : Type} :
    (∀ r : Reply, Utf8.encode (r.withBody body).encode =
      Utf8.encode r.encode ++ bodyBytes body) ∧
    ((∀ t ∈ body, (stuff t).FitsInMemory) → ∀ (rest : Bytes) (listening : Bool) (w : ω),
      (readBody : Exchange ω (List Text)).Leads ⟨bodyBytes body ++ rest, listening, w⟩ (.ok body)
        ⟨rest, listening, w⟩) ∧
    terminator ∉ body.map stuff ∧
    ∀ other : List Text, (∀ t ∈ other, t.IsOneLine) → ∀ u v : Bytes,
      bodyBytes body ++ u = bodyBytes other ++ v → body = other ∧ u = v := by
  refine ⟨fun r => encode_withBody r body, ?_, ?_, ?_⟩
  · intro hfit rest listening w
    refine Leads.readBody hline ?_
    rw [bodyLines]
    refine List.forall_mem_append.mpr ⟨List.forall_mem_map.mpr hfit, ?_⟩
    exact List.forall_mem_singleton.mpr (by decide)
  · intro hmem
    obtain ⟨t, -, ht⟩ := List.mem_map.mp hmem
    exact stuff_ne_terminator t ht
  · intro other hother u v h
    exact bodyBytes_append_inj hline hother h

/-- An empty line and lines of nothing but dots, with one more dot right behind the body. -/
theorem body_round_trip_dots :
    (readBody : Exchange Unit (List Text)).Leads
      ⟨Utf8.encode "\n..\n...\n....x\n\u00E9\n.\n.\n+OK".toList, true, ()⟩
      (.ok ["", ".", "..", "...x", "\u00E9"]) ⟨Utf8.encode ".\n+OK".toList, true, ()⟩ ∧
    bodyBytes [] ≠ bodyBytes ["."] := by
  constructor
  · obtain ⟨-, hread, -, -⟩ := body_round_trip (ω := Unit)
      (show ∀ t ∈ (["", ".", "..", "...x", "\u00E9"] : List Text), t.IsOneLine by decide)
    exact hread (by decide) (Utf8.encode ".\n+OK".toList) true ()
  · intro h
    obtain ⟨-, -, -, hsame⟩ := body_round_trip (ω := Unit)
      (show ∀ t ∈ ([] : List Text), t.IsOneLine by decide)
    have hbody := (hsame ["."] (by decide) [] [] (congrArg (· ++ []) h)).1
    exact absurd hbody (by decide)

end Reply

end ToolRegistry.Wire
