import ToolRegistry.Toml.Quoted

/-!
# A string that is written is read back

Which of the four forms a string is written in is decided by its characters,
and which one it is read in by the quotes it begins with. So there is one lemma
for each form, and each is an induction on the text: what is written for a
character is read as that character, and the reader then stands where the rest
is written.

Two things can go wrong. A form on several lines drops a line end behind its
opening quotes, which must not be one of the text. It is not, because a text
with line ends has one put in front, and one without begins with none. And
three quotes in a row end such a form. A text without three quotes in a row
cannot make them, unless it ends in one or two, which then stand in front of
the closing ones; the reader gives up to two of the last five back (`closing`).

The reader must not find a further quote behind the closing ones. In a document
there is a line end.
-/

namespace ToolRegistry.Toml

open Text

/-- A text that does not go on with a quote. -/
def EndsString (t : Text) : Prop := ∀ c ∈ t.head?, c ≠ '"' ∧ c ≠ '\x27'

theorem endsString_lineEnd (t : Text) : EndsString ('\n' :: t) := by
  rintro c ⟨⟩
  decide

@[simp]
theorem keep_some (c : Char) (t rest : Text) : keep c (some (t, rest)) = some (c :: t, rest) := rfl

/-! ## Characters -/

/-- A character with a number of two digits is written in four and read back from them. -/
theorem numbered?_upperHex {c : Char} (h : c.toNat < 128) (rest : Text) :
    numbered? 4 (Digits.upperHex 4 c.toNat ++ rest) = some c ∧
      (Digits.upperHex 4 c.toNat).length = 4 := by
  have hall : ∀ n < 128, (Digits.upperHex 4 n).length = 4 ∧
      Digits.value? 16 (Digits.upperHex 4 n) = some n ∧ Nat.isValidChar n := by decide +kernel
  obtain ⟨hlength, hvalue, hvalid⟩ := hall c.toNat h
  refine ⟨?_, hlength⟩
  have hlong : ¬(Digits.upperHex 4 c.toNat ++ rest).length < 4 := by
    rw [List.length_append]
    omega
  rw [numbered?, if_neg hlong, List.take_left' hlength]
  simp only [hvalue, Option.bind_eq_bind, Option.bind_some]
  rw [if_pos hvalid, Char.ofNat_toNat]

/-- A character between double quotes is written as itself, and then it means nothing else, or as
an escape. -/
theorem escaped_cases (c : Char) :
    (escaped c = [c] ∧ isPlain c = true ∧ c ≠ '"' ∧ c ≠ '\\') ∨
      ∃ d body, escaped c = '\\' :: d :: body ∧ isBlank d = false ∧ d ≠ '\n' ∧ d ≠ '\r' ∧
        ∀ rest, escape? (d :: body ++ rest) = some (c, (d :: body).length) := by
  rw [escaped.eq_def]
  split
  case h_8 hb ht hn hf hr hq hs =>
    cases hc : isControl c with
    | false =>
        left
        rw [if_neg Bool.false_ne_true]
        refine ⟨rfl, ?_, hq, hs⟩
        simpa [isPlain, hc] using hn
    | true =>
        right
        have hsmall : c.toNat < 128 := by
          simp only [isControl, Bool.or_eq_true, Bool.and_eq_true, decide_eq_true_eq,
            beq_iff_eq] at hc
          omega
        have hhex := numbered?_upperHex hsmall
        refine ⟨'u', Digits.upperHex 4 c.toNat, rfl, by decide, by decide, by decide,
          fun rest => ?_⟩
        rw [List.cons_append, escape?, (hhex rest).1, List.length_cons, (hhex rest).2]
        rfl
  all_goals
    right
    exact ⟨_, [], rfl, by decide, by decide, by decide, fun _ => rfl⟩

theorem head?_escaped {c d : Char} {rest : Text} (hd : (escaped c ++ rest).head? = some d) :
    d ≠ '"' ∧ d ≠ '\n' ∧ d ≠ '\r' := by
  rcases escaped_cases c with ⟨hself, hplain, hq, -⟩ | ⟨e, body, hbody, -⟩
  · rw [hself] at hd
    cases hd
    refine ⟨hq, ?_, ?_⟩ <;> rintro rfl <;> cases hplain
  · rw [hbody] at hd
    cases hd
    decide

/-! ## Between double quotes -/

theorem basicFrom_skip (skipped rest : Text) :
    basicFrom skipped.length (skipped ++ rest) = basicFrom 0 rest := by
  induction skipped with
  | nil => rfl
  | cons c skipped ih =>
      rw [List.length_cons, List.cons_append, basicFrom]
      exact ih

/-- What is written for a character is read as that character. -/
theorem basicFrom_escaped (c : Char) (rest : Text) :
    basicFrom 0 (escaped c ++ rest) = keep c (basicFrom 0 rest) := by
  rcases escaped_cases c with ⟨hself, hplain, hq, hs⟩ | ⟨d, body, hbody, -, -, -, hescape⟩
  · rw [hself, List.singleton_append, basicFrom, if_neg hq, if_neg hs, if_pos hplain]
  · have hskip := basicFrom_skip (d :: body) rest
    rw [hbody, List.cons_append, basicFrom, if_neg (by decide), if_pos rfl, hescape rest]
    simp only [hskip]

theorem basicFrom_flatMap (t rest : Text) :
    basicFrom 0 (t.flatMap escaped ++ '"' :: rest) = some (t, rest) := by
  induction t with
  | nil =>
      rw [List.flatMap_nil, List.nil_append, basicFrom, if_pos rfl]
  | cons c t ih =>
      rw [List.flatMap_cons, List.append_assoc, basicFrom_escaped, ih, keep_some]

/-! ## Between single quotes -/

theorem literalFrom_append {t : Text} (hplain : ∀ c ∈ t, isPlain c = true) (hq : '\x27' ∉ t)
    (rest : Text) : literalFrom (t ++ '\x27' :: rest) = some (t, rest) := by
  induction t with
  | nil => rw [List.nil_append, literalFrom, if_pos rfl]
  | cons c t ih =>
      obtain ⟨hc, hplain⟩ := List.forall_mem_cons.mp hplain
      obtain ⟨hne, hq⟩ := not_or.mp (mt List.mem_cons.mpr hq)
      rw [List.cons_append, literalFrom, if_neg (Ne.symm hne), if_pos hc, ih hplain hq, keep_some]

/-! ## Between three quotes -/

theorem isPrefixOf_pair {q : Char} {t : Text} (h : t.head? ≠ some q ∨ t.tail.head? ≠ some q) :
    [q, q].isPrefixOf t = false := by
  refine Bool.eq_false_iff.mpr fun hpair => ?_
  obtain ⟨rest, rfl⟩ := List.isPrefixOf_iff_prefix.mp hpair
  rcases h with h | h <;> exact h rfl

/-- Of the quotes behind the third, up to two belong to the string. -/
theorem closing_replicate {q : Char} {rest : Text} (hrest : rest.head? ≠ some q) {n : Nat}
    (hn : n ≤ 2) :
    closing q (List.replicate n q ++ rest) = (List.replicate n q, rest) := by
  have hnone : [q].isPrefixOf rest = false := by
    refine Bool.eq_false_iff.mpr fun hsingle => ?_
    obtain ⟨more, rfl⟩ := List.isPrefixOf_iff_prefix.mp hsingle
    exact hrest rfl
  rcases n with _ | _ | _ | n
  · simp [closing, hnone, isPrefixOf_pair (.inl hrest)]
  · have hone : [q, q].isPrefixOf (q :: rest) = false := isPrefixOf_pair (.inr hrest)
    simp [closing, hone]
  · simp [closing]
  · omega

theorem replicate_closing (q : Char) (n : Nat) (rest : Text) :
    List.replicate n q ++ (List.replicate 3 q ++ rest) =
      q :: q :: q :: (List.replicate n q ++ rest) := by
  rw [← List.append_assoc, List.replicate_append_replicate, Nat.add_comm,
    ← List.replicate_append_replicate, List.append_assoc]
  rfl

/-! ## Between three double quotes -/

theorem multiBasicFrom_skip (skipped rest : Text) :
    multiBasicFrom skipped.length (skipped ++ rest) = multiBasicFrom 0 rest := by
  induction skipped with
  | nil => rfl
  | cons c skipped ih =>
      rw [List.length_cons, List.cons_append, multiBasicFrom]
      exact ih

/-- What is written for a character other than a line feed is read as that character. -/
theorem multiBasicFrom_escaped (c : Char) (rest : Text) :
    multiBasicFrom 0 (escaped c ++ rest) = keep c (multiBasicFrom 0 rest) := by
  rcases escaped_cases c with ⟨hself, hplain, hq, hs⟩ | ⟨d, body, hbody, hb, hn, hr, hescape⟩
  · have hcr : c ≠ '\r' := by
      rintro rfl
      cases hplain
    have hlf : c ≠ '\n' := by
      rintro rfl
      cases hplain
    rw [hself, List.singleton_append, multiBasicFrom, if_neg hq, if_neg hs, if_neg hlf,
      if_neg hcr, if_pos hplain]
  · -- No escape begins like a line end behind a backslash.
    have hcont : continuation? (d :: body ++ rest) = none := by
      have htrim : trimBlanks (d :: body ++ rest) = d :: body ++ rest := by
        rw [trimBlanks, List.cons_append, List.dropWhile_cons_of_neg (by simp [hb])]
      have hend : afterLineEnd? (d :: body ++ rest) = none := by
        rw [List.cons_append, afterLineEnd?.eq_def]
        split
        · next h => exact absurd (List.cons.inj h).1 hn
        · next h => exact absurd (List.cons.inj h).1 hr
        · rfl
      rw [continuation?, htrim, hend]
    have hskip := multiBasicFrom_skip (d :: body) rest
    rw [hbody, List.cons_append, multiBasicFrom, if_neg (by decide), if_pos rfl, hcont,
      hescape rest]
    simp only [hskip]

/-- What is written does not begin with a quote behind two quotes, nor for another character. -/
theorem head?_multiEscaped {run : Nat} {c : Char} (h : c ≠ '"' ∨ 2 ≤ run) (t rest : Text) :
    (multiEscaped run (c :: t) ++ rest).head? ≠ some '"' := by
  have hraw : ¬(c = '"' ∧ run < 2) := by
    rintro ⟨hc, hrun⟩
    rcases h with h | h
    · exact h hc
    · omega
  rw [multiEscaped, if_neg hraw]
  split
  · next hc =>
      rw [hc]
      intro he
      cases he
  · rw [List.append_assoc]
    exact fun he => (head?_escaped he).1 rfl

theorem multiBasicFrom_closing {rest : Text} (hrest : rest.head? ≠ some '"') {n : Nat}
    (hn : n ≤ 2) :
    multiBasicFrom 0 (List.replicate n '"' ++ (List.replicate 3 '"' ++ rest)) =
      some (List.replicate n '"', rest) := by
  rw [replicate_closing, multiBasicFrom, if_pos rfl, if_pos (by simp), List.drop_succ_cons,
    List.drop_succ_cons, List.drop_zero, closing_replicate hrest hn]

theorem multiBasicFrom_quote {rest : Text} (h : ['"', '"'].isPrefixOf rest = false) :
    multiBasicFrom 0 ('"' :: rest) = keep '"' (multiBasicFrom 0 rest) := by
  rw [multiBasicFrom, if_pos rfl, h, if_neg Bool.false_ne_true]

/-- Whatever quotes stand in front of it, what is written for a text and three quotes behind it are
read as the text. -/
theorem multiBasicFrom_multiEscaped {rest : Text} (hrest : rest.head? ≠ some '"') (t : Text)
    (run : Nat) :
    multiBasicFrom 0 (multiEscaped run t ++ (List.replicate 3 '"' ++ rest)) = some (t, rest) := by
  induction t generalizing run with
  | nil => exact multiBasicFrom_closing hrest (Nat.zero_le 2)
  | cons c t ih =>
      by_cases hraw : c = '"' ∧ run < 2
      · obtain ⟨rfl, hrun⟩ := hraw
        have hwritten : multiEscaped run ('"' :: t) = '"' :: multiEscaped (run + 1) t := by
          rw [multiEscaped, if_pos ⟨rfl, hrun⟩]
        -- The text ends with this quote or the next one, or they are followed by something else.
        have hkeep : ['"', '"'].isPrefixOf
              (multiEscaped (run + 1) t ++ (List.replicate 3 '"' ++ rest)) = false →
            multiBasicFrom 0 (multiEscaped run ('"' :: t) ++ (List.replicate 3 '"' ++ rest)) =
              some ('"' :: t, rest) := by
          intro hpair
          rw [hwritten, List.cons_append, multiBasicFrom_quote hpair, ih, keep_some]
        match t with
        | [] =>
            rw [hwritten]
            exact multiBasicFrom_closing hrest (n := 1) (by decide)
        | d :: t =>
            by_cases hd : d = '"' ∧ run + 1 < 2
            · obtain ⟨rfl, hrun⟩ := hd
              have hsecond : multiEscaped (run + 1) ('"' :: t) =
                  '"' :: multiEscaped (run + 2) t := by
                rw [multiEscaped, if_pos ⟨rfl, hrun⟩]
              match t with
              | [] =>
                  rw [hwritten, hsecond]
                  exact multiBasicFrom_closing hrest (n := 2) (by decide)
              | e :: t =>
                  refine hkeep (isPrefixOf_pair (.inr ?_))
                  rw [hsecond]
                  exact head?_multiEscaped (.inr (by omega)) t _
            · refine hkeep (isPrefixOf_pair (.inl (head?_multiEscaped ?_ t _)))
              by_cases hq : d = '"'
              · right
                have := not_and.mp hd hq
                omega
              · exact .inl hq
      · rw [multiEscaped, if_neg hraw]
        split
        · next hc =>
            rw [hc, List.cons_append, multiBasicFrom, if_neg (by decide), if_neg (by decide),
              if_pos rfl, ih, keep_some]
        · rw [List.append_assoc, multiBasicFrom_escaped, ih, keep_some]

/-! ## Between three single quotes -/

theorem multiLiteralFrom_closing {rest : Text} (hrest : rest.head? ≠ some '\x27') {n : Nat}
    (hn : n ≤ 2) :
    multiLiteralFrom (List.replicate n '\x27' ++ (List.replicate 3 '\x27' ++ rest)) =
      some (List.replicate n '\x27', rest) := by
  rw [replicate_closing, multiLiteralFrom, if_pos rfl, if_pos (by simp), List.drop_succ_cons,
    List.drop_succ_cons, List.drop_zero, closing_replicate hrest hn]

theorem multiLiteralFrom_quote {rest : Text} (h : ['\x27', '\x27'].isPrefixOf rest = false) :
    multiLiteralFrom ('\x27' :: rest) = keep '\x27' (multiLiteralFrom rest) := by
  rw [multiLiteralFrom, if_pos rfl, h, if_neg Bool.false_ne_true]

theorem multiLiteralFrom_char {c : Char} (hq : c ≠ '\x27') (hc : isControl c = false)
    (rest : Text) : multiLiteralFrom (c :: rest) = keep c (multiLiteralFrom rest) := by
  have hcr : c ≠ '\r' := by
    rintro rfl
    cases hc
  rw [multiLiteralFrom, if_neg hq, if_neg hcr]
  split
  · rfl
  · next hlf => rw [if_pos (by simp [isPlain, hc, hlf])]

theorem hasTriple_cons {q c : Char} {t : Text} (h : hasTriple q (c :: t) = false) :
    [q, q, q].isPrefixOf (c :: t) = false ∧ hasTriple q t = false :=
  Bool.or_eq_false_iff.mp h

theorem multiLiteralFrom_append {rest : Text} (hrest : rest.head? ≠ some '\x27') {t : Text}
    (hcontrol : ∀ c ∈ t, isControl c = false) (htriple : hasTriple '\x27' t = false) :
    multiLiteralFrom (t ++ (List.replicate 3 '\x27' ++ rest)) = some (t, rest) := by
  induction t with
  | nil => exact multiLiteralFrom_closing hrest (Nat.zero_le 2)
  | cons c t ih =>
      obtain ⟨hc, hcontrol⟩ := List.forall_mem_cons.mp hcontrol
      obtain ⟨hfirst, htriple⟩ := hasTriple_cons htriple
      have ih := ih hcontrol htriple
      by_cases hq : c = '\x27'
      · subst hq
        -- As between double quotes, but no quote is escaped: there are never three.
        have hkeep : ['\x27', '\x27'].isPrefixOf (t ++ (List.replicate 3 '\x27' ++ rest)) = false →
            multiLiteralFrom ('\x27' :: t ++ (List.replicate 3 '\x27' ++ rest)) =
              some ('\x27' :: t, rest) := by
          intro hpair
          rw [List.cons_append, multiLiteralFrom_quote hpair, ih, keep_some]
        match t with
        | [] => exact multiLiteralFrom_closing hrest (n := 1) (by decide)
        | [d] =>
            by_cases hd : d = '\x27'
            · rw [hd]
              exact multiLiteralFrom_closing hrest (n := 2) (by decide)
            · exact hkeep (isPrefixOf_pair (.inl fun he => hd (Option.some.inj he)))
        | d :: e :: t =>
            by_cases hd : d = '\x27'
            · refine hkeep (isPrefixOf_pair (.inr fun he => ?_))
              have he : e = '\x27' := Option.some.inj he
              rw [hd, he] at hfirst
              simp at hfirst
            · exact hkeep (isPrefixOf_pair (.inl fun he => hd (Option.some.inj he)))
      · rw [List.cons_append, multiLiteralFrom_char hq hc, ih, keep_some]

/-! ## The form of a text -/

theorem isPlain_of_form {t : Text} (h : form t = .literal) :
    (∀ c ∈ t, isPlain c = true) ∧ '\x27' ∉ t := by
  simp only [form] at h
  repeat' split at h
  all_goals first
    | cases h; done
    | skip
  next hcontrol _ hquote =>
    refine ⟨fun c hc => ?_, hquote.1⟩
    have hc' : isControl c = false := by
      simp only [List.any_eq_true, not_exists, not_and, Bool.not_eq_true] at hcontrol
      exact hcontrol c hc
    have hlf : c ≠ '\n' := fun he => hquote.2 (he ▸ hc)
    simp [isPlain, hc', hlf]

theorem hasTriple_of_form {t : Text} (h : form t = .multiLiteral) :
    (∀ c ∈ t, isControl c = false) ∧ hasTriple '\x27' t = false := by
  simp only [form] at h
  repeat' split at h
  all_goals first
    | cases h; done
    | skip
  next hcontrol _ _ _ htriple =>
    refine ⟨fun c hc => ?_, htriple⟩
    simp only [List.any_eq_true, not_exists, not_and, Bool.not_eq_true] at hcontrol
    exact hcontrol c hc

/-- The line end behind the opening quotes is the one that was put there. -/
theorem dropLineEnd_opening {t w : Text}
    (h : '\n' ∉ t → ∀ c ∈ w.head?, c ≠ '\n' ∧ c ≠ '\r') : dropLineEnd (opening t ++ w) = w := by
  rw [opening]
  split
  · rfl
  · next ht =>
      have hw := h ht
      rw [List.nil_append, dropLineEnd, afterLineEnd?.eq_def]
      split
      · exact absurd rfl (hw _ rfl).1
      · exact absurd rfl (hw _ rfl).2
      · rfl

/-- What is written between three double quotes begins with a line end only if the text has one. -/
theorem head?_multiEscaped_ne_lineEnd {t rest : Text} (ht : '\n' ∉ t) :
    ∀ d ∈ (multiEscaped 0 t ++ (List.replicate 3 '"' ++ rest)).head?, d ≠ '\n' ∧ d ≠ '\r' := by
  intro d hd
  cases t with
  | nil =>
      cases hd
      decide
  | cons c t =>
      rw [multiEscaped] at hd
      split at hd
      · next hraw =>
          rw [hraw.1] at hd
          cases hd
          decide
      · split at hd
        · next hlf => exact absurd (hlf ▸ List.mem_cons_self) ht
        · rw [List.append_assoc] at hd
          exact (head?_escaped hd).2

/-! ## Reading back -/

theorem string?_double {t : Text} (h : ['"', '"'].isPrefixOf t = false) :
    string? ('"' :: t) = basicFrom 0 t := by
  rw [string?.eq_def]
  split
  · next he =>
      cases he
      cases h
  · next he => cases he
  · rfl

theorem string?_single {t : Text} (h : ['\x27', '\x27'].isPrefixOf t = false) :
    string? ('\x27' :: t) = literalFrom t := by
  rw [string?.eq_def]
  split
  · next he => cases he
  · next he =>
      cases he
      cases h
  · rfl

theorem head?_renderString (t : Text) :
    (renderString t).head? = some '"' ∨ (renderString t).head? = some '\x27' := by
  rw [renderString]
  cases form t with
  | basic | multiBasic =>
      left
      rfl
  | literal | multiLiteral =>
      right
      rfl

/-- A string is read back from the form that it is written in, and the reader stops behind it. -/
theorem string?_renderString (t : Text) {rest : Text} (hrest : EndsString rest) :
    string? (renderString t ++ rest) = some (t, rest) := by
  have hdouble : rest.head? ≠ some '"' := fun h => (hrest _ h).1 rfl
  have hsingle : rest.head? ≠ some '\x27' := fun h => (hrest _ h).2 rfl
  rw [renderString]
  cases hform : form t with
  | basic =>
      simp only [List.cons_append, List.append_assoc, List.nil_append]
      rw [string?_double, basicFrom_flatMap]
      cases t with
      | nil => exact isPrefixOf_pair (.inr hdouble)
      | cons c t =>
          rw [List.flatMap_cons, List.append_assoc]
          exact isPrefixOf_pair (.inl fun he => (head?_escaped he).1 rfl)
  | literal =>
      obtain ⟨hplain, hq⟩ := isPlain_of_form hform
      simp only [List.cons_append, List.append_assoc, List.nil_append]
      rw [string?_single, literalFrom_append hplain hq]
      cases t with
      | nil => exact isPrefixOf_pair (.inr hsingle)
      | cons c t =>
          refine isPrefixOf_pair (.inl fun he => hq ?_)
          cases he
          exact List.mem_cons_self
  | multiBasic =>
      have hread : string? (List.replicate 3 '"' ++ opening t ++ multiEscaped 0 t ++
          List.replicate 3 '"' ++ rest) = multiBasicFrom 0 (dropLineEnd
            (opening t ++ (multiEscaped 0 t ++ (List.replicate 3 '"' ++ rest)))) := by
        simp only [List.append_assoc]
        rfl
      rw [hread, dropLineEnd_opening, multiBasicFrom_multiEscaped hdouble]
      exact fun ht => head?_multiEscaped_ne_lineEnd ht
  | multiLiteral =>
      obtain ⟨hcontrol, htriple⟩ := hasTriple_of_form hform
      have hread : string? (List.replicate 3 '\x27' ++ opening t ++ t ++
          List.replicate 3 '\x27' ++ rest) = multiLiteralFrom (dropLineEnd
            (opening t ++ (t ++ (List.replicate 3 '\x27' ++ rest)))) := by
        simp only [List.append_assoc]
        rfl
      rw [hread, dropLineEnd_opening, multiLiteralFrom_append hsingle hcontrol htriple]
      intro ht d hd
      cases t with
      | nil =>
          cases hd
          decide
      | cons c t =>
          cases hd
          constructor
          · rintro rfl
            exact ht List.mem_cons_self
          · rintro rfl
            cases hcontrol _ List.mem_cons_self

end ToolRegistry.Toml
