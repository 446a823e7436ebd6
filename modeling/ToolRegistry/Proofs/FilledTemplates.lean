import ToolRegistry.Proofs.Payloads
import ToolRegistry.Session

/-!
# Reading undoes filling in

A template is cut at its places, and what matters about the pieces is only what
stands right behind a number. A piece there must not go on with a digit, or the
number would grow; and between two numbers there must be something, or they
would be one number. Behind the last piece anything may follow, unless that
piece is empty: then the same is asked of what follows (`scan_undoes_render`).

The pieces are not special to the way in which they are found. They are the one
list that gives the template when a place is put between each two of them, and
of which no member holds a place itself (`pieces_eq_iff`). Two places cannot
overlap, so there is no other.
-/

namespace ToolRegistry.Wire.Template

open Decimal Text

/-! ## Pieces -/

/-- A place for a value. -/
def place : Text := "{}"

/-- Where no place begins, a template goes on with its first piece. -/
theorem pieces_cons {c : Char} {t first : Text} {more : List Text}
    (h : ¬(c = '{' ∧ '}' ∈ t.head?)) (ht : pieces t = first :: more) :
    pieces (c :: t) = (c :: first) :: more := by
  rw [pieces, ht]
  intro rest hc hrest
  exact h ⟨hc, by rw [hrest]; rfl⟩

/-- No place ends inside of a text that holds none, whatever follows it. -/
theorem not_place_of_cons {c : Char} {t : Text} (h : ¬place <:+: c :: t) :
    ¬(c = '{' ∧ '}' ∈ t.head?) := by
  intro hplace
  obtain ⟨rfl, hhead⟩ := hplace
  obtain ⟨rest, rfl⟩ := List.head?_eq_some_iff.mp hhead
  exact h ⟨[], rest, rfl⟩

theorem pieces_of_no_place {t : Text} (h : ¬place <:+: t) : pieces t = [t] := by
  induction t with
  | nil => rfl
  | cons c t ih =>
      have ht : ¬place <:+: t := fun hinfix => h (List.infix_cons hinfix)
      exact pieces_cons (not_place_of_cons h) (ih ht)

theorem pieces_append {p : Text} (h : ¬place <:+: p) (rest : Text) :
    pieces (p ++ (place ++ rest)) = p :: pieces rest := by
  induction p with
  | nil => rfl
  | cons c p ih =>
      have hp : ¬place <:+: p := fun hinfix => h (List.infix_cons hinfix)
      refine pieces_cons ?_ (ih hp)
      cases p with
      | nil => simp [place]
      | cons d p =>
          show ¬(c = '{' ∧ '}' ∈ (d :: p).head?)
          exact not_place_of_cons h

theorem pieces_ne_nil (t : Text) : pieces t ≠ [] := by
  induction t using pieces.induct with
  | case1 => simp [pieces]
  | case2 rest ih => simp [pieces]
  | case3 c rest hno first more hp ih => simp [pieces, hp]
  | case4 c rest hno hp ih => exact absurd hp ih

theorem join_pieces (t : Text) : Text.join place (pieces t) = t := by
  induction t using pieces.induct with
  | case1 => rfl
  | case2 rest ih =>
      rw [pieces, join_cons, if_neg (pieces_ne_nil rest), ih]
      rfl
  | case3 c rest hno first more hp ih =>
      rw [pieces, hp]
      · rw [hp, join_cons] at ih
        rw [join_cons, List.cons_append, ih]
      · exact hno
  | case4 c rest hno hp ih => exact absurd hp (pieces_ne_nil rest)

theorem not_place_of_mem_pieces {t p : Text} (h : p ∈ pieces t) : ¬place <:+: p := by
  induction t using pieces.induct generalizing p with
  | case1 =>
      rw [List.mem_singleton.mp h]
      decide
  | case2 rest ih =>
      rcases List.mem_cons.mp h with rfl | h
      · decide
      · exact ih h
  | case3 c rest hno first more hp ih =>
      rw [pieces, hp] at h
      · rw [hp] at ih
        rcases List.mem_cons.mp h with rfl | h
        · intro hinfix
          rcases List.infix_cons_iff.mp hinfix with hprefix | hinfix
          · -- The place would begin the template itself.
            obtain ⟨tail, htail⟩ := hprefix
            cases htail
            have hrest := join_pieces rest
            rw [hp, join_cons] at hrest
            exact hno _ rfl hrest.symm
          · exact ih List.mem_cons_self hinfix
        · exact ih (List.mem_cons_of_mem _ h)
      · exact hno
  | case4 c rest hno hp ih => exact absurd hp (pieces_ne_nil rest)

theorem pieces_join {ps : List Text} (hne : ps ≠ []) (h : ∀ p ∈ ps, ¬place <:+: p) :
    pieces (Text.join place ps) = ps := by
  induction ps with
  | nil => exact absurd rfl hne
  | cons p ps ih =>
      obtain ⟨hp, hps⟩ := List.forall_mem_cons.mp h
      rw [join_cons]
      split
      · next hnil => rw [hnil, List.append_nil, pieces_of_no_place hp]
      · next hmore => rw [pieces_append hp, ih hmore hps]

/-- The pieces of a template, without a word on how they are found. -/
theorem pieces_eq_iff {t : Text} {ps : List Text} :
    pieces t = ps ↔ ps ≠ [] ∧ Text.join place ps = t ∧ ∀ p ∈ ps, ¬place <:+: p := by
  constructor
  · intro h
    subst h
    exact ⟨pieces_ne_nil t, join_pieces t, fun p => not_place_of_mem_pieces⟩
  · intro h
    obtain ⟨hne, rfl, hno⟩ := h
    exact pieces_join hne hno

/-- What stands behind a number ends it, and something stands between two numbers. -/
theorem endNumbers_iff {ps : List Text} :
    EndNumbers ps ↔ (∀ p ∈ ps.dropLast, p ≠ []) ∧ ∀ p ∈ ps, EndsNumber p := by
  induction ps with
  | nil => simp [EndNumbers]
  | cons p more ih =>
      cases more with
      | nil => simp [EndNumbers]
      | cons q more =>
          simp only [EndNumbers, ih, List.dropLast_cons_cons, List.forall_mem_cons]
          tauto

/-! ## Numbers that were filled in -/

/-- The status that a client finds in the first line of a reply. -/
def heard? (r : Reply) : Option Status := r.lines.head?.bind Status.parse?

theorem heard?_ok (payload : Text) : heard? (.ok payload) = some (.ok payload) :=
  Status.parse?_line (.ok payload)

theorem heard?_err (payload : Text) : heard? (.err payload) = some (.err payload) :=
  Status.parse?_line (.err payload)

/-- Numbers of sixty-four bits with a sign are found again in the template that they were filled
in, whatever follows it, if the pieces keep them apart. A reply begins with its payload, and the
first number of the payload of each numeric reply is the id, the count or the position in it. -/
theorem scan_undoes_render :
    (∀ (template first : Text) (more : List Text) (values : List Int64) (trailing : Text),
      Text.join place (first :: more) = template → (∀ p ∈ first :: more, ¬place <:+: p) →
      values.length = more.length → (∀ p ∈ more.dropLast, p ≠ []) →
      (∀ p ∈ more, EndsNumber p) → (more.getLast? = some [] → EndsNumber trailing) →
      scan template (render template (values.map fun v => ofInt v.toInt) ++ trailing) =
        some (values.map Int64.toInt)) ∧
    (∀ payload, heard? (.ok payload) = some (.ok payload) ∧
      heard? (.err payload) = some (.err payload)) ∧
    (∀ (id : EntryId), ∀ template ∈ [Payload.created, Payload.changed, Payload.deleted],
      ∃ payload, heard? (Session.success template [Session.idText id]) = some (.ok payload) ∧
        Exchange.firstNumber 32 template payload = .ok id.toNat) ∧
    (∀ n < 2 ^ 63, ∀ template ∈ [Payload.cleaned, Payload.stringAdded],
      ∃ payload, heard? (Session.success template [Session.natText n]) = some (.ok payload) ∧
        Exchange.firstNumber 64 template payload = .ok n) ∧
    (∀ n < 2 ^ 63, ∀ (id : EntryId), ∃ payload,
      heard? (Session.success Payload.stringsCounted [Session.natText n, Session.idText id]) =
        some (.ok payload) ∧
      Exchange.firstNumber 64 Payload.stringsCounted payload = .ok n) := by
  refine ⟨?_, ?_, ?_, ?_, ?_⟩
  · intro template first more values trailing ht hno hlen hbetween hend hlast
    have hpieces : pieces template = first :: more :=
      pieces_eq_iff.mpr ⟨List.cons_ne_nil _ _, ht, hno⟩
    have hrange : ∀ v ∈ values.map Int64.toInt, -2 ^ 63 ≤ v ∧ v < 2 ^ 63 := by
      intro v hv
      obtain ⟨w, -, rfl⟩ := List.mem_map.mp hv
      exact ⟨w.le_toInt, w.toInt_lt⟩
    have hscan := scan_render hpieces (endNumbers_iff.mpr ⟨hbetween, hend⟩)
      (by rwa [List.length_map]) hrange hlast
    rwa [List.map_map] at hscan
  · intro payload
    exact ⟨heard?_ok payload, heard?_err payload⟩
  · intro id template htemplate
    have hid : id.toNat < 2 ^ 32 := id.toNat_lt
    refine ⟨_, heard?_ok _, ?_⟩
    simp only [List.mem_cons, List.not_mem_nil, or_false] at htemplate
    rcases htemplate with rfl | rfl | rfl
    · exact firstNumber_single pieces_created (by decide) (by omega) hid
    · exact firstNumber_single pieces_changed (by decide) (by omega) hid
    · exact firstNumber_single pieces_deleted (by decide) (by omega) hid
  · intro n hn template htemplate
    refine ⟨_, heard?_ok _, ?_⟩
    simp only [List.mem_cons, List.not_mem_nil, or_false] at htemplate
    rcases htemplate with rfl | rfl
    · exact firstNumber_single pieces_cleaned (by decide) hn (by omega)
    · exact firstNumber_single pieces_stringAdded (by decide) hn (by omega)
  · intro n hn id
    have hid : id.toNat < 2 ^ 32 := id.toNat_lt
    have htwo : ∀ m ∈ [n, id.toNat], m < 2 ^ 63 :=
      List.forall_mem_cons.mpr ⟨hn, List.forall_mem_singleton.mpr (by omega)⟩
    exact ⟨_, heard?_ok _,
      firstNumber_render pieces_stringsCounted (by decide) n [id.toNat] rfl htwo (by omega)⟩

/-- The least and the greatest number in front of a text that begins with a minus sign, and the
greatest position. -/
theorem scan_undoes_render_extreme :
    scan "at {}, {}".toList
        (render "at {}, {}".toList [ofInt (-2 ^ 63), ofInt (2 ^ 63 - 1)] ++ "-7".toList) =
      some [-2 ^ 63, 2 ^ 63 - 1] ∧
    ∃ payload,
      heard? (Session.success Payload.stringAdded [Session.natText (2 ^ 63 - 1)]) =
        some (.ok payload) ∧
      Exchange.firstNumber 64 Payload.stringAdded payload = .ok (2 ^ 63 - 1) := by
  obtain ⟨hscan, -, -, hnumber, -⟩ := scan_undoes_render
  constructor
  · exact hscan "at {}, {}" "at " [", ".toList, []] [Int64.minValue, Int64.maxValue] "-7" rfl
      (by decide) rfl (by decide) (by decide) fun _ => by decide
  · exact hnumber (2 ^ 63 - 1) (by decide) Payload.stringAdded (by simp)

end ToolRegistry.Wire.Template
