import ToolRegistry.Client.Exchange
import ToolRegistry.Proofs.FieldPairs

/-!
# Numbers are found again in a filled template

The server puts numbers into the places of a template, and the client takes
them out of the same places. They are the same numbers if the text after each
place ends the number in front of it: it does not begin with a digit, and it
is empty only at the end of the template. All templates of the registry are of
this kind.

The client asks for the first number only, so a payload that is cut off can
mislead it in one way: the cut must fall inside the very number it is looking
for. Where more text follows that number the text would be missing, and the
template would not match. A template that ends in its only number has no such
guard, and any digits that are left are taken for the number.
-/

namespace ToolRegistry.Wire.Template

open Decimal Text

/-! ## Whole payloads -/

/-- Pieces that end the numbers in front of them. -/
def EndNumbers : List Text → Prop
  | [] => True
  | [piece] => EndsNumber piece
  | piece :: more => piece ≠ [] ∧ EndsNumber piece ∧ EndNumbers more

instance decidableEndNumbers : (ps : List Text) → Decidable (EndNumbers ps)
  | [] => inferInstanceAs (Decidable True)
  | [piece] => inferInstanceAs (Decidable (EndsNumber piece))
  | piece :: next :: more =>
      have := decidableEndNumbers (next :: more)
      inferInstanceAs (Decidable (piece ≠ [] ∧ EndsNumber piece ∧ EndNumbers (next :: more)))

theorem endsNumber_append {p : Text} (hne : p ≠ []) (hp : EndsNumber p) (rest : Text) :
    EndsNumber (p ++ rest) := by
  obtain ⟨c, p, rfl⟩ := List.exists_cons_of_ne_nil hne
  rintro d ⟨⟩
  exact hp _ rfl

theorem interleave_cons (p : Text) (more : List Text) (v : Text) (vs : List Text) :
    interleave (p :: more) (v :: vs) = v ++ (p ++ interleave more vs) := by
  rw [interleave, List.append_assoc]

/-- The first value of a filled template stands between the first two pieces. -/
theorem render_cons {template first piece : Text} {more : List Text}
    (ht : pieces template = first :: piece :: more) (v : Text) (vs : List Text) :
    render template (v :: vs) = first ++ (v ++ (piece ++ interleave more vs)) := by
  rw [render, ht]
  simp only [interleave_cons]

theorem scanPieces_cons (p : Text) (more : List Text) (t : Text) :
    scanPieces (p :: more) t =
      (signed? 64 (takeNumber t).1).bind fun value =>
        (Text.after? p (takeNumber t).2).bind fun rest =>
          (scanPieces more rest).map (value :: ·) := by
  rw [scanPieces]
  obtain ⟨number, u⟩ := takeNumber t
  cases hs : signed? 64 number with
  | none => simp [hs]
  | some value =>
      cases ha : Text.after? p u with
      | none => simp [hs, ha]
      | some rest => cases hm : scanPieces more rest <;> simp [hs, ha, hm]

/-- Numbers that were laid out between the pieces are taken out again, whatever follows the last
piece, or the last number if that piece is empty. -/
theorem scanPieces_interleave {ps : List Text} (hp : EndNumbers ps) {vs : List Int}
    (hlen : vs.length = ps.length) (hv : ∀ v ∈ vs, -2 ^ 63 ≤ v ∧ v < 2 ^ 63) {trailing : Text}
    (ht : ps.getLast? = some [] → EndsNumber trailing) :
    scanPieces ps (interleave ps (vs.map ofInt) ++ trailing) = some vs := by
  induction ps generalizing vs with
  | nil => rw [List.length_eq_zero_iff.mp hlen]; rfl
  | cons p more ih =>
      obtain ⟨v, vs, rfl⟩ := List.exists_cons_of_length_eq_add_one hlen
      rw [List.length_cons, List.length_cons, Nat.add_right_cancel_iff] at hlen
      obtain ⟨hnum, hmore, hlast⟩ : EndsNumber (p ++ (interleave more (vs.map ofInt) ++ trailing)) ∧
          EndNumbers more ∧ (more.getLast? = some [] → EndsNumber trailing) := by
        cases more with
        | nil =>
            refine ⟨?_, trivial, fun h => by cases h⟩
            by_cases hne : p = []
            · rw [hne]
              exact ht (by rw [hne]; rfl)
            · exact endsNumber_append hne hp _
        | cons q more => exact ⟨endsNumber_append hp.1 hp.2.1 _, hp.2.2, ht⟩
      have hread : signed? 64 (ofInt v) = some v :=
        signed?_ofInt (hv v List.mem_cons_self).1 (hv v List.mem_cons_self).2
      rw [List.map_cons, interleave_cons, List.append_assoc, List.append_assoc, scanPieces_cons,
        takeNumber_ofInt v hnum]
      simp only [hread, Option.bind_some, after?_append]
      rw [ih hmore hlen (fun w hw => hv w (List.mem_cons_of_mem _ hw)) hlast]
      rfl

/-- The numbers that a template was filled with are found in it. -/
theorem scan_render {template first : Text} {more : List Text}
    (ht : pieces template = first :: more) (hp : EndNumbers more) {vs : List Int}
    (hlen : vs.length = more.length) (hv : ∀ v ∈ vs, -2 ^ 63 ≤ v ∧ v < 2 ^ 63) {trailing : Text}
    (hlast : more.getLast? = some [] → EndsNumber trailing) :
    scan template (render template (vs.map ofInt) ++ trailing) = some vs := by
  rw [scan, render, ht]
  simp only [List.append_assoc, after?_append, Option.bind_some]
  exact scanPieces_interleave hp hlen hv hlast

/-- What is read as the first number was scanned first, and is within its bounds. -/
theorem firstNumber_eq_ok {bits : Nat} {template t : Text} {v : Nat} :
    Exchange.firstNumber bits template t = .ok v ↔
      v < 2 ^ bits ∧ ∃ vs, scan template t = some ((v : Int) :: vs) := by
  rw [Exchange.firstNumber]
  constructor
  · intro h
    split at h
    · next i vs hs =>
        split at h
        · next hbits =>
            cases h
            obtain ⟨n, rfl⟩ := Int.eq_ofNat_of_zero_le hbits.1
            exact ⟨by exact_mod_cast hbits.2, vs, hs⟩
        · cases h
    · cases h
  · rintro ⟨hlt, vs, hs⟩
    have hbits : (0 : Int) ≤ v ∧ (v : Int) < 2 ^ bits :=
      ⟨Int.natCast_nonneg v, by exact_mod_cast hlt⟩
    simp only [hs, if_pos hbits, Int.toNat_natCast]

/-- The first number that a template was filled with is read, if it is within its bounds. -/
theorem firstNumber_render {template first : Text} {more : List Text}
    (ht : pieces template = first :: more) (hp : EndNumbers more) (n : Nat) (ns : List Nat)
    (hlen : (n :: ns).length = more.length) (hns : ∀ m ∈ n :: ns, m < 2 ^ 63) {bits : Nat}
    (hn : n < 2 ^ bits) :
    Exchange.firstNumber bits template (render template ((n :: ns).map ofNat)) = .ok n := by
  have hv : ∀ v ∈ (n :: ns).map Int.ofNat, -2 ^ 63 ≤ v ∧ v < 2 ^ 63 := by
    intro v hv
    obtain ⟨m, hm, rfl⟩ := List.mem_map.mp hv
    have hm := hns m hm
    exact ⟨Int.le_trans (by decide) (Int.natCast_nonneg m), Int.ofNat_lt.mpr hm⟩
  have hscan : scan template (render template (((n :: ns).map Int.ofNat).map ofInt) ++ []) =
      some ((n :: ns).map Int.ofNat) :=
    scan_render ht hp (by rwa [List.length_map]) hv fun _ _ hc => by cases hc
  rw [List.append_nil, List.map_map] at hscan
  exact firstNumber_eq_ok.mpr ⟨hn, ns.map Int.ofNat, hscan⟩

theorem firstNumber_single {template first piece : Text} (ht : pieces template = [first, piece])
    (hp : EndsNumber piece) {n bits : Nat} (hsigned : n < 2 ^ 63) (hn : n < 2 ^ bits) :
    Exchange.firstNumber bits template (render template [ofNat n]) = .ok n :=
  firstNumber_render ht hp n [] rfl (List.forall_mem_singleton.mpr hsigned) hn

/-! ## The templates that hold an answer -/

theorem pieces_created : pieces Payload.created = ["entry ID is ".toList, []] := rfl

theorem pieces_changed : pieces Payload.changed = ["applied changes to entry ".toList, []] := rfl

theorem pieces_deleted : pieces Payload.deleted = ["entry ".toList, " deleted".toList] := rfl

theorem pieces_cleaned : pieces Payload.cleaned = [[], " entries deleted".toList] := rfl

theorem pieces_stringAdded : pieces Payload.stringAdded = ["string ID is ".toList, []] := rfl

theorem pieces_stringsCounted :
    pieces Payload.stringsCounted = [[], " strings stored for entry ".toList, []] := rfl

/-! ## Payloads that are cut off -/

/-- A template that goes on behind its first number yields that number or none. -/
theorem firstNumber_prefix_guarded {bits : Nat} {template first piece : Text} {more : List Text}
    (ht : pieces template = first :: piece :: more) (hne : piece ≠ []) (hp : EndsNumber piece)
    {n : Nat} {rest t : Text} (h : t <+: first ++ (ofNat n ++ (piece ++ rest))) {v : Nat}
    (hv : Exchange.firstNumber bits template t = .ok v) : v = n ∧ n < 2 ^ 63 ∧ n < 2 ^ bits := by
  obtain ⟨hbits, vs, hs⟩ := firstNumber_eq_ok.mp hv
  rw [scan, ht] at hs
  simp only [Option.bind_eq_some_iff, after?_eq_some_iff] at hs
  obtain ⟨u, rfl, hs⟩ := hs
  rw [List.prefix_append_right_inj] at h
  rw [scanPieces_cons] at hs
  simp only [Option.bind_eq_some_iff, Option.map_eq_some_iff, after?_eq_some_iff] at hs
  obtain ⟨w, hw, r, hr, vs', -, hcons⟩ := hs
  rcases Utf8.prefix_append_cases h with ⟨hu, -⟩ | ⟨r', rfl, hr'⟩
  · -- Nothing but digits is left, so the piece is missing.
    have hrest : (takeNumber u).2 = [] := by
      by_cases hnil : u = []
      · rw [hnil]; rfl
      · rw [takeNumber_all hnil (isDigit_of_mem_cut hu)]
    rw [hrest] at hr
    exact absurd (List.append_eq_nil_iff.mp hr.symm).1 hne
  · have hend : EndsNumber r' := by
      intro c hc
      cases r' with
      | nil => cases hc
      | cons d r' =>
          obtain ⟨e, p, rfl⟩ := List.exists_cons_of_ne_nil hne
          rw [List.cons_append, List.cons_prefix_cons] at hr'
          cases hc
          exact hp _ (by rw [hr'.1]; rfl)
    rw [takeNumber_ofNat n hend] at hw
    have hvalue := (signed?_digits (ofNat_ne_nil n) fun _ => isDigit_of_mem_ofNat).mp hw
    rw [ofNat, Nat.ofDigitChars_ten_toDigits] at hvalue
    rw [List.cons.injEq] at hcons
    obtain rfl : v = n := Int.ofNat.inj (hcons.1.symm.trans hvalue.1)
    exact ⟨rfl, hvalue.2, hbits⟩

/-- A template that ends in its only number takes whatever digits are there for the number. -/
theorem firstNumber_digits {bits : Nat} {template first : Text}
    (ht : pieces template = [first, []]) {d : Text} (hne : d ≠ [])
    (hd : ∀ c ∈ d, c.isDigit = true) {v : Nat} :
    Exchange.firstNumber bits template (first ++ d) = .ok v ↔
      v = Nat.ofDigitChars 10 d 0 ∧ v < 2 ^ 63 ∧ v < 2 ^ bits := by
  have hscan : scan template (first ++ d) = (signed? 64 d).map fun v => [v] := by
    rw [scan, ht]
    simp only [after?_append, Option.bind_some]
    rw [scanPieces_cons, takeNumber_all hne hd]
    cases signed? 64 d <;> rfl
  rw [firstNumber_eq_ok, hscan]
  constructor
  · rintro ⟨hbits, vs, hs⟩
    obtain ⟨i, hi, hcons⟩ := Option.map_eq_some_iff.mp hs
    cases hcons
    obtain ⟨hvalue, hlt⟩ := (signed?_digits hne hd).mp hi
    have hv : v = Nat.ofDigitChars 10 d 0 := Int.ofNat.inj hvalue
    exact ⟨hv, hv ▸ hlt, hbits⟩
  · rintro ⟨rfl, hlt, hbits⟩
    exact ⟨hbits, [], by rw [(signed?_digits hne hd).mpr ⟨rfl, hlt⟩]; rfl⟩

/-- A payload with no digit left of its only number, at the end, yields none. -/
theorem firstNumber_prefix_last {bits : Nat} {template first : Text}
    (ht : pieces template = [first, []]) {n : Nat} {t : Text} (h : t <+: first ++ ofNat n)
    {v : Nat} (hv : Exchange.firstNumber bits template t = .ok v) :
    ∃ d, d ≠ [] ∧ d <+: ofNat n ∧ t = first ++ d := by
  obtain ⟨-, vs, hs⟩ := firstNumber_eq_ok.mp hv
  rw [scan, ht] at hs
  simp only [Option.bind_eq_some_iff, after?_eq_some_iff] at hs
  obtain ⟨d, rfl, hs⟩ := hs
  rw [List.prefix_append_right_inj] at h
  refine ⟨d, ?_, h, rfl⟩
  rintro rfl
  rw [scanPieces_cons] at hs
  cases hs

end ToolRegistry.Wire.Template
