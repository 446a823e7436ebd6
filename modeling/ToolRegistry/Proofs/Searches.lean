import ToolRegistry.Proofs.Lifetimes

/-!
# What a search finds

One set of values is read in three ways. As a whole entry it lacks what it does
not give. As a patch it lays an empty text over an entry but leaves a number in
place if its own is not positive. As a predicate it asks for neither of the two.

The readings fit together in one direction: whatever a set asks for as a
predicate, it has written as a patch or as an entry (`matches_applyTo`), so an
entry is found by the set that has just made or changed it. The converse is a
matter of the entry. All values of an entry are asked for by the set that gives
them only if none of them is empty or not positive, and then that set finds the
entries with the same values and no others (`matches_ofFields_iff`).
-/

namespace ToolRegistry

namespace EntryFields

/-- An entry has no values but those of its fields. -/
theorem eq_of_values {e e' : EntryFields} (htext : ∀ f t, e.text? f = some t → e'.text? f = some t)
    (hnumber : ∀ f n, e.number? f = some n → e'.number? f = some n) : e' = e := by
  obtain ⟨app', site', mach', node', port', pid', comp', tag'⟩ := e'
  congr 1
  · exact Option.some.inj (htext .app _ rfl)
  · exact Option.some.inj (htext .site _ rfl)
  · exact Option.some.inj (htext .mach _ rfl)
  · exact Option.some.inj (htext .node _ rfl)
  · exact Option.some.inj (hnumber .port _ rfl)
  · exact Option.some.inj (hnumber .pid _ rfl)
  · exact Option.some.inj (htext .comp _ rfl)
  · exact Option.some.inj (htext .tag _ rfl)

end EntryFields

/-! ## Predicates -/

namespace FieldSet

/-- As a predicate, the set asks for a text in a field. -/
def AsksForText (p : FieldSet) (f : Field) (t : Text) : Prop := p.text? f = some t ∧ t ≠ []

/-- As a predicate, the set asks for a number in a field. -/
def AsksForNumber (p : FieldSet) (f : Field) (n : Int32) : Prop := p.number? f = some n ∧ 0 < n

/-- An entry has every value that a set asks for. -/
structure Matches (p : FieldSet) (e : EntryFields) : Prop where
  text : ∀ f t, p.AsksForText f t → e.text? f = some t
  number : ∀ f n, p.AsksForNumber f n → e.number? f = some n

/-- A set gives every value that another one asks for. -/
structure Narrows (q p : FieldSet) : Prop where
  text : ∀ f t, p.AsksForText f t → q.text? f = some t
  number : ∀ f n, p.AsksForNumber f n → q.number? f = some n

variable {p q : FieldSet} {e : EntryFields}

theorem filter_text?_eq_some {f : Field} {t : Text} :
    (p.text? f).filter (!·.isEmpty) = some t ↔ p.AsksForText f t := by
  rw [AsksForText, Option.filter_eq_some_iff]
  simp

theorem filter_number?_eq_some {f : Field} {n : Int32} :
    (p.number? f).filter (0 < ·) = some n ↔ p.AsksForNumber f n := by
  rw [AsksForNumber, Option.filter_eq_some_iff]
  simp

theorem acceptsField_of_numeric {f : Field} (hf : f.isNumeric = true) :
    p.acceptsField e f = true ↔ ∀ n, p.AsksForNumber f n → e.number? f = some n := by
  simp only [acceptsField, if_pos hf, ← filter_number?_eq_some]
  cases (p.number? f).filter (0 < ·) <;> simp

theorem acceptsField_of_not_numeric {f : Field} (hf : f.isNumeric = false) :
    p.acceptsField e f = true ↔ ∀ t, p.AsksForText f t → e.text? f = some t := by
  simp only [acceptsField, hf, Bool.false_eq_true, if_false, ← filter_text?_eq_some]
  cases (p.text? f).filter (!·.isEmpty) <;> simp

/-- Of the two kinds of values, a field is asked for the one that it holds. -/
theorem accepts_iff : p.accepts e = true ↔ p.Matches e := by
  rw [accepts, List.all_eq_true]
  -- A field that holds a number is asked for no text, and the other way round.
  constructor
  · intro h
    refine ⟨fun f t ht => ?_, fun f n hn => ?_⟩
    · exact (acceptsField_of_not_numeric (Wire.isNumeric_of_text? ht.1)).mp (h f f.mem_all) t ht
    · exact (acceptsField_of_numeric (Wire.isNumeric_of_number? hn.1)).mp (h f f.mem_all) n hn
  · intro h f _
    cases hf : f.isNumeric with
    | true => exact (acceptsField_of_numeric hf).mpr (h.number f)
    | false => exact (acceptsField_of_not_numeric hf).mpr (h.text f)

instance (p : FieldSet) : DecidablePred p.Matches := fun _ => decidable_of_iff _ accepts_iff

theorem Narrows.matches (h : q.Narrows p) (hq : q.Matches e) : p.Matches e where
  text _ _ ht := hq.text _ _ ⟨h.text _ _ ht, ht.2⟩
  number _ _ hn := hq.number _ _ ⟨h.number _ _ hn, hn.2⟩

/-! ## What a set has written, it asks for -/

theorem matches_applyTo (p : FieldSet) (e : EntryFields) : p.Matches (p.applyTo e) where
  text f t ht := by rw [text?_applyTo, ht.1, Option.some_or]
  number f n hn := by rw [number?_applyTo, filter_number?_eq_some.mpr hn, Option.some_or]

theorem text?_ofFields (e : EntryFields) (f : Field) : (ofFields e).text? f = e.text? f := by
  cases f <;> rfl

theorem number?_ofFields (e : EntryFields) (f : Field) : (ofFields e).number? f = e.number? f := by
  cases f <;> rfl

theorem matches_ofFields (e : EntryFields) : (ofFields e).Matches e where
  text f _ ht := (text?_ofFields e f).symm.trans ht.1
  number f _ hn := (number?_ofFields e f).symm.trans hn.1

/-- Without the condition an entry would be found by values that it lacks. -/
theorem matches_ofFields_iff (he : e.IsComplete) {e' : EntryFields} :
    (ofFields e).Matches e' ↔ e' = e := by
  constructor
  · intro h
    have htext : ∀ f t, e.text? f = some t → e'.text? f = some t := fun f t ht =>
      h.text f t ⟨(text?_ofFields e f).trans ht, he.ne_nil ht⟩
    have hnumber : ∀ f n, e.number? f = some n → e'.number? f = some n := fun f n hn =>
      h.number f n ⟨(number?_ofFields e f).trans hn, he.pos hn⟩
    exact EntryFields.eq_of_values htext hnumber
  · rintro rfl
    exact matches_ofFields e'

end FieldSet

namespace Store

variable {s next : Store} {id r : EntryId} {p q fields : FieldSet} {e : EntryFields}

/-! ## Searches -/

theorem search_eq_filter (s : Store) (p : FieldSet) :
    s.search p = s.list.filter fun r => p.Matches r.fields := by
  rw [list_eq, List.filter_map, search]
  congr 1
  refine List.filter_congr fun r _ => ?_
  exact Bool.eq_iff_iff.mpr (FieldSet.accepts_iff.trans decide_eq_true_iff.symm)

theorem mem_search_iff {r : EntryRecord} :
    r ∈ s.search p ↔ s.fetch r.id = .ok r ∧ p.Matches r.fields := by
  rw [search_eq_filter, List.mem_filter, mem_list_iff, decide_eq_true_iff]

theorem search_pairwise (s : Store) (p : FieldSet) :
    ((s.search p).map EntryRecord.id).Pairwise (· < ·) := by
  rw [search_eq_filter]
  exact s.list_pairwise.sublist (List.filter_sublist.map _)

theorem search_sublist (h : q.Narrows p) : (s.search q).Sublist (s.search p) := by
  rw [search_eq_filter, search_eq_filter]
  refine List.monotone_filter_right _ fun r hq => ?_
  exact decide_eq_true (h.matches (of_decide_eq_true hq))

/-! ## Searches for what has just been written -/

/-- A set finds an entry, and the set of all values of the entry finds it and its likes. -/
def FindsBack (s : Store) (fields : FieldSet) (id : EntryId) : Prop :=
  ∃ e, s.fetch id = .ok ⟨id, e⟩ ∧ ⟨id, e⟩ ∈ s.search fields ∧
    ⟨id, e⟩ ∈ s.search (.ofFields e) ∧ ∀ r ∈ s.search (.ofFields e), r.fields = e

theorem findsBack_of_fetch (he : (fields.applyTo e).IsComplete)
    (h : s.fetch id = .ok ⟨id, fields.applyTo e⟩) : s.FindsBack fields id :=
  ⟨_, h, mem_search_iff.mpr ⟨h, FieldSet.matches_applyTo fields e⟩,
    mem_search_iff.mpr ⟨h, FieldSet.matches_ofFields _⟩,
    fun _ hr => (FieldSet.matches_ofFields_iff he).mp (mem_search_iff.mp hr).2⟩

theorem fetch_of_find? {stored : Stored} (h : s.find? id = some stored) :
    s.fetch id = .ok ⟨id, stored.fields⟩ := by
  rw [fetch_eq, get_eq_ok_iff.mpr h]
  rfl

theorem findsBack_created (h : s.create fields = .ok (id, next)) : next.FindsBack fields id := by
  obtain ⟨hcomplete, rfl, rfl⟩ := create_eq_ok h
  exact findsBack_of_fetch hcomplete
    (fetch_of_find? ((find?_withRow _ _ _ _).trans (if_pos rfl)))

theorem findsBack_changed (h : s.change id fields = .ok (r, next)) :
    r = id ∧ next.FindsBack fields id := by
  obtain ⟨stored, hfind, hcomplete, rfl, rfl⟩ := change_eq_ok h
  exact ⟨rfl, findsBack_of_fetch hcomplete
    (fetch_of_find? ((find?_put_of_some hfind _ _).trans (if_pos rfl)))⟩

/-- A search keeps those of the listed entries that have what the set asks for, in their order, and
finds no more if the set asks for more. What a set has made or changed, it finds at once, and so
does the set of all values that the entry has then. -/
theorem search_exact (s : Store) :
    (∀ r, r ∈ s.list ↔ s.fetch r.id = .ok r) ∧
    (∀ p : FieldSet, s.search p = s.list.filter (fun r => p.Matches r.fields) ∧
      ((s.search p).map EntryRecord.id).Pairwise (· < ·)) ∧
    (∀ p q : FieldSet, q.Narrows p → (s.search q).Sublist (s.search p)) ∧
    (∀ fields id next, s.create fields = .ok (id, next) → next.FindsBack fields id) ∧
    ∀ fields id r next, s.change id fields = .ok (r, next) →
      r = id ∧ next.FindsBack fields id :=
  ⟨fun _ => mem_list_iff, fun p => ⟨s.search_eq_filter p, s.search_pairwise p⟩,
    fun _ _ h => search_sublist h, fun _ _ _ h => findsBack_created h,
    fun _ _ _ _ h => findsBack_changed h⟩

/-- Of three entries, two are found by their application, whatever site they have and although the
set gives a port that is none. One of them is found by the patch that moves it. -/
theorem search_exact_moved :
    let fields : FieldSet := .ofFields
      { app := "a", site := "b", mach := "c", node := "d", port := 1, pid := 2, comp := "e",
        tag := "f" }
    let s : Store :=
      (∅ : Store).after [.create fields, .create { fields with app := some "x" }, .create fields]
    let p : FieldSet := { app := some "a", site := some "", port := some 0 }
    let patch : FieldSet := { site := some "z", pid := some (-1) }
    let next : Store := s.act (.change 3 patch)
    (s.search p).map EntryRecord.id = [1, 3] ∧
      (s.search { p with port := some 1, tag := some "f" }).Sublist (s.search p) ∧
      s.change 3 patch = .ok (3, next) ∧ next.FindsBack patch 3 ∧
      (next.search patch).map EntryRecord.id = [3] := by
  intro fields s p patch next
  obtain ⟨-, -, hnarrow, -, hchange⟩ := search_exact s
  have hnarrows : FieldSet.Narrows { p with port := some 1, tag := some "f" } p := by
    refine ⟨fun f t ht => ?_, fun f n hn => ?_⟩
    · cases f with
      | tag => cases ht.1
      | _ => exact ht.1
    · cases f with
      | port =>
          obtain ⟨hzero, hpos⟩ := hn
          cases hzero
          exact absurd hpos (by decide)
      | _ => exact hn.1
  have hchanged : s.change 3 patch = .ok (3, next) := by decide +kernel
  obtain ⟨-, hfound⟩ := hchange patch 3 3 next hchanged
  exact ⟨by decide +kernel, hnarrow _ _ hnarrows, hchanged, hfound, by decide +kernel⟩

end Store

end ToolRegistry
