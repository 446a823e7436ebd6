import ToolRegistry.Proofs.InPlace

/-!
# Texts by their positions

The texts attached to an entry have positions that count from 1, and a request
may name any number of 64 bits. Two operations have to make something of it, and
they do so differently. To show a text, one is taken off the position and the
list is asked whether there is anything; to remove one, the position is compared
with the length of the list, and only then is one taken off. At 0 the first
would wrap and the second would remove the first text, if they did not look at 0
on their own.

`HasTexts` says what all reads of an entry tell if its texts are those of a
list. Attaching a text and removing one lead from one such list to another, so
nothing has to be said about positions that is not said about lists: a removed
text brings the later ones one position down, and of two that are removed it does
not matter which goes first, if its going is allowed for in the position of the
other.
-/

namespace ToolRegistry

theorem eraseIdx_eraseIdx_of_lt {α : Type} (l : List α) {i j : Nat} (h : i < j) :
    (l.eraseIdx j).eraseIdx i = (l.eraseIdx i).eraseIdx (j - 1) := by
  refine List.ext_getElem? fun k => ?_
  simp only [List.getElem?_eraseIdx]
  -- The places before both, between the two and behind both.
  by_cases hi : k < i
  · have hj : k < j := by omega
    have hj' : k < j - 1 := by omega
    simp [hi, hj, hj']
  · by_cases hj : k + 1 < j
    · have hj' : k < j - 1 := by omega
      simp [hi, hj, hj']
    · have hj' : ¬k < j - 1 := by omega
      have hi' : ¬k + 1 < i := by omega
      simp [hi, hj, hj', hi']

namespace Store

variable {s : Store} {id : EntryId} {stored : Stored} {ts : List Text}

/-- Whatever is asked about the texts of an entry, the answer is that of this list. -/
structure HasTexts (s : Store) (id : EntryId) (ts : List Text) : Prop where
  listed : s.listStrings id = .ok ts
  counted : s.countStrings id = .ok ts.length
  /-- A text has the position one above its place in the list. -/
  shown : ∀ (pos : UInt64) i (hi : i < ts.length), pos.toNat = i + 1 →
    s.getString id pos = .ok ts[i]
  /-- There is nothing at 0 and beyond the last text. -/
  beyond : ∀ pos : UInt64, pos.toNat = 0 ∨ ts.length < pos.toNat →
    s.getString id pos = .error (.noString id pos)

theorem toNat_eq_zero {pos : UInt64} : pos.toNat = 0 ↔ pos = 0 :=
  ⟨fun h => UInt64.toNat_inj.mp h, fun h => h ▸ rfl⟩

theorem hasTexts_of_find? (h : s.find? id = some stored) : s.HasTexts id stored.strings := by
  have hget : s.get id = .ok stored := get_eq_ok_iff.mpr h
  refine ⟨?_, ?_, fun pos i hi hpos => ?_, fun pos hpos => ?_⟩
  · rw [listStrings_eq, hget]
    rfl
  · rw [countStrings_eq, hget]
    rfl
  · have hne : pos ≠ 0 := by
      intro hzero
      rw [toNat_eq_zero.mpr hzero] at hpos
      omega
    rw [getString_eq, hget]
    simp [if_neg hne, hpos, hi]
  · rw [getString_eq, hget]
    by_cases hzero : pos = 0
    · simp [hzero]
    · have hnone : stored.strings[pos.toNat - 1]? = none := by
        have hpositive := mt toNat_eq_zero.mp hzero
        refine List.getElem?_eq_none ?_
        omega
      simp [hzero, hnone]

theorem find?_of_listStrings (h : s.listStrings id = .ok ts) :
    ∃ stored, s.find? id = some stored ∧ stored.strings = ts := by
  rw [listStrings_eq] at h
  obtain ⟨stored, hget, hts⟩ := Except.map_eq_ok.mp h
  exact ⟨stored, get_eq_ok_iff.mp hget, hts⟩

/-- The entry with another list of texts. -/
def withTexts (s : Store) (id : EntryId) (stored : Stored) (strings : List Text) : Store :=
  s.put id { stored with strings }

theorem find?_withTexts (h : s.find? id = some stored) (strings : List Text) :
    (s.withTexts id stored strings).find? id = some { stored with strings } := by
  rw [withTexts, find?_put_of_some h, if_pos rfl]

theorem addString_of_find? (h : s.find? id = some stored) (t : Text) :
    s.addString id t =
      .ok (stored.strings.length + 1, s.withTexts id stored (stored.strings ++ [t])) := by
  rw [addString_eq, get_eq_ok_iff.mpr h]
  rfl

theorem deleteString_of_find? (h : s.find? id = some stored) {pos : UInt64}
    (hone : 1 ≤ pos.toNat) (hlast : pos.toNat ≤ stored.strings.length) :
    s.deleteString id pos =
      .ok (s.withTexts id stored (stored.strings.eraseIdx (pos.toNat - 1))) := by
  have hin : ¬(pos = 0 ∨ stored.strings.length < pos.toNat) := by
    rw [← toNat_eq_zero]
    omega
  rw [deleteString_eq, get_eq_ok_iff.mpr h]
  simp only [if_neg hin]
  rfl

theorem hasTexts_withTexts (h : s.find? id = some stored) (strings : List Text) :
    (s.withTexts id stored strings).HasTexts id strings :=
  hasTexts_of_find? (find?_withTexts h strings)

/-- Of several changes to the texts of an entry the last one counts. -/
theorem withTexts_withTexts (s : Store) (id : EntryId) (stored : Stored)
    (first second : List Text) :
    (s.withTexts id stored first).withTexts id { stored with strings := first } second =
      s.withTexts id stored second :=
  put_put s id _ _

theorem withTexts_self (h : s.find? id = some stored) :
    s.withTexts id stored stored.strings = s :=
  put_self h

/-- The text that has just been attached is at the position that was answered. -/
theorem deleteString_attached (h : s.find? id = some stored) (t : Text) {pos : UInt64}
    (hpos : pos.toNat = stored.strings.length + 1) :
    (s.withTexts id stored (stored.strings ++ [t])).deleteString id pos = .ok s := by
  have hfind := find?_withTexts h (stored.strings ++ [t])
  have hlength : (stored.strings ++ [t]).length = stored.strings.length + 1 := by simp
  have hlast : (stored.strings ++ [t]).eraseIdx stored.strings.length = stored.strings := by
    rw [List.eraseIdx_append_of_length_le (Nat.le_refl _), Nat.sub_self]
    simp
  rw [deleteString_of_find? hfind (by omega) (by simp only [hlength]; omega), hpos,
    Nat.add_sub_cancel, withTexts_withTexts, hlast, withTexts_self h]

/-- Texts in front of the removed one stay where they are, and those behind it come one down. -/
theorem HasTexts.getString_erased {next : Store} {pos : UInt64}
    (hnext : next.HasTexts id (ts.eraseIdx (pos.toNat - 1))) (hone : 1 ≤ pos.toNat)
    (hlast : pos.toNat ≤ ts.length) (j : UInt64) :
    (∀ hj : j.toNat - 1 < ts.length, 1 ≤ j.toNat → j < pos →
      next.getString id j = .ok ts[j.toNat - 1]) ∧
    (∀ hj : j.toNat < ts.length, pos ≤ j → next.getString id j = .ok ts[j.toNat]) ∧
    (j.toNat = 0 ∨ ts.length ≤ j.toNat → next.getString id j = .error (.noString id j)) := by
  have hlength : (ts.eraseIdx (pos.toNat - 1)).length = ts.length - 1 :=
    List.length_eraseIdx_of_lt (by omega)
  refine ⟨fun hj hjone hless => ?_, fun hj hmore => ?_, fun hj => ?_⟩
  · have hless := UInt64.lt_iff_toNat_lt.mp hless
    have hin : j.toNat - 1 < (ts.eraseIdx (pos.toNat - 1)).length := by omega
    rw [hnext.shown j (j.toNat - 1) hin (by omega), List.getElem_eraseIdx_of_lt _ (by omega)]
  · have hmore := UInt64.le_iff_toNat_le.mp hmore
    have hin : j.toNat - 1 < (ts.eraseIdx (pos.toNat - 1)).length := by omega
    have hback : j.toNat - 1 + 1 = j.toNat := by omega
    rw [hnext.shown j (j.toNat - 1) hin hback.symm, List.getElem_eraseIdx_of_ge _ (by omega)]
    simp only [hback]
  · refine hnext.beyond j ?_
    omega

/-- It does not matter which of two texts is removed first. -/
theorem deleteString_twice (h : s.find? id = some stored) {p q : UInt64} (hone : 1 ≤ p.toNat)
    (hpq : p < q) (hlast : q.toNat ≤ stored.strings.length) :
    ∃ a b last, s.deleteString id q = .ok a ∧ a.deleteString id p = .ok last ∧
      s.deleteString id p = .ok b ∧ b.deleteString id (q - 1) = .ok last := by
  have hless := UInt64.lt_iff_toNat_lt.mp hpq
  have hdown : (q - 1).toNat = q.toNat - 1 := by
    refine UInt64.toNat_sub_of_le q 1 (UInt64.le_iff_toNat_le.mpr ?_)
    show 1 ≤ q.toNat
    omega
  have hwithout : ∀ r : UInt64, 1 ≤ r.toNat → r.toNat ≤ stored.strings.length →
      (stored.strings.eraseIdx (r.toNat - 1)).length = stored.strings.length - 1 :=
    fun r _ _ => List.length_eraseIdx_of_lt (by omega)
  have hq := hwithout q (by omega) hlast
  have hp := hwithout p hone (by omega)
  refine ⟨_, _, _, deleteString_of_find? h (by omega) hlast,
    deleteString_of_find? (find?_withTexts h _) hone (by simp only [hq]; omega),
    deleteString_of_find? h hone (by omega), ?_⟩
  rw [deleteString_of_find? (find?_withTexts h _) (by omega) (by simp only [hp]; omega),
    withTexts_withTexts, withTexts_withTexts, hdown,
    eraseIdx_eraseIdx_of_lt stored.strings (by omega : p.toNat - 1 < q.toNat - 1)]

/-- Whatever texts an entry has, the reads tell a list that counts from 1, attaching a text and
removing one are what they are on that list, and a position that it does not have is refused and
nothing is written. What is attached can be taken back. -/
theorem texts_by_position (h : s.listStrings id = .ok ts) :
    s.HasTexts id ts ∧
    (∀ t, ∃ next, s.addString id t = .ok (ts.length + 1, next) ∧ next.HasTexts id (ts ++ [t]) ∧
      ∀ pos : UInt64, pos.toNat = ts.length + 1 → next.deleteString id pos = .ok s) ∧
    (∀ pos : UInt64, pos.toNat = 0 ∨ ts.length < pos.toNat →
      s.deleteString id pos = .error (.noString id pos) ∧
        (InPlace.deleteString id pos).on s = (.error (.noString id pos), s)) ∧
    (∀ pos : UInt64, 1 ≤ pos.toNat → pos.toNat ≤ ts.length →
      ∃ next, s.deleteString id pos = .ok next ∧
        next.HasTexts id (ts.eraseIdx (pos.toNat - 1)) ∧
        next.countStrings id = .ok (ts.length - 1) ∧
        ∀ j : UInt64,
          (∀ hj : j.toNat - 1 < ts.length, 1 ≤ j.toNat → j < pos →
            next.getString id j = .ok ts[j.toNat - 1]) ∧
          (∀ hj : j.toNat < ts.length, pos ≤ j → next.getString id j = .ok ts[j.toNat]) ∧
          (j.toNat = 0 ∨ ts.length ≤ j.toNat → next.getString id j = .error (.noString id j))) ∧
    ∀ p q : UInt64, 1 ≤ p.toNat → p < q → q.toNat ≤ ts.length →
      ∃ a b last, s.deleteString id q = .ok a ∧ a.deleteString id p = .ok last ∧
        s.deleteString id p = .ok b ∧ b.deleteString id (q - 1) = .ok last := by
  obtain ⟨stored, hfind, rfl⟩ := find?_of_listStrings h
  refine ⟨hasTexts_of_find? hfind, fun t => ?_, fun pos hpos => ?_, fun pos hone hlast => ?_,
    fun p q hone hpq hlast => deleteString_twice hfind hone hpq hlast⟩
  · exact ⟨_, addString_of_find? hfind t, hasTexts_withTexts hfind _,
      fun pos hpos => deleteString_attached hfind t hpos⟩
  · have hrefused : s.deleteString id pos = .error (.noString id pos) := by
      rw [toNat_eq_zero] at hpos
      rw [deleteString_eq, get_eq_ok_iff.mpr hfind]
      simp only [if_pos hpos]
    refine ⟨hrefused, ?_⟩
    have hplace := InPlace.follows_deleteString id pos s
    simp only [hrefused, Except.map] at hplace
    exact hplace
  · have hnext := hasTexts_withTexts hfind (stored.strings.eraseIdx (pos.toNat - 1))
    refine ⟨_, deleteString_of_find? hfind hone hlast, hnext, ?_,
      hnext.getString_erased hone hlast⟩
    rw [hnext.counted, List.length_eraseIdx_of_lt (by omega)]

/-- Of three texts the first and the last are removed, in both orders. The position 0 is that of no
text, and neither is the greatest position that a request can name. -/
theorem texts_by_position_three :
    let fields : EntryFields :=
      { app := "a", site := "b", mach := "c", node := "d", port := 1, pid := 2, comp := "e",
        tag := "f" }
    let s : Store := ⟨[(1, ⟨fields, ["x", "y", "z"]⟩)], 2, List.pairwise_singleton _ _⟩
    let last : Store := ⟨[(1, ⟨fields, ["y"]⟩)], 2, List.pairwise_singleton _ _⟩
    let top : UInt64 := 18446744073709551615
    s.listStrings 1 = .ok ["x", "y", "z"] ∧ s.HasTexts 1 ["x", "y", "z"] ∧
      s.getString 1 3 = .ok "z" ∧ s.getString 1 0 = .error (.noString 1 0) ∧
      (InPlace.deleteString 1 top).on s = (.error (.noString 1 top), s) ∧
      (∃ next, s.addString 1 "u" = .ok (4, next) ∧ next.deleteString 1 4 = .ok s) ∧
      ∃ a b, s.deleteString 1 3 = .ok a ∧ a.deleteString 1 1 = .ok last ∧
        s.deleteString 1 1 = .ok b ∧ b.deleteString 1 2 = .ok last := by
  intro fields s last top
  have hlist : s.listStrings 1 = .ok ["x", "y", "z"] := by decide
  obtain ⟨htexts, hattach, hrefuse, -, htwice⟩ := texts_by_position hlist
  obtain ⟨next, hadd, -, hback⟩ := hattach "u"
  obtain ⟨a, b, final, ha, hlast, hb, hlast'⟩ :=
    htwice 1 3 (by decide) (by decide) (by decide)
  have hfinal : final = last := by
    have hboth : (s.deleteString 1 3 >>= (·.deleteString 1 1)) = .ok last := by decide
    rw [ha] at hboth
    exact Except.ok.inj (hlast.symm.trans hboth)
  subst hfinal
  exact ⟨hlist, htexts, htexts.shown 3 2 (by decide) rfl, htexts.beyond 0 (.inl rfl),
    (hrefuse top (.inr (by decide))).2, ⟨next, hadd, hback 4 rfl⟩, a, b, ha, hlast, hb, hlast'⟩

end Store

end ToolRegistry
