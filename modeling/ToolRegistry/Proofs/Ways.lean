import ToolRegistry.FileSystem

/-!
# Where paths lead

A path is gone part by part, and at a link the way goes on from the outermost
directory with other parts. So what can be said of a way by induction is not an
induction on its parts, nor on the links that are left, but on the way itself.
It is told by a relation with one constructor for each way to go on (`Leads`),
and `along` finds it (`along_eq_ok`).

A way meets directories and links and nothing else before its end, so it stays
where it is as long as those stay (`Leads.mono`), whatever becomes of the files.
And two paths that differ in nothing but their last name go the same way up to
it, through whatever links (`Leads.siblings`).

On a way without links the places are known from its parts alone (`endOf`). Then
a directory that is missing is all that can stop it (`follow_of_free`).
-/

namespace ToolRegistry

namespace Path

/-- A part that is the name of something. -/
def IsName (part : Text) : Prop := stays part = false ∧ part ≠ back

instance (part : Text) : Decidable (IsName part) := inferInstanceAs (Decidable (_ ∧ _))

/-- A part that is no longer than names may be. -/
def Fits (part : Text) : Prop := (Utf8.encode part).length ≤ longestName

instance (part : Text) : Decidable (Fits part) := inferInstanceAs (Decidable (_ ≤ _))

theorem fits_of_stays {part : Text} (h : stays part = true) : Fits part := by
  rw [stays, Bool.or_eq_true, decide_eq_true_eq, decide_eq_true_eq] at h
  rcases h with rfl | rfl
  · decide
  · decide

theorem fits_back : Fits back := by decide

theorem IsName.ne_nil {part : Text} (h : IsName part) : part ≠ [] := by
  rintro rfl
  exact absurd h.1 (by decide)

/-- Every part stays, leads back or is a name. -/
theorem part_cases (part : Text) : stays part = true ∨ part = back ∨ IsName part := by
  cases h : stays part with
  | true => exact .inl rfl
  | false => exact .inr ((Decidable.em (part = back)).imp_right fun hback => ⟨h, hback⟩)

end Path

namespace FileSystem

open ToolRegistry.Path

variable {fs fs' : FileSystem} {final : Bool} {links : Nat} {d q : Place} {part name : Text}
  {rest before parts : List Text} {t : Target} {jump : List Text → Except SystemError Target}

/-! ## What is at a place -/

theorem isDirectory_root (fs : FileSystem) : fs.isDirectory [] = true := rfl

theorem link?_eq_none_of_number? (h : fs.number? q = none) : fs.link? q = none := by
  rw [link?, content?, h]
  rfl

theorem number?_of_isDirectory (h : fs.isDirectory q = true) : fs.number? q = none := by
  rw [isDirectory] at h
  rw [number?]
  cases hnode : fs.node? q with
  | none => rfl
  | some n =>
      cases n with
      | directory _ => rfl
      | file _ =>
          rw [hnode] at h
          cases h

/-- Where there is no file, there is a directory or nothing. -/
theorem node?_eq_none (hnumber : fs.number? q = none) (hdir : fs.isDirectory q = false) :
    fs.node? q = none := by
  rw [number?] at hnumber
  rw [isDirectory] at hdir
  cases hnode : fs.node? q with
  | none => rfl
  | some n =>
      cases n with
      | directory _ =>
          rw [hnode] at hdir
          cases hdir
      | file _ =>
          rw [hnode] at hnumber
          cases hnumber

theorem isSome_node?_of_isDirectory (h : fs.isDirectory q = true) :
    (fs.node? q).isSome = true := by
  rw [isDirectory] at h
  cases hnode : fs.node? q with
  | none =>
      rw [hnode] at h
      cases h
  | some n => rfl

/-! ## One part -/

theorem enter_of_fits (h : Fits name) : enter d name = .ok (d ++ [name]) :=
  if_neg (Nat.not_lt.mpr h)

theorem enter_eq_ok (h : enter d name = .ok q) : Fits name ∧ q = d ++ [name] := by
  rw [enter] at h
  split at h
  · cases h
  · next hfits =>
      cases h
      exact ⟨Nat.not_lt.mp hfits, rfl⟩

theorem follow_of_stays (h : stays part = true) :
    fs.follow final jump d (part :: rest) = fs.follow final jump d rest := by
  rw [follow, if_pos h]

theorem follow_back :
    fs.follow final jump d (back :: rest) = fs.follow final jump d.dropLast rest := by
  rw [follow, if_neg (by decide), if_pos rfl]

theorem follow_name (hname : IsName part) (hfits : Fits part) :
    fs.follow final jump d (part :: rest) =
      match fs.link? (d ++ [part]) with
      | some t =>
          if rest = [] ∧ final = false then .ok (.named (d ++ [part]) false)
          else jump ((Path.ofText ⟨d⟩ t).parts ++ rest)
      | none =>
          if rest.all (· = []) then .ok (.named (d ++ [part]) (rest ≠ []))
          else if fs.isDirectory (d ++ [part]) then fs.follow final jump (d ++ [part]) rest
          else
            .error (if (fs.number? (d ++ [part])).isSome then .notADirectory else .notFound) := by
  have h := follow.eq_2 fs final jump d part rest
  rw [if_neg (by rw [hname.1]; decide), if_neg hname.2, enter_of_fits hfits] at h
  exact h

/-! ## Ways -/

/-- How a path leads somewhere from a directory, with so many links that may be followed. -/
inductive Leads (fs : FileSystem) (final : Bool) : Nat → Place → List Text → Target → Prop
  | ends {links : Nat} {d : Place} : Leads fs final links d [] (.directory d)
  | stays {links : Nat} {d : Place} {part : Text} {rest : List Text} {t : Target}
      (h : stays part = true) (hrest : Leads fs final links d rest t) :
      Leads fs final links d (part :: rest) t
  | back {links : Nat} {d : Place} {rest : List Text} {t : Target}
      (hrest : Leads fs final links d.dropLast rest t) : Leads fs final links d (back :: rest) t
  | link {links : Nat} {d : Place} {part l : Text} {rest : List Text} {t : Target}
      (hname : IsName part) (hfits : Fits part) (hlink : fs.link? (d ++ [part]) = some l)
      (hgoes : rest ≠ [] ∨ final = true)
      (hrest : Leads fs final links [] ((Path.ofText ⟨d⟩ l).parts ++ rest) t) :
      Leads fs final (links + 1) d (part :: rest) t
  | kept {links : Nat} {d : Place} {part l : Text} (hname : IsName part) (hfits : Fits part)
      (hlink : fs.link? (d ++ [part]) = some l) (hfinal : final = false) :
      Leads fs final links d [part] (.named (d ++ [part]) false)
  | named {links : Nat} {d : Place} {part : Text} {rest : List Text} (hname : IsName part)
      (hfits : Fits part) (hlink : fs.link? (d ++ [part]) = none)
      (hrest : rest.all (· = []) = true) :
      Leads fs final links d (part :: rest) (.named (d ++ [part]) (rest ≠ []))
  | inside {links : Nat} {d : Place} {part : Text} {rest : List Text} {t : Target}
      (hname : IsName part) (hfits : Fits part) (hlink : fs.link? (d ++ [part]) = none)
      (hmore : rest.all (· = []) = false) (hdir : fs.isDirectory (d ++ [part]) = true)
      (hrest : Leads fs final links (d ++ [part]) rest t) :
      Leads fs final links d (part :: rest) t

theorem leads_of_follow
    (hjump : ∀ parts t, jump parts = .ok t →
      ∃ left, links = left + 1 ∧ Leads fs final left [] parts t)
    (h : fs.follow final jump d parts = .ok t) : Leads fs final links d parts t := by
  induction parts generalizing d with
  | nil =>
      cases h
      exact .ends
  | cons part rest ih =>
      rcases part_cases part with hstays | rfl | hname
      · rw [follow_of_stays hstays] at h
        exact .stays hstays (ih h)
      · rw [follow_back] at h
        exact .back (ih h)
      · rw [follow, if_neg (by rw [hname.1]; decide), if_neg hname.2] at h
        split at h
        · cases h
        · next q henter =>
            obtain ⟨hfits, rfl⟩ := enter_eq_ok henter
            split at h
            · next l hlink =>
                split at h
                · next hkept =>
                    cases h
                    rw [hkept.1]
                    exact .kept hname hfits hlink hkept.2
                · next hgoes =>
                    obtain ⟨left, rfl, hrest⟩ := hjump _ _ h
                    refine .link hname hfits hlink ?_ hrest
                    rcases Decidable.em (rest = []) with hnil | hne
                    · exact .inr (by simpa [hnil] using hgoes)
                    · exact .inl hne
            · next hlink =>
                split at h
                · next hrest =>
                    cases h
                    exact .named hname hfits hlink hrest
                · next hmore =>
                    split at h
                    · next hdir =>
                        exact .inside hname hfits hlink (eq_false_of_ne_true hmore) hdir (ih h)
                    · cases h

/-- There is one way only, so which constructor it begins with is known from its first part. -/
theorem follow_of_leads
    (hjump : ∀ left parts t, links = left + 1 → Leads fs final left [] parts t →
      jump parts = .ok t)
    (h : Leads fs final links d parts t) : fs.follow final jump d parts = .ok t := by
  induction parts generalizing d with
  | nil =>
      cases h
      rfl
  | cons part rest ih =>
      cases h with
      | stays hstays hrest => rw [follow_of_stays hstays, ih hrest]
      | back hrest => rw [follow_back, ih hrest]
      | link hname hfits hlink hgoes hrest =>
          have hno : ¬(rest = [] ∧ final = false) := by
            rintro ⟨hnil, hfinal⟩
            rcases hgoes with hne | htrue
            · exact hne hnil
            · rw [hfinal] at htrue
              cases htrue
          simp only [follow_name hname hfits, hlink, if_neg hno]
          exact hjump _ _ _ rfl hrest
      | kept hname hfits hlink hfinal =>
          simp only [follow_name hname hfits, hlink, hfinal, and_self, if_true]
      | named hname hfits hlink hrest =>
          simp only [follow_name hname hfits, hlink, hrest, if_true]
      | inside hname hfits hlink hmore hdir hrest =>
          simp only [follow_name hname hfits, hlink, hmore, hdir, if_true, Bool.false_eq_true,
            if_false]
          exact ih hrest

theorem along_eq_ok : fs.along final links parts = .ok t ↔ Leads fs final links [] parts t := by
  induction links generalizing parts t with
  | zero =>
      constructor
      · refine leads_of_follow ?_
        rintro parts t ⟨⟩
      · refine follow_of_leads ?_
        rintro left parts t ⟨⟩
  | succ links ih =>
      constructor
      · exact leads_of_follow fun parts t h => ⟨links, rfl, ih.mp h⟩
      · refine follow_of_leads ?_
        rintro left parts t ⟨⟩ h
        exact ih.mpr h

/-- What comes of a way before any link is followed does not depend on how many there may be. -/
theorem along_eq_of_follow {r : Except SystemError Target}
    (h : ∀ jump, fs.follow final jump [] parts = r) : fs.along final links parts = r := by
  cases links with
  | zero => exact h _
  | succ links => exact h _

theorem resolve_eq_ok {p : Path} :
    fs.resolve final p = .ok t ↔
      p.fault? = none ∧ Leads fs final mostLinks [] p.parts t := by
  rw [resolve]
  cases p.fault? with
  | some e => exact ⟨fun h => (by cases h), fun h => (by cases h.1)⟩
  | none => exact along_eq_ok.trans ⟨fun h => ⟨rfl, h⟩, fun h => h.2⟩

/-! ## Where a way ends -/

/-- A directory is there, and what has a name has it in a directory. -/
def IsHeld (fs : FileSystem) : Target → Prop
  | .directory d => fs.isDirectory d = true
  | .named q _ => q ≠ [] ∧ fs.isDirectory q.dropLast = true

/-- What there is at the end of a way is a directory. -/
def IsInto (fs : FileSystem) : Target → Prop
  | .directory _ => True
  | .named q _ => fs.isDirectory q = true

namespace Leads

theorem isHeld (h : Leads fs final links d parts t) (hd : fs.isDirectory d = true) :
    fs.IsHeld t := by
  induction h with
  | ends => exact hd
  | stays _ _ ih => exact ih hd
  | back _ ih => exact ih (Node.isDirectory_dropLast hd)
  | link _ _ _ _ _ ih => exact ih fs.isDirectory_root
  | kept | named => exact ⟨by simp, by rwa [List.dropLast_concat]⟩
  | inside _ _ _ _ hdir _ ih => exact ih hdir

/-- A way is not stopped by further directories. -/
theorem mono (h : Leads fs final links d parts t)
    (hdirs : ∀ r, fs.isDirectory r = true → fs'.isDirectory r = true)
    (hlinks : ∀ r, fs'.link? r = fs.link? r) : Leads fs' final links d parts t := by
  induction h with
  | ends => exact .ends
  | stays h _ ih => exact .stays h ih
  | back _ ih => exact .back ih
  | link hname hfits hlink hgoes _ ih => exact .link hname hfits ((hlinks _).trans hlink) hgoes ih
  | kept hname hfits hlink hfinal => exact .kept hname hfits ((hlinks _).trans hlink) hfinal
  | named hname hfits hlink hrest => exact .named hname hfits ((hlinks _).trans hlink) hrest
  | inside hname hfits hlink hmore hdir _ ih =>
      exact .inside hname hfits ((hlinks _).trans hlink) hmore (hdirs _ hdir) ih

/-- What is named is not a link, if links are followed to the end. -/
theorem link?_eq_none {slash : Bool} (h : Leads fs true links d parts t)
    (ht : t = .named q slash) : fs.link? q = none := by
  induction h with
  | ends => cases ht
  | stays _ _ ih | back _ ih | link _ _ _ _ _ ih | inside _ _ _ _ _ _ ih => exact ih ht
  | kept _ _ _ hfinal => cases hfinal
  | named _ _ hlink _ =>
      cases ht
      exact hlink

/-- Whoever follows the last link ends where nobody follows it, if there is none. -/
theorem followed {slash : Bool} (h : Leads fs false links d parts t) (ht : t = .named q slash)
    (hlink : fs.link? q = none) : Leads fs true links d parts t := by
  induction h with
  | ends => exact .ends
  | stays h _ ih => exact .stays h (ih ht)
  | back _ ih => exact .back (ih ht)
  | link hname hfits hlink' _ _ ih => exact .link hname hfits hlink' (.inr rfl) (ih ht)
  | kept _ _ hlink' _ =>
      cases ht
      rw [hlink] at hlink'
      cases hlink'
  | named hname hfits hlink' hrest => exact .named hname hfits hlink' hrest
  | inside hname hfits hlink' hmore hdir _ ih => exact .inside hname hfits hlink' hmore hdir (ih ht)

/-- What is reached by following the last link is named by not following it, or a link is. -/
theorem unfollowed (h : Leads fs true links d parts t) :
    Leads fs false links d parts t ∨
      ∃ q, Leads fs false links d parts (.named q false) ∧ (fs.link? q).isSome = true := by
  induction h with
  | ends => exact .inl .ends
  | stays h _ ih => exact ih.imp (.stays h) fun ⟨q, hq, hlink⟩ => ⟨q, .stays h hq, hlink⟩
  | back _ ih => exact ih.imp .back fun ⟨q, hq, hlink⟩ => ⟨q, .back hq, hlink⟩
  | @link _ d part _ rest _ hname hfits hlink _ _ ih =>
      cases rest with
      | nil => exact .inr ⟨d ++ [part], .kept hname hfits hlink rfl, by rw [hlink]; rfl⟩
      | cons other rest =>
          have hgoes : other :: rest ≠ [] ∨ false = true := .inl (List.cons_ne_nil _ _)
          exact ih.imp (.link hname hfits hlink hgoes)
            fun ⟨q, hq, hlink'⟩ => ⟨q, .link hname hfits hlink hgoes hq, hlink'⟩
  | kept _ _ _ hfinal => cases hfinal
  | named hname hfits hlink hrest => exact .inl (.named hname hfits hlink hrest)
  | inside hname hfits hlink hmore hdir _ ih =>
      exact ih.imp (.inside hname hfits hlink hmore hdir)
        fun ⟨q, hq, hlink'⟩ => ⟨q, .inside hname hfits hlink hmore hdir hq, hlink'⟩

/-- A name at the end of a path is one in the directory in which it stands. -/
theorem atName (hname : IsName name) (hfits : Fits name) :
    Leads fs false links d [name] (.named (d ++ [name]) false) := by
  cases hlink : fs.link? (d ++ [name]) with
  | some l => exact .kept hname hfits hlink rfl
  | none => exact .named hname hfits hlink rfl

/-- A path that names something ends in its name, and with any other name at its end it names what
has that one in the same directory. -/
theorem siblings {r : Place} (h : Leads fs false links d parts t) (ht : t = .named r false) :
    ∃ before name e, parts = before ++ [name] ∧ IsName name ∧ Fits name ∧ r = e ++ [name] ∧
      ∀ other, IsName other → Fits other →
        Leads fs false links d (before ++ [other]) (.named (e ++ [other]) false) := by
  induction h with
  | ends => cases ht
  | @stays _ _ part _ _ h _ ih =>
      obtain ⟨before, name, e, rfl, hname, hfits, hr, hothers⟩ := ih ht
      exact ⟨part :: before, name, e, rfl, hname, hfits, hr,
        fun other hother hfit => .stays h (hothers other hother hfit)⟩
  | back _ ih =>
      obtain ⟨before, name, e, rfl, hname, hfits, hr, hothers⟩ := ih ht
      exact ⟨Path.back :: before, name, e, rfl, hname, hfits, hr,
        fun other hother hfit => .back (hothers other hother hfit)⟩
  | @link _ d part l rest _ hpart hpartFits hlink hgoes _ ih =>
      obtain ⟨before, name, e, hparts, hname, hfits, hr, hothers⟩ := ih ht
      -- The link has not been the last part, so the name behind it is the one of the path.
      have hne : rest ≠ [] := hgoes.resolve_right Bool.false_ne_true
      have hrest : rest = rest.dropLast ++ [rest.getLast hne] :=
        (List.dropLast_concat_getLast hne).symm
      generalize rest.dropLast = front, rest.getLast hne = last at hrest
      rw [hrest, ← List.append_assoc] at hparts
      obtain ⟨rfl, hlast⟩ := List.append_inj' hparts rfl
      cases hlast
      refine ⟨part :: front, name, e, by rw [hrest]; rfl, hname, hfits, hr,
        fun other hother hfit => ?_⟩
      have hfront : front ++ [other] ≠ [] ∨ false = true := .inl (by simp)
      have hfollowed := hothers other hother hfit
      rw [List.append_assoc] at hfollowed
      exact .link hpart hpartFits hlink hfront hfollowed
  | @kept _ d part _ hname hfits _ _ =>
      cases ht
      exact ⟨[], part, d, rfl, hname, hfits, rfl, fun other => .atName⟩
  | @named _ d part rest hname hfits _ _ =>
      simp only [Target.named.injEq, decide_eq_false_iff_not, ne_eq, Decidable.not_not] at ht
      obtain ⟨rfl, rfl⟩ := ht
      exact ⟨[], part, d, rfl, hname, hfits, rfl, fun other => .atName⟩
  | @inside _ _ part _ _ hpart hpartFits hlink _ hdir _ ih =>
      obtain ⟨before, name, e, rfl, hname, hfits, hr, hothers⟩ := ih ht
      refine ⟨part :: before, name, e, rfl, hname, hfits, hr, fun other hother hfit => ?_⟩
      exact .inside hpart hpartFits hlink (by simp [hother.ne_nil]) hdir (hothers other hother hfit)

/-- What is before the last part of a way into a directory is a way into a directory. -/
theorem front {last : Text} (h : Leads fs true links d parts t) (hinto : fs.IsInto t)
    (hparts : parts = before ++ [last]) : ∃ t', Leads fs true links d before t' ∧ fs.IsInto t' := by
  -- The parts are generalized because those behind a link begin with the parts of the link.
  induction h generalizing before with
  | ends => simp at hparts
  | stays hstays _ ih =>
      cases before with
      | nil => exact ⟨_, .ends, trivial⟩
      | cons _ before =>
          obtain ⟨rfl, hrest⟩ := List.cons.inj hparts
          obtain ⟨t', hleads, ht'⟩ := ih hinto hrest
          exact ⟨t', .stays hstays hleads, ht'⟩
  | back _ ih =>
      cases before with
      | nil => exact ⟨_, .ends, trivial⟩
      | cons _ before =>
          obtain ⟨rfl, hrest⟩ := List.cons.inj hparts
          obtain ⟨t', hleads, ht'⟩ := ih hinto hrest
          exact ⟨t', .back hleads, ht'⟩
  | link hname hfits hlink _ _ ih =>
      cases before with
      | nil => exact ⟨_, .ends, trivial⟩
      | cons _ before =>
          obtain ⟨rfl, rfl⟩ := List.cons.inj hparts
          obtain ⟨t', hleads, ht'⟩ := ih hinto (List.append_assoc _ _ _).symm
          exact ⟨t', .link hname hfits hlink (.inr rfl) hleads, ht'⟩
  | kept _ _ _ hfinal => cases hfinal
  | named hname hfits hlink hrest =>
      cases before with
      | nil => exact ⟨_, .ends, trivial⟩
      | cons _ before =>
          obtain ⟨rfl, hbefore⟩ := List.cons.inj hparts
          rw [hbefore, List.append_eq, List.all_append, Bool.and_eq_true] at hrest
          exact ⟨_, .named hname hfits hlink hrest.1, hinto⟩
  | inside hname hfits hlink _ hdir _ ih =>
      cases before with
      | nil => exact ⟨_, .ends, trivial⟩
      | cons _ before =>
          obtain ⟨rfl, rfl⟩ := List.cons.inj hparts
          cases hmore : before.all (· = []) with
          | true => exact ⟨_, .named hname hfits hlink hmore, hdir⟩
          | false =>
              obtain ⟨t', hleads, ht'⟩ := ih hinto rfl
              exact ⟨t', .inside hname hfits hlink hmore hdir hleads, ht'⟩

end Leads

/-! ## Ways without links -/

end FileSystem

namespace Path

variable {d : Place} {part : Text} {rest : List Text}

/-- The place where a way ends that starts in a directory, if there are no links. -/
def endOf (d : Place) : List Text → Place
  | [] => d
  | part :: rest =>
      if stays part then endOf d rest
      else if part = back then endOf d.dropLast rest
      else endOf (d ++ [part]) rest

theorem endOf_stays (h : stays part = true) : endOf d (part :: rest) = endOf d rest := by
  rw [endOf, if_pos h]

theorem endOf_back : endOf d (back :: rest) = endOf d.dropLast rest := by
  rw [endOf, if_neg (by decide), if_pos rfl]

theorem endOf_name (h : IsName part) : endOf d (part :: rest) = endOf (d ++ [part]) rest := by
  rw [endOf, if_neg (by rw [h.1]; decide), if_neg h.2]

theorem placesAlong_stays (h : stays part = true) :
    placesAlong d (part :: rest) = placesAlong d rest := by
  rw [placesAlong, if_pos h]

theorem placesAlong_back : placesAlong d (back :: rest) = placesAlong d.dropLast rest := by
  rw [placesAlong, if_neg (by decide), if_pos rfl]

theorem placesAlong_name (h : IsName part) :
    placesAlong d (part :: rest) = (d ++ [part]) :: placesAlong (d ++ [part]) rest := by
  rw [placesAlong, if_neg (by rw [h.1]; decide), if_neg h.2]

theorem placesAlong_append (d : Place) (front rest : List Text) :
    placesAlong d (front ++ rest) = placesAlong d front ++ placesAlong (endOf d front) rest := by
  induction front generalizing d with
  | nil => rfl
  | cons part front ih =>
      rw [List.cons_append]
      rcases part_cases part with hstays | rfl | hname
      · rw [placesAlong_stays hstays, placesAlong_stays hstays, endOf_stays hstays, ih]
      · rw [placesAlong_back, placesAlong_back, endOf_back, ih]
      · rw [placesAlong_name hname, placesAlong_name hname, endOf_name hname, ih, List.cons_append]

theorem placesAlong_concat_name (h : IsName part) (front : List Text) :
    placesAlong d (front ++ [part]) = placesAlong d front ++ [endOf d front ++ [part]] := by
  rw [placesAlong_append, placesAlong_name h]
  rfl

end Path

namespace FileSystem

open ToolRegistry.Path

variable {fs : FileSystem} {final : Bool} {links : Nat} {d : Place} {name : Text}
  {rest before parts : List Text} {t : Target} {jump : List Text → Except SystemError Target}

theorem all_nil_append (before : List Text) (h : rest.all (· = []) = false) :
    (before ++ rest).all (· = []) = false := by
  rw [List.all_append, h, Bool.and_false]

/-- A way goes through the directories that are there. -/
theorem Leads.through (hfits : ∀ part ∈ before, Fits part)
    (hdirs : ∀ q ∈ placesAlong d before, fs.isDirectory q = true)
    (hmore : rest.all (· = []) = false) (h : Leads fs final links (endOf d before) rest t) :
    Leads fs final links d (before ++ rest) t := by
  induction before generalizing d with
  | nil => exact h
  | cons part before ih =>
      rw [List.forall_mem_cons] at hfits
      rcases part_cases part with hstays | rfl | hname
      · rw [placesAlong_stays hstays] at hdirs
        rw [endOf_stays hstays] at h
        exact .stays hstays (ih hfits.2 hdirs h)
      · rw [placesAlong_back] at hdirs
        rw [endOf_back] at h
        exact .back (ih hfits.2 hdirs h)
      · rw [placesAlong_name hname, List.forall_mem_cons] at hdirs
        rw [endOf_name hname] at h
        exact .inside hname hfits.1 (link?_eq_none_of_number? (number?_of_isDirectory hdirs.1))
          (all_nil_append before hmore) hdirs.1 (ih hfits.2 hdirs.2 h)

/-- A way on which there is no file is stopped by the first directory that is missing. -/
theorem follow_of_free (hfits : ∀ part ∈ before, Fits part)
    (hfree : ∀ q ∈ placesAlong d before, fs.number? q = none)
    (hmissing : ¬∀ q ∈ placesAlong d before, fs.isDirectory q = true)
    (hmore : rest.all (· = []) = false) :
    fs.follow final jump d (before ++ rest) = .error .notFound := by
  induction before generalizing d with
  | nil => exact absurd (fun q hq => (by cases hq)) hmissing
  | cons part before ih =>
      rw [List.forall_mem_cons] at hfits
      rw [List.cons_append]
      rcases part_cases part with hstays | rfl | hname
      · rw [placesAlong_stays hstays] at hfree hmissing
        rw [follow_of_stays hstays]
        exact ih hfits.2 hfree hmissing
      · rw [placesAlong_back] at hfree hmissing
        rw [follow_back]
        exact ih hfits.2 hfree hmissing
      · rw [placesAlong_name hname, List.forall_mem_cons] at hfree hmissing
        simp only [follow_name hname hfits.1, link?_eq_none_of_number? hfree.1, hfree.1,
          all_nil_append before hmore, Bool.false_eq_true, if_false, Option.isSome_none]
        split
        · next hdir => exact ih hfits.2 hfree.2 fun h => hmissing ⟨hdir, h⟩
        · rfl

/-- Without links, what is named by a path has its last name in the directory where the way ends,
and everything before it on the way is a directory. -/
theorem Leads.named_cases {r : Place} (h : Leads fs final links d parts t) (ht : t = .named r false)
    (hlinks : ∀ q ∈ placesAlong d parts, fs.link? q = none) :
    ∃ before name, parts = before ++ [name] ∧ IsName name ∧ r = endOf d before ++ [name] ∧
      (∀ part ∈ parts, Fits part) ∧ ∀ q ∈ placesAlong d before, fs.isDirectory q = true := by
  induction h with
  | ends => cases ht
  | @stays _ _ part _ _ hstays _ ih =>
      rw [placesAlong_stays hstays] at hlinks
      obtain ⟨before, name, rfl, hname, hr, hfits, hdirs⟩ := ih ht hlinks
      refine ⟨part :: before, name, rfl, hname, by rwa [endOf_stays hstays],
        List.forall_mem_cons.mpr ⟨fits_of_stays hstays, hfits⟩, ?_⟩
      rwa [placesAlong_stays hstays]
  | back _ ih =>
      rw [placesAlong_back] at hlinks
      obtain ⟨before, name, rfl, hname, hr, hfits, hdirs⟩ := ih ht hlinks
      refine ⟨Path.back :: before, name, rfl, hname, by rwa [endOf_back],
        List.forall_mem_cons.mpr ⟨fits_back, hfits⟩, ?_⟩
      rwa [placesAlong_back]
  | link hname _ hlink | kept hname _ hlink =>
      rw [placesAlong_name hname, List.forall_mem_cons, hlink] at hlinks
      cases hlinks.1
  | @named _ d part rest hname hfits _ _ =>
      simp only [Target.named.injEq, decide_eq_false_iff_not, ne_eq, Decidable.not_not] at ht
      obtain ⟨rfl, rfl⟩ := ht
      exact ⟨[], part, rfl, hname, rfl, List.forall_mem_singleton.mpr hfits,
        fun q hq => (by cases hq)⟩
  | @inside _ d part _ _ hpart hpartFits _ _ hdir _ ih =>
      rw [placesAlong_name hpart, List.forall_mem_cons] at hlinks
      obtain ⟨before, name, rfl, hname, hr, hfits, hdirs⟩ := ih ht hlinks.2
      refine ⟨part :: before, name, rfl, hname, by rwa [endOf_name hpart],
        List.forall_mem_cons.mpr ⟨hpartFits, hfits⟩, ?_⟩
      rw [placesAlong_name hpart]
      exact List.forall_mem_cons.mpr ⟨hdir, hdirs⟩

theorem Leads.mem_placesAlong {r : Place} (h : Leads fs final links d parts (.named r false))
    (hlinks : ∀ q ∈ placesAlong d parts, fs.link? q = none) : r ∈ placesAlong d parts := by
  obtain ⟨before, name, rfl, hname, rfl, -⟩ := h.named_cases rfl hlinks
  rw [placesAlong_concat_name hname]
  exact List.mem_append_right _ (List.mem_singleton_self _)

end FileSystem

end ToolRegistry
