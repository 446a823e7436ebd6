import ToolRegistry.Proofs.Utf8
import ToolRegistry.Proofs.Ways

/-!
# Creating directories

A directory is created together with those outside it that are missing, and
whether one is missing is found out by trying. Each trial goes along a path, and
between two of them the file system has changed. It has got a directory where
nothing was (`Extends`), so a way that was there is still there, and no file has
been touched by any of it, whether the whole comes to its end or is refused.

It comes to its end wherever no file is in the way (`IsOpen`), a condition on
the parts alone, from which nothing can be seen of how the directories are
created. All that are missing are made then, and no others
(`createAlong_of_isOpen`).
-/

namespace ToolRegistry

/-! ## Paths that are sound -/

namespace Text

theorem join_prefix {between : Text} (front rest : List Text) :
    join between front <+: join between (front ++ rest) := by
  induction front with
  | nil => exact List.nil_prefix
  | cons t front ih =>
      cases front with
      | nil =>
          cases rest with
          | nil => exact List.prefix_refl _
          | cons u rest =>
              rw [List.singleton_append, join, join, List.intercalate_cons_cons,
                List.intercalate_singleton, List.append_assoc]
              exact List.prefix_append _ _
      | cons u front =>
          rw [List.cons_append, List.cons_append, join, join, List.intercalate_cons_cons,
            List.intercalate_cons_cons]
          exact (List.prefix_append_right_inj _).mpr ih

end Text

/-- The front of a path that is sound is sound. -/
theorem Path.fault?_front {front rest : List Text} (h : fault? ⟨front ++ rest⟩ = none) :
    fault? ⟨front⟩ = none := by
  obtain ⟨behind, hrender⟩ : render ⟨front⟩ <+: render ⟨front ++ rest⟩ :=
    List.cons_prefix_cons.mpr ⟨rfl, Text.join_prefix front rest⟩
  rw [fault?, ← hrender] at h
  rw [fault?]
  split at h
  · cases h
  · next hnul =>
      split at h
      · cases h
      · next hlength =>
          rw [Utf8.encode_append, List.length_append] at hlength
          rw [if_neg fun hmem => hnul (List.mem_append_left _ hmem), if_neg (by omega)]

namespace FileSystem

open ToolRegistry.Path

variable {fs fs' fs'' made : FileSystem} {p : Path} {q : Place} {final : Bool} {t : Target}
  {parts before rest : List Text} {last : Text}

/-! ## Steps that take nothing away -/

/-- No directory is missing, and no file has changed. -/
structure Extends (fs fs' : FileSystem) : Prop where
  directories : ∀ r, fs.isDirectory r = true → fs'.isDirectory r = true
  numbers : ∀ r, fs'.number? r = fs.number? r
  contents : fs'.contents = fs.contents

namespace Extends

theorem refl (fs : FileSystem) : Extends fs fs := ⟨fun _ h => h, fun _ => rfl, rfl⟩

theorem trans (h : Extends fs fs') (h' : Extends fs' fs'') : Extends fs fs'' :=
  ⟨fun r hr => h'.directories r (h.directories r hr), fun r => (h'.numbers r).trans (h.numbers r),
    h'.contents.trans h.contents⟩

theorem content? (h : Extends fs fs') (r : Place) : fs'.content? r = fs.content? r := by
  rw [FileSystem.content?, FileSystem.content?, h.numbers, h.contents]

theorem file? (h : Extends fs fs') (r : Place) : fs'.file? r = fs.file? r := by
  rw [FileSystem.file?, FileSystem.file?, h.content?]

theorem link? (h : Extends fs fs') (r : Place) : fs'.link? r = fs.link? r := by
  rw [FileSystem.link?, FileSystem.link?, h.content?]

/-- A path that has led somewhere still leads there. -/
theorem resolve (h : Extends fs fs') (hp : fs.resolve final p = .ok t) :
    fs'.resolve final p = .ok t := by
  obtain ⟨hsound, hleads⟩ := resolve_eq_ok.mp hp
  exact resolve_eq_ok.mpr ⟨hsound, hleads.mono h.directories h.link?⟩

end Extends

/-- What a path names is in a directory. -/
theorem resolve_named {slash : Bool} (h : fs.resolve final p = .ok (.named q slash)) :
    q ≠ [] ∧ fs.isDirectory q.dropLast = true :=
  (resolve_eq_ok.mp h).2.isHeld fs.isDirectory_root

theorem createDirectory_eq_ok :
    fs.createDirectory p = .ok made ↔
      ∃ q slash, fs.place p = .ok (.named q slash) ∧ fs.node? q = none ∧
        made = fs.makeDirectory q := by
  constructor
  · intro h
    rw [createDirectory] at h
    split at h
    · cases h
    · cases h
    · next q slash hplace =>
        split at h
        · cases h
        · next hnode =>
            cases h
            exact ⟨q, slash, hplace, Option.not_isSome_iff_eq_none.mp hnode, rfl⟩
  · rintro ⟨q, slash, hplace, hnode, rfl⟩
    rw [createDirectory, hplace]
    simp only [hnode, Option.isSome_none, Bool.false_eq_true, if_false]

theorem extends_createDirectory (h : fs.createDirectory p = .ok made) : Extends fs made := by
  obtain ⟨q, slash, hplace, hnode, rfl⟩ := createDirectory_eq_ok.mp h
  obtain ⟨hq, hheld⟩ := resolve_named hplace
  refine ⟨fun r hr => ?_, number?_makeDirectory hq hheld hnode, contents_update _ _ _⟩
  rw [isDirectory_makeDirectory hq hheld hnode]
  split
  · rfl
  · exact hr

theorem extends_ensureDirectory (fs : FileSystem) (p : Path) :
    Extends fs (fs.ensureDirectory p).2 := by
  rw [ensureDirectory]
  split
  · next h => exact extends_createDirectory h
  · exact Extends.refl fs

/-- Creating directories takes nothing away, whether or not it comes to its end. -/
theorem extends_createAlong (fs : FileSystem) (parts : List Text) :
    Extends fs (fs.createAlong parts).2 := by
  induction parts with
  | nil => exact Extends.refl fs
  | cons part before ih =>
      rw [createAlong]
      split
      · exact ih
      · dsimp only
        split
        · split
          · next made hmade =>
              rw [hmade] at ih
              exact ih.trans (extends_ensureDirectory made _)
          · exact ih
        · exact extends_ensureDirectory fs _

theorem extends_of_createAlong {outcome : Except SystemError Unit}
    (h : fs.createAlong parts = (outcome, made)) : Extends fs made := by
  have hextends := fs.extends_createAlong parts
  rwa [h] at hextends

theorem extends_of_createDirectories {outcome : Except SystemError Unit}
    (h : fs.createDirectories p = (outcome, made)) : Extends fs made :=
  extends_of_createAlong h

/-! ## Ways that are there -/

theorem leadsInto_iff : fs.leadsInto p = true ↔ ∃ t, fs.target p = .ok t ∧ fs.IsInto t := by
  rw [leadsInto]
  constructor
  · intro h
    split at h
    · next d htarget => exact ⟨_, htarget, trivial⟩
    · next q slash htarget => exact ⟨_, htarget, h⟩
    · cases h
  · rintro ⟨t, htarget, hinto⟩
    rw [htarget]
    cases t with
    | directory d => rfl
    | named q slash => exact hinto

/-- There is nothing to create where a path leads into a directory. -/
theorem createDirectory_of_leadsInto (h : fs.leadsInto p = true) :
    fs.createDirectory p = .error .alreadyExists := by
  obtain ⟨t, htarget, hinto⟩ := leadsInto_iff.mp h
  obtain ⟨hsound, hleads⟩ := resolve_eq_ok.mp htarget
  rcases hleads.unfollowed with hplace | ⟨q, hplace, hlink⟩
  · have hplace : fs.place p = .ok t := resolve_eq_ok.mpr ⟨hsound, hplace⟩
    rw [createDirectory, hplace]
    cases t with
    | directory d => rfl
    | named q slash => exact if_pos (isSome_node?_of_isDirectory hinto)
  · have hplace : fs.place p = .ok (.named q false) := resolve_eq_ok.mpr ⟨hsound, hplace⟩
    rw [createDirectory, hplace]
    refine if_pos ?_
    cases hnode : fs.node? q with
    | some n => rfl
    | none =>
        rw [link?, content?, number?, hnode] at hlink
        cases hlink

theorem ensureDirectory_of_leadsInto (h : fs.leadsInto p = true) :
    fs.ensureDirectory p = (.ok (), fs) := by
  simp only [ensureDirectory, createDirectory_of_leadsInto h, h, if_true]

/-- The way to a directory that is there may go through links, and nothing is done then. -/
theorem createAlong_of_leadsInto (h : fs.leadsInto ⟨parts.reverse⟩ = true) :
    fs.createAlong parts = (.ok (), fs) := by
  induction parts with
  | nil => rfl
  | cons last before ih =>
      rw [createAlong]
      split
      · obtain ⟨t, htarget, hinto⟩ := leadsInto_iff.mp h
        obtain ⟨hsound, hleads⟩ := resolve_eq_ok.mp htarget
        obtain ⟨t', hleads', ht'⟩ := hleads.front hinto List.reverse_cons
        rw [List.reverse_cons] at hsound
        exact ih (leadsInto_iff.mpr ⟨t', resolve_eq_ok.mpr ⟨fault?_front hsound, hleads'⟩, ht'⟩)
      · simp only [createDirectory_of_leadsInto h]
        exact ensureDirectory_of_leadsInto h

theorem createDirectories_of_leadsInto (h : fs.leadsInto p = true) :
    fs.createDirectories p = (.ok (), fs) :=
  createAlong_of_leadsInto (by rwa [List.reverse_reverse])

/-! ## Ways that are open -/

/-- A way whose parts are as they should be, and on which there is no file. -/
structure IsOpen (fs : FileSystem) (parts : List Text) : Prop where
  sound : fault? ⟨parts⟩ = none
  fits : ∀ part ∈ parts, Fits part
  free : ∀ q ∈ placesAlong [] parts, fs.number? q = none

namespace IsOpen

theorem front (h : IsOpen fs (before ++ rest)) : IsOpen fs before := by
  refine ⟨fault?_front h.sound, fun part hpart => h.fits part (List.mem_append_left _ hpart),
    fun q hq => h.free q ?_⟩
  rw [placesAlong_append]
  exact List.mem_append_left _ hq

theorem extended (h : IsOpen fs parts) (hextends : Extends fs fs') : IsOpen fs' parts :=
  ⟨h.sound, h.fits, fun q hq => (hextends.numbers q).trans (h.free q hq)⟩

/-- A way goes on behind the directories that are there. -/
theorem resolve (h : IsOpen fs (before ++ [last])) (hlast : last ≠ [])
    (hdirs : ∀ q ∈ placesAlong [] before, fs.isDirectory q = true)
    (hleads : Leads fs final mostLinks (endOf [] before) [last] t) :
    fs.resolve final ⟨before ++ [last]⟩ = .ok t := by
  refine resolve_eq_ok.mpr ⟨h.sound, Leads.through h.front.fits hdirs ?_ hleads⟩
  simp [hlast]

theorem resolve_back (h : IsOpen fs (before ++ [back]))
    (hdirs : ∀ q ∈ placesAlong [] before, fs.isDirectory q = true) (final : Bool) :
    fs.resolve final ⟨before ++ [back]⟩ = .ok (.directory (endOf [] before).dropLast) :=
  h.resolve (by decide) hdirs (.back .ends)

theorem number?_eq_none (h : IsOpen fs (before ++ [last])) (hname : IsName last) :
    fs.number? (endOf [] before ++ [last]) = none :=
  h.free _ (by simp [placesAlong_concat_name hname])

theorem resolve_name (h : IsOpen fs (before ++ [last])) (hname : IsName last)
    (hdirs : ∀ q ∈ placesAlong [] before, fs.isDirectory q = true) (final : Bool) :
    fs.resolve final ⟨before ++ [last]⟩ = .ok (.named (endOf [] before ++ [last]) false) := by
  have hfits : Fits last := h.fits last (by simp)
  have hlink := link?_eq_none_of_number? (h.number?_eq_none hname)
  exact h.resolve hname.ne_nil hdirs (.named hname hfits hlink rfl)

end IsOpen

/-- A directory is created at once if none outside it turns out to be missing. -/
theorem createAlong_of_found (hstays : stays last = false)
    (hfound : fs.createDirectory ⟨before.reverse ++ [last]⟩ ≠ .error .notFound) :
    fs.createAlong (last :: before) = fs.ensureDirectory ⟨before.reverse ++ [last]⟩ := by
  rw [createAlong.eq_def]
  simp only [hstays, Bool.false_eq_true, if_false, List.reverse_cons]

/-- Those outside it are created first if they are missing. -/
theorem createAlong_of_missing (hstays : stays last = false)
    (hmissing : fs.createDirectory ⟨before.reverse ++ [last]⟩ = .error .notFound)
    (hmade : fs.createAlong before = (.ok (), made)) :
    fs.createAlong (last :: before) = made.ensureDirectory ⟨before.reverse ++ [last]⟩ := by
  rw [createAlong.eq_def]
  simp only [hstays, Bool.false_eq_true, if_false, List.reverse_cons, hmissing, hmade]

/-- The last directory on an open way is the only one that has to be created if those before it are
there. -/
theorem ensureDirectory_of_isOpen (h : IsOpen fs (before ++ [last])) (hlast : stays last = false)
    (hdirs : ∀ q ∈ placesAlong [] before, fs.isDirectory q = true) :
    fs.createDirectory ⟨before ++ [last]⟩ ≠ .error .notFound ∧
      ∃ made, fs.ensureDirectory ⟨before ++ [last]⟩ = (.ok (), made) ∧
        ∀ q, made.isDirectory q = true ↔
          fs.isDirectory q = true ∨ q ∈ placesAlong [] (before ++ [last]) := by
  rcases part_cases last with hstays | rfl | hname
  · rw [hstays] at hlast
    cases hlast
  · have hinto : fs.leadsInto ⟨before ++ [back]⟩ = true :=
      leadsInto_iff.mpr ⟨_, h.resolve_back hdirs true, trivial⟩
    refine ⟨by simp [createDirectory_of_leadsInto hinto], fs,
      ensureDirectory_of_leadsInto hinto, fun q => ?_⟩
    rw [placesAlong_append, placesAlong_back, placesAlong, List.append_nil]
    exact (or_iff_left_of_imp (hdirs q)).symm
  · rw [placesAlong_concat_name hname]
    have hfree := h.number?_eq_none hname
    have hnamed := h.resolve_name hname hdirs
    generalize endOf [] before ++ [last] = q at hfree hnamed ⊢
    cases hdir : fs.isDirectory q with
    | true =>
        have hinto : fs.leadsInto ⟨before ++ [last]⟩ = true :=
          leadsInto_iff.mpr ⟨_, hnamed true, hdir⟩
        have hall : ∀ r ∈ placesAlong [] before ++ [q], fs.isDirectory r = true :=
          List.forall_mem_append.mpr ⟨hdirs, List.forall_mem_singleton.mpr hdir⟩
        exact ⟨by simp [createDirectory_of_leadsInto hinto], fs,
          ensureDirectory_of_leadsInto hinto, fun r => (or_iff_left_of_imp (hall r)).symm⟩
    | false =>
        have hnode := node?_eq_none hfree hdir
        have hcreate : fs.createDirectory ⟨before ++ [last]⟩ = .ok (fs.makeDirectory q) :=
          createDirectory_eq_ok.mpr ⟨q, false, hnamed false, hnode, rfl⟩
        obtain ⟨hq, hheld⟩ := resolve_named (hnamed false)
        refine ⟨by simp [hcreate], fs.makeDirectory q, by rw [ensureDirectory, hcreate],
          fun r => ?_⟩
        rw [isDirectory_makeDirectory hq hheld hnode, List.mem_append, List.mem_singleton]
        split
        · next heq => exact ⟨fun _ => .inr (.inr heq), fun _ => rfl⟩
        · next hne =>
            rw [or_iff_left hne]
            exact (or_iff_left_of_imp (hdirs r)).symm

/-- On an open way the directories that are missing are created, and no others. -/
theorem createAlong_of_isOpen (h : IsOpen fs parts.reverse) :
    ∃ made, fs.createAlong parts = (.ok (), made) ∧
      ∀ q, made.isDirectory q = true ↔
        fs.isDirectory q = true ∨ q ∈ placesAlong [] parts.reverse := by
  induction parts with
  | nil =>
      refine ⟨fs, rfl, fun q => (or_iff_left ?_).symm⟩
      exact List.not_mem_nil
  | cons last before ih =>
      rw [List.reverse_cons] at h ⊢
      obtain ⟨made, hmade, honly⟩ := ih h.front
      cases hstays : stays last with
      | true =>
          refine ⟨made, by rw [createAlong, if_pos hstays, hmade], ?_⟩
          rw [placesAlong_append, placesAlong_stays hstays, placesAlong, List.append_nil]
          exact honly
      | false =>
          by_cases hthere : ∀ q ∈ placesAlong [] before.reverse, fs.isDirectory q = true
          · obtain ⟨hfound, made, hensure, hdirs⟩ := ensureDirectory_of_isOpen h hstays hthere
            exact ⟨made, (createAlong_of_found hstays hfound).trans hensure, hdirs⟩
          · -- The trial fails at the first directory that is missing, and those before are created.
            have hmissing : fs.createDirectory ⟨before.reverse ++ [last]⟩ = .error .notFound := by
              have hmore : [last].all (· = []) = false := by
                cases last with
                | nil => cases hstays
                | cons c last => rfl
              rw [createDirectory, place, resolve, h.sound]
              simp only [along_eq_of_follow fun jump =>
                follow_of_free h.front.fits h.front.free hthere hmore]
            have hopen := h.extended (extends_of_createAlong hmade)
            obtain ⟨-, made', hensure, hdirs⟩ := ensureDirectory_of_isOpen hopen hstays
              fun q hq => (honly q).mpr (.inr hq)
            refine ⟨made', (createAlong_of_missing hstays hmissing hmade).trans hensure,
              fun q => ?_⟩
            have hfront : q ∈ placesAlong [] before.reverse →
                q ∈ placesAlong [] (before.reverse ++ [last]) := by
              rw [placesAlong_append]
              exact List.mem_append_left _
            rw [hdirs, honly, or_assoc, or_iff_right_of_imp hfront]

end FileSystem

end ToolRegistry
