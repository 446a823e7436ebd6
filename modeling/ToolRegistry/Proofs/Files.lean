import ToolRegistry.Proofs.Directories
import ToolRegistry.Settings.File

/-!
# What becomes of the files

A file is replaced in two steps. Another one is written, which follows a link if
the temporary name is one, and then it is given the name, which follows none. So
there are three places to speak of (`Replaces`): where the bytes go, what has
the temporary name, and what has the name of the file. The first two are the
same unless the temporary name is a link.

A place is not a file, because a file may have several names. Bytes that are
written to one of them are read under all (`overwrite_effect`), and renaming
does nothing if both names are those of one file (`move_effect`). What is in the
file system afterwards is read off these two, name by name
(`Replaces.content?_of_ne` and the lemmas around it).

Neither step makes a directory or takes one away, and the first makes no link
and takes none away, so the paths lead where they have led at first
(`resolve_congr`).
-/

namespace ToolRegistry

namespace FileSystem

variable {fs fs' written renamed : FileSystem} {p source target : Path} {w q r x y : Place}
  {bytes : Bytes} {final : Bool} {n : Nat} {t : Target}

/-! ## What is at a place -/

theorem file?_eq_some : fs.file? q = some bytes ↔ fs.content? q = some (.bytes bytes) := by
  rw [file?]
  cases fs.content? q with
  | none => simp
  | some c => cases c <;> simp [Content.bytes?]

theorem isDirectory_of_number? (h : fs.number? q = some n) : fs.isDirectory q = false := by
  cases hdir : fs.isDirectory q with
  | false => rfl
  | true =>
      rw [number?_of_isDirectory hdir] at h
      cases h

theorem isSome_number?_of_content? {c : Content} (h : fs.content? q = some c) :
    (fs.number? q).isSome = true := by
  rw [content?, Option.map_eq_some_iff] at h
  obtain ⟨n, hn, -⟩ := h
  rw [hn]
  rfl

theorem isDirectory_of_content? {c : Content} (h : fs.content? q = some c) :
    fs.isDirectory q = false := by
  obtain ⟨n, hn⟩ := Option.isSome_iff_exists.mp (isSome_number?_of_content? h)
  exact isDirectory_of_number? hn

theorem content?_of_link? {l : Text} (h : fs.link? q = some l) :
    fs.content? q = some (.link l) := by
  rw [link?] at h
  cases hc : fs.content? q with
  | none =>
      rw [hc] at h
      cases h
  | some c =>
      rw [hc] at h
      cases c with
      | bytes b => cases h
      | link l' =>
          cases h
          rfl

/-! ## Names of one file -/

/-- Two names of one file. -/
def SameFile (fs : FileSystem) (x y : Place) : Prop :=
  ∃ n, fs.number? x = some n ∧ fs.number? y = some n

instance (fs : FileSystem) (x y : Place) : Decidable (fs.SameFile x y) :=
  decidable_of_iff ((fs.number? x).isSome = true ∧ fs.number? x = fs.number? y) <| by
    constructor
    · rintro ⟨hsome, heq⟩
      obtain ⟨n, hn⟩ := Option.isSome_iff_exists.mp hsome
      exact ⟨n, hn, heq ▸ hn⟩
    · rintro ⟨n, hx, hy⟩
      exact ⟨by rw [hx]; rfl, hx.trans hy.symm⟩

theorem SameFile.content?_eq (h : fs.SameFile x y) : fs.content? x = fs.content? y := by
  obtain ⟨n, hx, hy⟩ := h
  rw [content?, content?, hx, hy]

theorem Extends.sameFile_iff (h : Extends fs fs') : fs'.SameFile x y ↔ fs.SameFile x y := by
  simp only [SameFile, h.numbers]

theorem number?_ne_fresh (fs : FileSystem) (q : Place) : fs.number? q ≠ some fs.fresh := by
  intro h
  rw [number?] at h
  cases hnode : fs.node? q with
  | none =>
      rw [hnode] at h
      cases h
  | some n =>
      cases n with
      | directory _ =>
          rw [hnode] at h
          cases h
      | file number =>
          rw [hnode] at h
          have hnumber : number = fs.fresh := Option.some.inj h
          exact absurd hnumber (Nat.ne_of_lt (Node.lt_bound hnode))

/-! ## What a step does -/

/-- Writing gives a number to the place, which no other file has, and the bytes to the number. -/
theorem overwrite_effect (hq : fs.Admits q) (bytes : Bytes) :
    ∃ n, (∀ x, (fs.overwrite q bytes).isDirectory x = fs.isDirectory x) ∧
      (∀ x, (fs.overwrite q bytes).number? x = if x = q then some n else fs.number? x) ∧
      ((fs.overwrite q bytes).contents = fun m => if m = n then .bytes bytes else fs.contents m) ∧
      ∀ x, fs.number? x = some n → fs.SameFile x q := by
  rw [overwrite]
  cases hnumber : fs.number? q with
  | some n =>
      refine ⟨n, fun x => rfl, fun x => ?_, rfl, fun x hx => ⟨n, hx, hnumber⟩⟩
      show fs.number? x = _
      split
      · next heq => rw [heq, hnumber]
      · rfl
  | none =>
      refine ⟨fs.fresh, isDirectory_assign hq fs.fresh, number?_assign hq fs.fresh, ?_,
        fun x hx => absurd hx (fs.number?_ne_fresh x)⟩
      show (fun m => if m = fs.fresh then Content.bytes bytes
        else (fs.assign q fs.fresh).contents m) = _
      rw [assign, contents_update]

/-- Renaming moves a number, unless both places have it. -/
theorem move_effect (hq : fs.Admits q) (hr : fs.Admits r) (hnumber : fs.number? q = some n) :
    (∀ x, (fs.move q r).isDirectory x = fs.isDirectory x) ∧
      (∀ x, (fs.move q r).number? x =
        if x = r then some n else if x = q ∧ fs.number? r ≠ some n then none else fs.number? x) ∧
      (fs.move q r).contents = fs.contents := by
  rw [move, hnumber]
  dsimp only
  by_cases hsame : fs.number? r = some n
  · rw [if_pos hsame]
    refine ⟨fun x => rfl, fun x => ?_, rfl⟩
    split
    · next heq => rw [heq, hsame]
    · rw [if_neg fun h => h.2 hsame]
  · rw [if_neg hsame]
    have herase := isDirectory_erase hq
    have hr' : (fs.erase q).Admits r :=
      ⟨hr.ne_nil, (herase _).trans hr.held, (herase r).trans hr.not_directory⟩
    refine ⟨fun x => (isDirectory_assign hr' n x).trans (herase x), fun x => ?_, ?_⟩
    · rw [number?_assign hr', number?_erase hq]
      simp only [ne_eq, hsame, not_false_eq_true, and_true]
    · rw [assign, contents_update, erase, contents_update]

theorem isDirectory_overwrite (hq : fs.Admits q) (bytes : Bytes) (x : Place) :
    (fs.overwrite q bytes).isDirectory x = fs.isDirectory x := by
  obtain ⟨n, hdirs, -⟩ := overwrite_effect hq bytes
  exact hdirs x

theorem Admits.overwritten (hx : fs.Admits x) (hq : fs.Admits q) (bytes : Bytes) :
    (fs.overwrite q bytes).Admits x :=
  ⟨hx.ne_nil, (isDirectory_overwrite hq bytes _).trans hx.held,
    (isDirectory_overwrite hq bytes x).trans hx.not_directory⟩

/-- What is written under one name is read under all names of the file. -/
theorem content?_overwrite (hq : fs.Admits q) (bytes : Bytes) (hx : x = q ∨ fs.SameFile x q) :
    (fs.overwrite q bytes).content? x = some (.bytes bytes) := by
  obtain ⟨n, -, hnumber, hcontents, -⟩ := overwrite_effect hq bytes
  have hn : (fs.overwrite q bytes).number? x = some n := by
    rw [hnumber]
    split
    · rfl
    · next hne =>
        obtain ⟨m, hm, hmq⟩ := hx.resolve_left hne
        have hq' := hnumber q
        rw [if_pos rfl, overwrite, hmq] at hq'
        exact hm.trans (hmq.symm.trans hq')
  rw [content?, hn, hcontents, Option.map_some, if_pos rfl]

theorem content?_overwrite_of_ne (hq : fs.Admits q) (bytes : Bytes) (hx : x ≠ q)
    (hother : ¬fs.SameFile x q) : (fs.overwrite q bytes).content? x = fs.content? x := by
  obtain ⟨n, -, hnumber, hcontents, hsame⟩ := overwrite_effect hq bytes
  rw [content?, content?, hnumber, if_neg hx, hcontents]
  refine Option.map_congr fun m hm => if_neg fun heq => hother (hsame x ?_)
  rw [hm, heq]

/-- Writing gives no file a further name, and takes none from it. -/
theorem sameFile_overwrite_iff (hq : fs.Admits q) (bytes : Bytes) (hne : x ≠ y) :
    (fs.overwrite q bytes).SameFile x y ↔ fs.SameFile x y := by
  obtain ⟨n, -, hnumber, -, hsame⟩ := overwrite_effect hq bytes
  constructor
  · rintro ⟨m, hx, hy⟩
    rw [hnumber] at hx hy
    by_cases hxq : x = q
    · rw [if_pos hxq] at hx
      rw [if_neg fun hyq => hne (hxq.trans hyq.symm)] at hy
      obtain ⟨k, hyk, hqk⟩ := hsame y (hy.trans hx.symm)
      exact ⟨k, hxq ▸ hqk, hyk⟩
    · rw [if_neg hxq] at hx
      by_cases hyq : y = q
      · rw [if_pos hyq] at hy
        obtain ⟨k, hxk, hqk⟩ := hsame x (hx.trans hy.symm)
        exact ⟨k, hxk, hyq ▸ hqk⟩
      · rw [if_neg hyq] at hy
        exact ⟨m, hx, hy⟩
  · rintro ⟨m, hx, hy⟩
    cases hq' : fs.number? q with
    | some k =>
        rw [overwrite, hq']
        exact ⟨m, hx, hy⟩
    | none =>
        have hother : ∀ z, fs.number? z = some m → z ≠ q := by
          rintro z hz rfl
          rw [hq'] at hz
          cases hz
        exact ⟨m, (hnumber x).trans ((if_neg (hother x hx)).trans hx),
          (hnumber y).trans ((if_neg (hother y hy)).trans hy)⟩

/-- Writing where no link is takes none away and makes none. -/
theorem link?_overwrite (hq : fs.Admits q) (bytes : Bytes) (hlink : fs.link? q = none) (x : Place) :
    (fs.overwrite q bytes).link? x = fs.link? x := by
  by_cases hx : x = q ∨ fs.SameFile x q
  · -- All names of the file that is written have had bytes and have bytes again.
    rw [link?, content?_overwrite hq bytes hx]
    rcases hx with rfl | hsame
    · exact hlink.symm
    · rw [link?, hsame.content?_eq, ← link?, hlink]
      rfl
  · rw [not_or] at hx
    rw [link?, content?_overwrite_of_ne hq bytes hx.1 hx.2, link?]

theorem content?_move (hq : fs.Admits q) (hr : fs.Admits r)
    (hnumber : (fs.number? q).isSome = true) : (fs.move q r).content? r = fs.content? q := by
  obtain ⟨n, hn⟩ := Option.isSome_iff_exists.mp hnumber
  obtain ⟨-, hmoved, hcontents⟩ := move_effect hq hr hn
  rw [content?, content?, hmoved, if_pos rfl, hn, hcontents]

theorem content?_move_of_ne (hq : fs.Admits q) (hr : fs.Admits r)
    (hnumber : (fs.number? q).isSome = true) (hx : x ≠ r) (hxq : x ≠ q) :
    (fs.move q r).content? x = fs.content? x := by
  obtain ⟨n, hn⟩ := Option.isSome_iff_exists.mp hnumber
  obtain ⟨-, hmoved, hcontents⟩ := move_effect hq hr hn
  rw [content?, content?, hmoved, if_neg hx, if_neg fun h => hxq h.1, hcontents]

theorem move_of_sameFile (h : fs.SameFile q r) : fs.move q r = fs := by
  obtain ⟨n, hq, hr⟩ := h
  rw [move, hq]
  exact if_pos hr

/-- The old name is gone, unless both are names of one file. -/
theorem content?_move_source (hq : fs.Admits q) (hr : fs.Admits r)
    (hnumber : (fs.number? q).isSome = true) (hne : q ≠ r) (hother : ¬fs.SameFile q r) :
    (fs.move q r).content? q = none := by
  obtain ⟨n, hn⟩ := Option.isSome_iff_exists.mp hnumber
  obtain ⟨-, hmoved, -⟩ := move_effect hq hr hn
  rw [content?, hmoved, if_neg hne, if_pos ⟨rfl, fun hrn => hother ⟨n, hn, hrn⟩⟩]
  rfl

/-! ## When a step succeeds -/

/-- Where the directories and the links are the same, paths lead to the same places. -/
theorem resolve_congr (hdirs : ∀ x, fs'.isDirectory x = fs.isDirectory x)
    (hlinks : ∀ x, fs'.link? x = fs.link? x) :
    fs'.resolve final p = .ok t ↔ fs.resolve final p = .ok t := by
  rw [resolve_eq_ok, resolve_eq_ok]
  refine and_congr_right fun _ => ⟨fun h => ?_, fun h => ?_⟩
  · exact h.mono (fun x hx => (hdirs x).symm.trans hx) fun x => (hlinks x).symm
  · exact h.mono (fun x hx => (hdirs x).trans hx) hlinks

/-- What a path leads to it names, unless it names a link. -/
theorem place_of_target (h : fs.target p = .ok (.named x false)) :
    ∃ q, fs.place p = .ok (.named q false) ∧ (q = x ∨ (fs.link? q).isSome = true) := by
  obtain ⟨hsound, hleads⟩ := resolve_eq_ok.mp h
  rcases hleads.unfollowed with hplace | ⟨q, hplace, hlink⟩
  · exact ⟨x, resolve_eq_ok.mpr ⟨hsound, hplace⟩, .inl rfl⟩
  · exact ⟨q, resolve_eq_ok.mpr ⟨hsound, hplace⟩, .inr hlink⟩

/-- What a path names it leads to, if it is no link. -/
theorem target_of_place {slash : Bool} (h : fs.place p = .ok (.named q slash))
    (hlink : fs.link? q = none) : fs.target p = .ok (.named q slash) := by
  obtain ⟨hsound, hleads⟩ := resolve_eq_ok.mp h
  exact resolve_eq_ok.mpr ⟨hsound, hleads.followed rfl hlink⟩

theorem admits_of_resolve {slash : Bool} (h : fs.resolve final p = .ok (.named q slash))
    (hdir : fs.isDirectory q = false) : fs.Admits q :=
  ⟨(resolve_named h).1, (resolve_named h).2, hdir⟩

theorem link?_of_target {slash : Bool} (h : fs.target p = .ok (.named w slash)) :
    fs.link? w = none :=
  (resolve_eq_ok.mp h).2.link?_eq_none rfl

theorem read_eq_ok :
    fs.read p = .ok bytes ↔
      ∃ x, fs.target p = .ok (.named x false) ∧ fs.file? x = some bytes := by
  constructor
  · intro h
    rw [read] at h
    split at h
    · cases h
    · cases h
    · next x slash htarget =>
        split at h
        · cases h
        · split at h
          · next content hfile =>
              split at h
              · cases h
              · next hslash =>
                  cases h
                  rw [eq_false_of_ne_true hslash] at htarget
                  exact ⟨x, htarget, hfile⟩
          · cases h
  · rintro ⟨x, htarget, hfile⟩
    rw [read, htarget]
    simp only [isDirectory_of_content? (file?_eq_some.mp hfile), hfile, Bool.false_eq_true,
      if_false]

theorem contains_of_read (h : fs.read p = .ok bytes) : fs.contains p = true := by
  obtain ⟨x, htarget, hfile⟩ := read_eq_ok.mp h
  rw [contains, htarget]
  simp [isSome_number?_of_content? (file?_eq_some.mp hfile)]

theorem Extends.read (h : Extends fs fs') (hread : fs.read p = .ok bytes) :
    fs'.read p = .ok bytes := by
  obtain ⟨x, htarget, hfile⟩ := read_eq_ok.mp hread
  exact read_eq_ok.mpr ⟨x, h.resolve htarget, (h.file? x).trans hfile⟩

theorem write_eq_ok :
    fs.write p bytes = .ok written ↔
      ∃ w, fs.target p = .ok (.named w false) ∧ fs.isDirectory w = false ∧
        written = fs.overwrite w bytes := by
  constructor
  · intro h
    rw [write] at h
    split at h
    · cases h
    · cases h
    · next w slash htarget =>
        split at h
        · cases h
        · next hno =>
            cases h
            obtain ⟨hslash, hdir⟩ := Bool.or_eq_false_iff.mp (eq_false_of_ne_true hno)
            rw [hslash] at htarget
            exact ⟨w, htarget, hdir, rfl⟩
  · rintro ⟨w, htarget, hdir, rfl⟩
    rw [write, htarget]
    simp only [hdir]
    rfl

theorem rename_eq_ok :
    fs.rename source target = .ok renamed ↔
      ∃ q r, fs.place source = .ok (.named q false) ∧ fs.place target = .ok (.named r false) ∧
        (fs.number? q).isSome = true ∧ fs.isDirectory r = false ∧ renamed = fs.move q r := by
  constructor
  · intro h
    rw [rename.eq_def] at h
    split at h
    · cases h
    · cases h
    · next q slash r slash' hsource htarget =>
        split at h
        · cases h
        · split at h
          · cases h
          · next hnumber =>
              split at h
              · cases h
              · next hslashes =>
                  split at h
                  · cases h
                  · next hdir =>
                      cases h
                      obtain ⟨hslash, hslash'⟩ :=
                        Bool.or_eq_false_iff.mp (eq_false_of_ne_true hslashes)
                      rw [hslash] at hsource
                      rw [hslash'] at htarget
                      refine ⟨q, r, hsource, htarget, ?_, eq_false_of_ne_true hdir, rfl⟩
                      rwa [Option.isNone_iff_eq_none, ← Option.not_isSome_iff_eq_none,
                        Bool.not_eq_true, Bool.not_eq_false] at hnumber
    · cases h
  · rintro ⟨q, r, hsource, htarget, hnumber, hdir, rfl⟩
    obtain ⟨n, hn⟩ := Option.isSome_iff_exists.mp hnumber
    rw [rename.eq_def, hsource, htarget]
    simp only [isDirectory_of_number? hn, hn, hdir]
    rfl

/-! ## The temporary path -/

end FileSystem

namespace Path

/-- A path that ends in a name goes where its temporary path goes, up to that name. -/
theorem temporary_concat (before : List Text) {name : Text} (hname : IsName name) :
    name? ⟨before ++ [name]⟩ = some name ∧ parent ⟨before ++ [name]⟩ = ⟨before⟩ ∧
      temporary ⟨before ++ [name]⟩ = ⟨before ++ [temporaryName true name]⟩ := by
  have hbackwards : backwards ⟨before ++ [name]⟩ = name :: before.reverse := by
    rw [backwards, List.reverse_concat, List.dropWhile_cons_of_neg (by simp [hname.1])]
  have hname? : name? ⟨before ++ [name]⟩ = some name := by
    rw [name?, hbackwards, List.head?_cons, Option.filter_some, if_pos (decide_eq_true hname.2)]
  have hparent : parent ⟨before ++ [name]⟩ = ⟨before⟩ := by
    rw [parent, hbackwards, List.tail_cons, List.reverse_reverse]
  have hbare : isBare ⟨before ++ [name]⟩ = true := by
    rw [isBare, hbackwards, List.reverse_concat, beq_self_eq_true]
  refine ⟨hname?, hparent, ?_⟩
  rw [temporary, hname?, hbare, hparent]

end Path

namespace FileSystem

variable {fs fs' made : FileSystem} {p : Path} {w q r x y : Place} {bytes : Bytes}

/-! ## Replacing a file -/

/-- How a file is replaced: the bytes go to `w`, and what is at `q` is moved to `r`. -/
structure Replaces (fs : FileSystem) (p : Path) (w q r : Place) : Prop where
  writes : fs.target p.temporary = .ok (.named w false)
  source : fs.place p.temporary = .ok (.named q false)
  target : fs.place p = .ok (.named r false)
  writable : fs.isDirectory w = false
  replaceable : fs.isDirectory r = false

/-- The file system once bytes have been written to `w` and what is at `q` has been moved to `r`. -/
def replaced (fs : FileSystem) (w q r : Place) (bytes : Bytes) : FileSystem :=
  (fs.overwrite w bytes).move q r

namespace Replaces

theorem cases (h : Replaces fs p w q r) : w = q ∨ (fs.link? q).isSome = true := by
  cases hlink : fs.link? q with
  | some l => exact .inr rfl
  | none =>
      have hwrites := (target_of_place h.source hlink).symm.trans h.writes
      rw [Except.ok.injEq, Target.named.injEq] at hwrites
      exact .inl hwrites.1.symm

theorem eq_of_link?_eq_none (h : Replaces fs p w q r) (hlink : fs.link? q = none) : w = q :=
  h.cases.resolve_right (by rw [hlink]; decide)

theorem admits_written (h : Replaces fs p w q r) : fs.Admits w :=
  admits_of_resolve h.writes h.writable

theorem admits_target (h : Replaces fs p w q r) : fs.Admits r :=
  admits_of_resolve h.target h.replaceable

theorem admits_source (h : Replaces fs p w q r) : fs.Admits q := by
  refine admits_of_resolve h.source ?_
  rcases h.cases with rfl | hlink
  · exact h.writable
  · obtain ⟨l, hl⟩ := Option.isSome_iff_exists.mp hlink
    exact isDirectory_of_content? (content?_of_link? hl)

theorem admits_source_written (h : Replaces fs p w q r) (bytes : Bytes) :
    (fs.overwrite w bytes).Admits q :=
  h.admits_source.overwritten h.admits_written bytes

theorem admits_target_written (h : Replaces fs p w q r) (bytes : Bytes) :
    (fs.overwrite w bytes).Admits r :=
  h.admits_target.overwritten h.admits_written bytes

theorem isDirectory_written (h : Replaces fs p w q r) (bytes : Bytes) (x : Place) :
    (fs.overwrite w bytes).isDirectory x = fs.isDirectory x :=
  isDirectory_overwrite h.admits_written bytes x

theorem link?_written (h : Replaces fs p w q r) (bytes : Bytes) (x : Place) :
    (fs.overwrite w bytes).link? x = fs.link? x :=
  link?_overwrite h.admits_written bytes (link?_of_target h.writes) x

theorem isSome_number? (h : Replaces fs p w q r) (bytes : Bytes) :
    ((fs.overwrite w bytes).number? q).isSome = true := by
  rcases h.cases with rfl | hlink
  · exact isSome_number?_of_content?
      (content?_overwrite h.admits_written bytes (.inl rfl))
  · obtain ⟨l, hl⟩ := Option.isSome_iff_exists.mp hlink
    exact isSome_number?_of_content? (content?_of_link? ((h.link?_written bytes q).trans hl))

/-- The temporary file is next to the file that it is written for. -/
theorem names (h : Replaces fs p w q r) :
    ∃ d name, p.name? = some name ∧ r = d ++ [name] ∧ q = d ++ [Path.temporaryName true name] ∧
      Path.IsName name ∧ Path.IsName (Path.temporaryName true name) := by
  obtain ⟨-, htarget⟩ := resolve_eq_ok.mp h.target
  obtain ⟨-, hsource⟩ := resolve_eq_ok.mp h.source
  obtain ⟨before, name, d, hparts, hname, -, hr, hothers⟩ := htarget.siblings rfl
  obtain rfl : p = ⟨before ++ [name]⟩ := by rw [← hparts]
  obtain ⟨hname?, -, htemporary⟩ := Path.temporary_concat before hname
  rw [htemporary] at hsource
  obtain ⟨before', last, -, hparts', hlast, hfits, -, -⟩ := hsource.siblings rfl
  obtain ⟨-, heq⟩ := List.append_inj' hparts' rfl
  cases heq
  have hsibling := along_eq_ok.mpr (hothers _ hlast hfits)
  rw [along_eq_ok.mpr hsource, Except.ok.injEq, Target.named.injEq] at hsibling
  exact ⟨d, name, hname?, hr, hsibling.1, hname, hlast⟩

end Replaces

/-- A file is replaced in two steps that succeed where the paths lead somewhere at first. -/
theorem replaceFile_eq_ok {t : Text} :
    Settings.replaceFile fs p t = (.ok (), fs') ↔
      ∃ w q r, Replaces fs p w q r ∧ fs' = fs.replaced w q r (Utf8.encode t) := by
  constructor
  · intro h
    rw [Settings.replaceFile] at h
    split at h
    · cases h
    · next written hwrite =>
        split at h
        · cases h
        · next renamed hrename =>
            cases h
            obtain ⟨w, hwrites, hw, rfl⟩ := write_eq_ok.mp hwrite
            obtain ⟨q, r, hsource, htarget, -, hr, rfl⟩ := rename_eq_ok.mp hrename
            have hadmits := admits_of_resolve hwrites hw
            have hdirs := isDirectory_overwrite hadmits (Utf8.encode t)
            have hlinks := link?_overwrite hadmits (Utf8.encode t) (link?_of_target hwrites)
            exact ⟨w, q, r, ⟨hwrites, (resolve_congr hdirs hlinks).mp hsource,
              (resolve_congr hdirs hlinks).mp htarget, hw, (hdirs r).symm.trans hr⟩, rfl⟩
  · rintro ⟨w, q, r, h, rfl⟩
    have hwrite : fs.write p.temporary (Utf8.encode t) = .ok (fs.overwrite w (Utf8.encode t)) :=
      write_eq_ok.mpr ⟨w, h.writes, h.writable, rfl⟩
    have hdirs := h.isDirectory_written (Utf8.encode t)
    have hlinks := h.link?_written (Utf8.encode t)
    have hrename := rename_eq_ok.mpr ⟨q, r, (resolve_congr hdirs hlinks).mpr h.source,
      (resolve_congr hdirs hlinks).mpr h.target, h.isSome_number? _, (hdirs r).trans h.replaceable,
      rfl⟩
    simp only [Settings.replaceFile, hwrite, hrename, replaced]

/-- A file that can be read is replaced as soon as the temporary file is written. -/
theorem exists_replaces (hwrites : fs.target p.temporary = .ok (.named w false))
    (hw : fs.isDirectory w = false) (hread : fs.read p = .ok bytes) :
    ∃ q r, Replaces fs p w q r := by
  obtain ⟨x, htarget, hfile⟩ := read_eq_ok.mp hread
  obtain ⟨q, hsource, -⟩ := place_of_target hwrites
  obtain ⟨r, hplace, hr⟩ := place_of_target htarget
  refine ⟨q, r, hwrites, hsource, hplace, hw, ?_⟩
  rcases hr with rfl | hlink
  · exact isDirectory_of_content? (file?_eq_some.mp hfile)
  · obtain ⟨l, hl⟩ := Option.isSome_iff_exists.mp hlink
    exact isDirectory_of_content? (content?_of_link? hl)

/-- A file that is not replaced keeps its content. -/
theorem read_of_not_replaced {t : Text} (h : (Settings.replaceFile fs p t).1 ≠ .ok ())
    (hread : fs.read p = .ok bytes) : (Settings.replaceFile fs p t).2.read p = .ok bytes := by
  cases hwrite : fs.write p.temporary (Utf8.encode t) with
  | error e => simpa only [Settings.replaceFile, hwrite] using hread
  | ok written =>
      -- Then it has been replaced.
      obtain ⟨w, hwrites, hw, -⟩ := write_eq_ok.mp hwrite
      obtain ⟨q, r, hreplaces⟩ := exists_replaces hwrites hw hread
      have hok : Settings.replaceFile fs p t = _ :=
        replaceFile_eq_ok.mpr ⟨w, q, r, hreplaces, rfl⟩
      rw [hok] at h
      exact absurd rfl h

/-! ## What a replacement leaves -/

namespace Replaces

variable (h : Replaces fs p w q r) (bytes : Bytes)
include h

theorem isDirectory_replaced (x : Place) :
    (fs.replaced w q r bytes).isDirectory x = fs.isDirectory x := by
  obtain ⟨n, hn⟩ := Option.isSome_iff_exists.mp (h.isSome_number? bytes)
  obtain ⟨hdirs, -⟩ :=
    move_effect (h.admits_source_written bytes) (h.admits_target_written bytes) hn
  exact (hdirs x).trans (h.isDirectory_written bytes x)

theorem content?_target :
    (fs.replaced w q r bytes).content? r = (fs.overwrite w bytes).content? q :=
  content?_move (h.admits_source_written bytes) (h.admits_target_written bytes)
    (h.isSome_number? bytes)

theorem content?_of_ne (hr : x ≠ r) (hq : x ≠ q) :
    (fs.replaced w q r bytes).content? x = (fs.overwrite w bytes).content? x :=
  content?_move_of_ne (h.admits_source_written bytes) (h.admits_target_written bytes)
    (h.isSome_number? bytes) hr hq

theorem content?_source (hne : q ≠ r) (hother : ¬fs.SameFile q r) :
    (fs.replaced w q r bytes).content? q = none :=
  content?_move_source (h.admits_source_written bytes) (h.admits_target_written bytes)
    (h.isSome_number? bytes) hne
    fun hsame => hother ((sameFile_overwrite_iff h.admits_written bytes hne).mp hsame)

theorem replaced_of_sameFile (hne : q ≠ r) (hsame : fs.SameFile q r) :
    fs.replaced w q r bytes = fs.overwrite w bytes :=
  move_of_sameFile ((sameFile_overwrite_iff h.admits_written bytes hne).mpr hsame)

theorem file?_target (hlink : fs.link? q = none) :
    (fs.replaced w q r bytes).file? r = some bytes := by
  rw [file?_eq_some, h.content?_target, ← h.eq_of_link?_eq_none hlink,
    content?_overwrite h.admits_written bytes (.inl rfl)]

theorem link?_target {l : Text} (hlink : fs.link? q = some l) :
    (fs.replaced w q r bytes).link? r = some l := by
  rw [link?, h.content?_target, ← link?, h.link?_written, hlink]

/-- Where neither name is a link, no link is made and none is taken away. -/
theorem link?_replaced (hq : fs.link? q = none) (hr : fs.link? r = none) (x : Place) :
    (fs.replaced w q r bytes).link? x = fs.link? x := by
  by_cases hxr : x = r
  · rw [hxr, hr, link?, file?_eq_some.mp (h.file?_target bytes hq)]
    rfl
  · by_cases hxq : x = q
    · rw [hxq] at hxr ⊢
      by_cases hsame : fs.SameFile q r
      · rw [h.replaced_of_sameFile bytes hxr hsame, h.link?_written]
      · rw [hq, link?, h.content?_source bytes hxr hsame]
        rfl
    · rw [link?, h.content?_of_ne bytes hxr hxq, ← link?, h.link?_written]

theorem read_replaced (hq : fs.link? q = none) (hr : fs.link? r = none) :
    (fs.replaced w q r bytes).read p = .ok bytes := by
  have hlinks := h.link?_replaced bytes hq hr
  have htarget := (resolve_congr (h.isDirectory_replaced bytes) hlinks).mpr
    (target_of_place h.target hr)
  exact read_eq_ok.mpr ⟨r, htarget, h.file?_target bytes hq⟩

end Replaces

end FileSystem

/-! ## Saving -/

namespace Settings

open FileSystem

variable {s : Settings} {fs fs' : FileSystem} {p : Path} {bytes : Bytes}

/-- Settings are saved if they can be written, the directories around the file can be created, and
then the file can be replaced. -/
theorem save_eq_ok :
    s.save fs p = (.ok (), fs') ↔
      ∃ t made w q r, s.display = .ok t ∧ fs.createDirectories p.parent = (.ok (), made) ∧
        made.Replaces p w q r ∧ fs' = made.replaced w q r (Utf8.encode t) := by
  cases hmake : fs.createDirectories p.parent with
  | mk outcome made =>
      cases outcome with
      | error e =>
          rw [save, hmake]
          exact ⟨fun h => (by cases h), fun ⟨_, _, _, _, _, _, h, _⟩ => (by cases h)⟩
      | ok _ =>
          cases hdisplay : s.display with
          | error e =>
              rw [save, hmake, hdisplay]
              exact ⟨fun h => (by cases h), fun ⟨_, _, _, _, _, h, _⟩ => (by cases h)⟩
          | ok t =>
              rw [save, hmake, hdisplay]
              refine replaceFile_eq_ok.trans
                ⟨fun ⟨w, q, r, h⟩ => ⟨t, made, w, q, r, rfl, rfl, h⟩, ?_⟩
              rintro ⟨_, _, w, q, r, ht, hmade, h⟩
              cases ht
              cases hmade
              exact ⟨w, q, r, h⟩

theorem save_of_not_written {e : RegistryError} (h : s.display = .error e) (fs : FileSystem)
    (p : Path) :
    ∃ e' fs', s.save fs p = (.error e', fs') ∧ ∀ x, fs'.content? x = fs.content? x := by
  cases hmake : fs.createDirectories p.parent with
  | mk outcome made =>
      have hextends := extends_of_createDirectories hmake
      cases outcome with
      | error e' => exact ⟨.io e', made, by rw [save, hmake], hextends.content?⟩
      | ok _ => exact ⟨e, made, by rw [save, hmake, h], hextends.content?⟩

theorem read_of_not_saved (h : (s.save fs p).1 ≠ .ok ()) (hread : fs.read p = .ok bytes) :
    (s.save fs p).2.read p = .ok bytes := by
  cases hmake : fs.createDirectories p.parent with
  | mk outcome made =>
      have hextends := extends_of_createDirectories hmake
      have hmade := hextends.read hread
      cases outcome with
      | error e =>
          rw [save, hmake]
          exact hmade
      | ok _ =>
          cases hdisplay : s.display with
          | error e =>
              rw [save, hmake, hdisplay]
              exact hmade
          | ok t =>
              rw [save, hmake, hdisplay] at h ⊢
              exact read_of_not_replaced h hmade

end Settings

end ToolRegistry
