import Mathlib.Data.List.Basic
import ToolRegistry.Proofs.Files

/-!
# What saving does to the other files

Settings are saved by way of a temporary file, and the name of that file is not
one that nobody else could use: it is the name of the settings file with another
ending, in the same directory. So whoever has something under that name is
disturbed, and how depends on what it is. A file is overwritten and renamed. A
link is renamed too, but what is overwritten is the file that it leads to. And
a file that has other names is overwritten under all of them.

What is left under every name is told by `SavedOver`, which says nothing of how
it comes about. Every other file is kept exactly if the temporary name was free,
or was a name of the settings file itself, and no other name of the file that has
been written held anything else (`SavedOver.keeps_iff`). A settings file that
has the temporary ending is one that has the temporary name.
-/

namespace ToolRegistry

/-! ## The temporary name -/

namespace Path

/-- The names that keep their ending are those that end like a temporary one. -/
theorem temporaryName_eq_self_iff {name : Text} (hback : name ≠ back)
    (htemporary : temporaryName true name ≠ back) :
    temporaryName true name = name ↔ ∃ stem, stem ≠ [] ∧ name = stem ++ ".tmp".toList := by
  constructor
  · intro h
    have happend : name ++ ".tmp".toList ≠ name := by simp
    rw [temporaryName] at h
    split at h
    · exact absurd h happend
    · exact absurd h happend
    · next stem ext hne hsplit =>
        split at h
        · exact absurd h.symm hback
        · exact ⟨stem, hne, h.symm⟩
  · intro h
    obtain ⟨stem, hne, rfl⟩ := h
    have hsplit : Text.splitAtLast? '.' (stem ++ ".tmp".toList) = some (stem, "tmp".toList) :=
      Text.splitAtLast?_append (by decide) stem
    have heq : temporaryName true (stem ++ ".tmp".toList) =
        if true = true ∧ stem = ['.'] then back else stem ++ ".tmp".toList := by
      rw [temporaryName.eq_def, hsplit]
      split
      · next h => cases h
      · next h =>
          cases h
          exact absurd rfl hne
      · next h =>
          cases h
          rfl
    rw [heq] at htemporary ⊢
    exact if_neg fun hdots => htemporary (if_pos hdots)

end Path

namespace FileSystem

variable {fs fs' made : FileSystem} {p : Path} {w q r file temporary x : Place} {bytes : Bytes}

/-! ## What is left under every name -/

/-- What there is once a file has been saved with these bytes, which went to `w`, by way of the
temporary name. -/
structure SavedOver (fs fs' : FileSystem) (bytes : Bytes) (w temporary file : Place) : Prop where
  /-- The file holds the bytes if the temporary name was no link. -/
  text : fs.link? temporary = none → fs'.file? file = some bytes
  /-- Otherwise it is that link. -/
  link : ∀ l, fs.link? temporary = some l → fs'.link? file = some l
  /-- The temporary name is gone, unless it was another name of the file. -/
  gone : temporary ≠ file → ¬fs.SameFile temporary file → fs'.content? temporary = none
  /-- All other names of the file that was written have the bytes. -/
  written : ∀ x, x ≠ file → (x = temporary → fs.SameFile temporary file) →
    x = w ∨ fs.SameFile x w → fs'.file? x = some bytes
  /-- Every other file is as it was. -/
  kept : ∀ x, x ≠ file → (x = temporary → fs.SameFile temporary file) →
    x ≠ w → ¬fs.SameFile x w → fs'.content? x = fs.content? x
  directories : ∀ x, fs.isDirectory x = true → fs'.isDirectory x = true

theorem sameFile_self {c : Content} (h : fs.content? x = some c) : fs.SameFile x x := by
  obtain ⟨n, hn⟩ := Option.isSome_iff_exists.mp (isSome_number?_of_content? h)
  exact ⟨n, hn, hn⟩

theorem SameFile.exists_content (h : fs.SameFile x w) : ∃ c, fs.content? x = some c := by
  obtain ⟨n, hn, -⟩ := h
  exact ⟨fs.contents n, by rw [content?, hn, Option.map_some]⟩

/-- Under a name that is not moved, there is what has been written. -/
theorem Replaces.content?_replaced (h : Replaces fs p w q r) (bytes : Bytes) (hr : x ≠ r)
    (hq : x = q → fs.SameFile q r) :
    (fs.replaced w q r bytes).content? x = (fs.overwrite w bytes).content? x := by
  by_cases hxq : x = q
  · rw [h.replaced_of_sameFile bytes (hxq ▸ hr) (hq hxq)]
  · exact h.content?_of_ne bytes hr hxq

/-- Replacing a file saves it, whatever directories have been created before. -/
theorem Replaces.savedOver (h : Replaces made p w q r) (hextends : Extends fs made)
    (bytes : Bytes) : SavedOver fs (made.replaced w q r bytes) bytes w q r where
  text hlink := h.file?_target bytes ((hextends.link? q).trans hlink)
  link l hlink := h.link?_target bytes ((hextends.link? q).trans hlink)
  gone hne hother :=
    h.content?_source bytes hne fun hsame => hother (hextends.sameFile_iff.mp hsame)
  written x hr hq hx := by
    rw [file?_eq_some, h.content?_replaced bytes hr fun heq => hextends.sameFile_iff.mpr (hq heq)]
    exact content?_overwrite h.admits_written bytes (hx.imp_right hextends.sameFile_iff.mpr)
  kept x hr hq hw hother := by
    rw [h.content?_replaced bytes hr fun heq => hextends.sameFile_iff.mpr (hq heq),
      content?_overwrite_of_ne h.admits_written bytes hw
        fun hsame => hother (hextends.sameFile_iff.mp hsame), hextends.content?]
  directories x hx := (h.isDirectory_replaced bytes x).trans (hextends.directories x hx)

/-- Every other file is kept exactly if the temporary name was free or one of the file's own, and no
other name of the file that was written held anything but the bytes. -/
theorem SavedOver.keeps_iff (h : SavedOver fs fs' bytes w temporary file) :
    (∀ x, x ≠ file → ∀ c, fs.content? x = some c → fs'.content? x = some c) ↔
      (fs.content? temporary = none ∨ fs.SameFile temporary file) ∧
        ∀ x, x ≠ file → fs.SameFile x w → fs.file? x = some bytes := by
  constructor
  · intro hkeeps
    -- What has the temporary name is kept only if nothing is moved.
    have hfree : ∀ c, fs.content? temporary = some c → fs.SameFile temporary file := by
      intro c hc
      by_contra hother
      have hne : temporary ≠ file := by
        rintro rfl
        exact hother (sameFile_self hc)
      have hlost := hkeeps temporary hne c hc
      rw [h.gone hne hother] at hlost
      cases hlost
    refine ⟨?_, fun x hx hsame => ?_⟩
    · cases hc : fs.content? temporary with
      | none => exact .inl rfl
      | some c => exact .inr (hfree c hc)
    · obtain ⟨c, hc⟩ := hsame.exists_content
      have hwritten := h.written x hx (fun heq => hfree _ (heq ▸ hc)) (.inr hsame)
      rw [file?_eq_some, hkeeps x hx _ hc] at hwritten
      rw [file?_eq_some, hc, hwritten]
  · rintro ⟨hfree, hothers⟩ x hx c hc
    have hmoved : x = temporary → fs.SameFile temporary file := by
      rintro rfl
      refine hfree.resolve_left fun hnone => ?_
      rw [hnone] at hc
      cases hc
    by_cases hw : fs.SameFile x w
    · rw [file?_eq_some.mp (h.written x hx hmoved (.inr hw)), ← hc,
        file?_eq_some.mp (hothers x hx hw)]
    · refine (h.kept x hx hmoved ?_ hw).trans hc
      rintro rfl
      exact hw (sameFile_self hc)

end FileSystem

/-! ## Saving -/

namespace Settings

open FileSystem

/-- Settings that are saved are written to the file that the path names, by way of the temporary
name in the same directory, and it is known of every name what is found under it afterwards. Every
other file is kept exactly if the temporary name was free or one of the file's own, and no other
name of the file that was written held anything but the text. Settings that cannot be written change
no file at all. -/
theorem save_touches (s : Settings) (fs : FileSystem) (p : Path) :
    (∀ fs', s.save fs p = (.ok (), fs') → ∃ t d name w,
      s.display = .ok t ∧ p.name? = some name ∧
      let made := (fs.createDirectories p.parent).2
      let file : Place := d ++ [name]
      let temporary : Place := d ++ [Path.temporaryName true name]
      made.place p = .ok (.named file false) ∧
      made.place p.temporary = .ok (.named temporary false) ∧
      made.target p.temporary = .ok (.named w false) ∧
      (fs.link? temporary = none → w = temporary) ∧
      (temporary = file ↔ ∃ stem, stem ≠ [] ∧ name = stem ++ ".tmp".toList) ∧
      fs.SavedOver fs' (Utf8.encode t) w temporary file ∧
      (fs.link? temporary = none → fs.link? file = none → fs'.read p = .ok (Utf8.encode t)) ∧
      ((∀ x, x ≠ file → ∀ c, fs.content? x = some c → fs'.content? x = some c) ↔
        (fs.content? temporary = none ∨ fs.SameFile temporary file) ∧
          ∀ x, x ≠ file → fs.SameFile x w → fs.file? x = some (Utf8.encode t))) ∧
    (∀ e, s.display = .error e →
      ∃ e' fs', s.save fs p = (.error e', fs') ∧ ∀ x, fs'.content? x = fs.content? x) := by
  refine ⟨fun fs' hsave => ?_, fun e he => save_of_not_written he fs p⟩
  obtain ⟨t, made, w, q, r, hdisplay, hmake, hreplaces, rfl⟩ := save_eq_ok.mp hsave
  have hextends := extends_of_createDirectories hmake
  obtain ⟨d, name, hname, rfl, rfl, hisName, hisTemporary⟩ := hreplaces.names
  have hsaved := hreplaces.savedOver hextends (Utf8.encode t)
  have hlinks := hextends.link?
  rw [hmake]
  refine ⟨t, d, name, w, hdisplay, hname, hreplaces.target, hreplaces.source, hreplaces.writes,
    fun hlink => hreplaces.eq_of_link?_eq_none ((hlinks _).trans hlink), ?_, hsaved,
    fun hlink hlink' => hreplaces.read_replaced _ ((hlinks _).trans hlink)
      ((hlinks _).trans hlink'), hsaved.keeps_iff⟩
  rw [← Path.temporaryName_eq_self_iff hisName.2 hisTemporary.2]
  simp

/-- A hidden file in a directory that has to be created first, next to files that share its stem or
its ending. With a number that cannot be written none of them changes either. -/
theorem save_touches_hidden :
    let fs : FileSystem :=
      ⟨[("home", .directory [("periscope.tmp", .file 1), (".periscope", .file 2),
        (".tmp", .file 3)])], fun n => .bytes [UInt8.ofNat n]⟩
    let p : Path := ⟨["home", ".", "new", "..", ".periscope.toml"]⟩
    let saved := (({} : Settings).save fs p).2
    let huge : Settings := { client := { connectDelay := 9223372036854775808 } }
    (({} : Settings).save fs p).1 = .ok () ∧
      (∃ t, Settings.display {} = .ok t ∧ saved.read p = .ok (Utf8.encode t)) ∧
      saved.content? ["home", "periscope.tmp"] = some (.bytes [1]) ∧
      saved.content? ["home", ".periscope"] = some (.bytes [2]) ∧
      saved.content? ["home", ".tmp"] = some (.bytes [3]) ∧
      saved.content? ["home", ".periscope.tmp"] = none ∧
      (∃ e, huge.display = .error e) ∧
      ∃ e fs', huge.save fs p = (.error e, fs') ∧ ∀ x, fs'.content? x = fs.content? x := by
  intro fs p saved huge
  have hok : (({} : Settings).save fs p).1 = .ok () := by decide +kernel
  have hfile : (fs.createDirectories p.parent).2.place p =
      .ok (.named ["home", ".periscope.toml"] false) := by decide +kernel
  have hhuge : huge.display = .error (.config .notWritable) := by decide +kernel
  obtain ⟨hsaves, -⟩ := save_touches {} fs p
  obtain ⟨t, d, name, w, hdisplay, -, hplace, -, -, hw, -, hsaved, hread, hkept⟩ :=
    hsaves saved (Prod.ext hok rfl)
  rw [hfile, Except.ok.injEq, Target.named.injEq] at hplace
  have hparts : [("home" : Text)] ++ [(".periscope.toml" : Text)] = d ++ [name] := hplace.1
  obtain ⟨rfl, hname⟩ := List.append_inj' hparts rfl
  cases hname
  cases hw rfl
  have hfree : ∀ x, ¬fs.SameFile x ["home", ".periscope.tmp"] := by
    rintro x ⟨n, -, hn⟩
    cases hn
  have hothers := hkept.mpr ⟨.inl rfl, fun x _ hsame => absurd hsame (hfree x)⟩
  exact ⟨hok, ⟨t, hdisplay, hread rfl rfl⟩, hothers _ (by decide) _ rfl,
    hothers _ (by decide) _ rfl, hothers _ (by decide) _ rfl,
    hsaved.gone (by decide) (by decide), ⟨_, hhuge⟩, (save_touches huge fs p).2 _ hhuge⟩

/-- What somebody else has under the temporary name is disturbed: a file is lost, the file that a
link leads to is overwritten, and so is the one that has another name. If the link leads to the path
itself, the text is lost as well. -/
theorem save_loses_neighbour :
    let neighbour (temporary : Nat) : FileSystem :=
      ⟨[("etc", .directory [("psc.toml", .file 1), ("other", .file 2),
        ("psc.tmp", .file temporary)])],
        fun n => if n = 4 then .link "other" else if n = 5 then .link "psc.toml"
          else .bytes [UInt8.ofNat n]⟩
    let p : Path := ⟨["etc", "psc.toml"]⟩
    let outcome (fs : FileSystem) := (({} : Settings).save fs p).1
    let saved (fs : FileSystem) := (({} : Settings).save fs p).2
    (outcome (neighbour 3) = .ok () ∧
      (neighbour 3).content? ["etc", "psc.tmp"] = some (.bytes [3]) ∧
      (saved (neighbour 3)).content? ["etc", "psc.tmp"] = none) ∧
    (outcome (neighbour 4) = .ok () ∧
      (neighbour 4).content? ["etc", "other"] = some (.bytes [2]) ∧
      (saved (neighbour 4)).content? ["etc", "other"] ≠ some (.bytes [2]) ∧
      (saved (neighbour 4)).content? ["etc", "psc.toml"] = some (.link "other")) ∧
    (outcome (neighbour 2) = .ok () ∧
      (neighbour 2).content? ["etc", "other"] = some (.bytes [2]) ∧
      (saved (neighbour 2)).content? ["etc", "other"] ≠ some (.bytes [2])) ∧
    (outcome (neighbour 5) = .ok () ∧
      (saved (neighbour 5)).read p = .error .tooManyLinks) := by
  intro neighbour p outcome saved
  refine ⟨⟨?_, rfl, ?_⟩, ⟨?_, rfl, ?_, ?_⟩, ⟨?_, rfl, ?_⟩, ?_, ?_⟩
  all_goals decide +kernel

end Settings

end ToolRegistry
