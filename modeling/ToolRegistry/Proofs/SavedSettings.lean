import ToolRegistry.Proofs.Documents
import ToolRegistry.Proofs.Files

/-!
# Settings that are saved are loaded again

Settings go through four hands on their way into a file: a document of four
sections is made of them, the document is written as a text, the text becomes
bytes, and the bytes are put into a file. Three of the hands give everything
back that they were given (`parse?_render?`, `Utf8.decode?_encode`,
`Replaces.read_replaced`). What is left is the first one: whether a section says
enough to know the settings in it.

It does, because every setting that has a value is written, and a setting that
is not written was unset. An integer of a document has a sign, so half of the
numbers of sixty-four bits cannot be written. This concerns two settings, and
it is the only reason why settings are refused.

A path may still be one that no file can be put at. Where there are no links on
the way, this can be seen without going it (`CanHold`): what is on the way is
directories, or is missing, and neither name belongs to a directory. Links are
allowed where the directory of the file is there already.
-/

namespace ToolRegistry

namespace FileSystem

open ToolRegistry.Path

variable {fs made : FileSystem} {p : Path} {before : List Text} {name : Text} {final : Bool}

/-! ## Where a file can be saved -/

/-- There is room for a file of this name in the directory that the parts before lead to. -/
structure HasRoom (fs : FileSystem) (before : List Text) (name : Text) : Prop where
  isName : IsName name
  fits : Fits name
  sound : fault? ⟨before ++ [name]⟩ = none
  not_directory : fs.isDirectory (endOf [] before ++ [name]) = false
  /-- It is no directory that has to be there to get so far. -/
  not_passed : endOf [] before ++ [name] ∉ placesAlong [] before

/-- Where there are no links, a file can be saved at a path if nothing but directories is on the
way, and there is room for it and for the temporary file. Directories may be missing. -/
def CanHold (fs : FileSystem) (p : Path) : Prop :=
  ∃ before name, p = ⟨before ++ [name]⟩ ∧ (∀ part ∈ before, Fits part) ∧
    (∀ q ∈ placesAlong [] before, fs.isDirectory q = true ∨ fs.node? q = none) ∧
    fs.HasRoom before name ∧ fs.HasRoom before (temporaryName true name)

/-- Whether what a path names is a link. -/
def namesLink (fs : FileSystem) (p : Path) : Bool :=
  match fs.place p with
  | .ok (.named q _) => (fs.link? q).isSome
  | _ => false

/-- There has been room for what is named once the directories are there. -/
theorem hasRoom_of_extends (hextends : Extends fs made) (hname : IsName name) (hfits : Fits name)
    (hsound : fault? ⟨before ++ [name]⟩ = none)
    (hdirs : ∀ q ∈ placesAlong [] before, made.isDirectory q = true)
    (hfree : made.isDirectory (endOf [] before ++ [name]) = false) : fs.HasRoom before name := by
  refine ⟨hname, hfits, hsound, eq_false_of_ne_true fun hdir => ?_, fun hpassed => ?_⟩
  · rw [hextends.directories _ hdir] at hfree
    cases hfree
  · rw [hdirs _ hpassed] at hfree
    cases hfree

/-- A name for which there is room is named as soon as the directories are there. -/
theorem HasRoom.resolve (h : fs.HasRoom before name) (hfits : ∀ part ∈ before, Fits part)
    (hdirs : ∀ q ∈ placesAlong [] before, made.isDirectory q = true)
    (hlink : made.link? (endOf [] before ++ [name]) = none) :
    made.resolve final ⟨before ++ [name]⟩ = .ok (.named (endOf [] before ++ [name]) false) := by
  refine resolve_eq_ok.mpr
    ⟨h.sound, Leads.through hfits hdirs ?_ (.named h.isName h.fits hlink rfl)⟩
  simp [h.isName.ne_nil]

theorem HasRoom.isDirectory_eq_false (h : fs.HasRoom before name)
    (hmade : ∀ q, made.isDirectory q = true ↔
      fs.isDirectory q = true ∨ q ∈ placesAlong [] before) :
    made.isDirectory (endOf [] before ++ [name]) = false := by
  refine eq_false_of_ne_true fun hdir => ?_
  rcases (hmade _).mp hdir with hdir | hpassed
  · rw [h.not_directory] at hdir
    cases hdir
  · exact h.not_passed hpassed

/-- A file that can be saved without a link on the way is saved in directories, which were there or
were missing. -/
theorem canHold_of_replaces {w q r : Place} (hlinks : ∀ q ∈ p.places, fs.link? q = none)
    (hextends : Extends fs made) (h : made.Replaces p w q r) : fs.CanHold p := by
  rw [places, List.forall_mem_append] at hlinks
  obtain ⟨hsound, htarget⟩ := resolve_eq_ok.mp h.target
  obtain ⟨hsound', hsource⟩ := resolve_eq_ok.mp h.source
  obtain ⟨before, name, hparts, hname, rfl, hfits, hdirs⟩ :=
    htarget.named_cases rfl fun q hq => (hextends.link? q).trans (hlinks.1 q hq)
  obtain rfl : p = ⟨before ++ [name]⟩ := by rw [← hparts]
  obtain ⟨-, -, htemporary⟩ := temporary_concat before hname
  rw [htemporary] at hsound' hsource hlinks
  obtain ⟨before', last, hparts', hlast, rfl, hfits', -⟩ :=
    hsource.named_cases rfl fun q hq => (hextends.link? q).trans (hlinks.2 q hq)
  obtain ⟨rfl, heq⟩ := List.append_inj' hparts' rfl
  cases heq
  rw [List.forall_mem_append, List.forall_mem_singleton] at hfits hfits'
  refine ⟨before, name, rfl, hfits.1, fun q hq => ?_,
    hasRoom_of_extends hextends hname hfits.2 hsound hdirs h.replaceable,
    hasRoom_of_extends hextends hlast hfits'.2 hsound' hdirs h.admits_source.not_directory⟩
  -- There is no file where a directory has been made, and there was none before.
  have hnumber := (hextends.numbers q).symm.trans (number?_of_isDirectory (hdirs q hq))
  cases hdir : fs.isDirectory q with
  | true => exact .inl rfl
  | false => exact .inr (node?_eq_none hnumber hdir)

/-- Where the path can hold a file, the directories that are missing can be created and then the
file can be saved. -/
theorem CanHold.exists_replaces (h : fs.CanHold p) (hlinks : ∀ q ∈ p.places, fs.link? q = none) :
    ∃ made w q r, fs.createDirectories p.parent = (.ok (), made) ∧ made.Replaces p w q r := by
  obtain ⟨before, name, rfl, hfits, hway, hroom, hroom'⟩ := h
  obtain ⟨-, hparent, htemporary⟩ := temporary_concat before hroom.isName
  rw [places, htemporary, List.forall_mem_append] at hlinks
  have hopen : IsOpen fs before.reverse.reverse := by
    rw [List.reverse_reverse]
    refine ⟨fault?_front hroom.sound, hfits, fun q hq => ?_⟩
    rcases hway q hq with hdir | hnode
    · exact number?_of_isDirectory hdir
    · rw [number?, hnode]
      rfl
  obtain ⟨made, hmake, hmade⟩ := createAlong_of_isOpen hopen
  rw [List.reverse_reverse] at hmade
  have hextends := extends_of_createAlong hmake
  have hdirs : ∀ q ∈ placesAlong [] before, made.isDirectory q = true :=
    fun q hq => (hmade q).mpr (.inr hq)
  have hmem : ∀ {last}, IsName last →
      endOf [] before ++ [last] ∈ placesAlong [] (before ++ [last]) := by
    intro last hlast
    rw [placesAlong_concat_name hlast]
    exact List.mem_append_right _ (List.mem_singleton_self _)
  have hlink := (hextends.link? _).trans (hlinks.1 _ (hmem hroom.isName))
  have hlink' := (hextends.link? _).trans (hlinks.2 _ (hmem hroom'.isName))
  have hnamed : ∀ final, made.resolve final (temporary ⟨before ++ [name]⟩) =
      .ok (.named (endOf [] before ++ [temporaryName true name]) false) := by
    rw [htemporary]
    exact fun final => hroom'.resolve hfits hdirs hlink'
  exact ⟨made, _, _, _, by rw [createDirectories, hparent, hmake], hnamed true, hnamed false,
    hroom.resolve hfits hdirs hlink, hroom'.isDirectory_eq_false hmade,
    hroom.isDirectory_eq_false hmade⟩

/-- Without links, neither name is off the way. -/
theorem Replaces.mem_places {w q r : Place} (h : fs.Replaces p w q r)
    (hlinks : ∀ x ∈ p.places, fs.link? x = none) : q ∈ p.places ∧ r ∈ p.places := by
  rw [places, List.forall_mem_append] at hlinks
  obtain ⟨-, hsource⟩ := resolve_eq_ok.mp h.source
  obtain ⟨-, htarget⟩ := resolve_eq_ok.mp h.target
  exact ⟨List.mem_append_right _ (hsource.mem_placesAlong hlinks.2),
    List.mem_append_left _ (htarget.mem_placesAlong hlinks.1)⟩

theorem link?_of_namesLink {q : Place} {slash : Bool} (hplace : fs.place p = .ok (.named q slash))
    (h : fs.namesLink p = false) : fs.link? q = none := by
  simpa only [namesLink, hplace, Option.isSome_eq_false_iff, Option.isNone_iff_eq_none] using h

end FileSystem

namespace Settings

open Toml FileSystem

/-- The two numbers of sixty-four bits fit into an integer of a document. -/
def FitsInDocument (s : Settings) : Prop :=
  s.server.maxLineLength.toNat < 2 ^ 63 ∧ s.client.connectDelay.toNat < 2 ^ 63

instance (s : Settings) : Decidable s.FitsInDocument := inferInstanceAs (Decidable (_ ∧ _))

/-! ## Which settings can be written -/

theorem isSome_mapM {α β : Type} {f : α → Option β} {xs : List α} :
    (xs.mapM f).isSome = true ↔ ∀ x ∈ xs, (f x).isSome = true := by
  induction xs with
  | nil => simp
  | cons x xs ih =>
      rw [List.mapM_cons, List.forall_mem_cons, ← ih]
      cases f x with
      | none => simp
      | some y => cases xs.mapM f <;> simp

theorem isSome_renderLine? (line : Text × Value) :
    (renderLine? line).isSome = (renderValue? line.2).isSome := by
  rw [renderLine?, Option.isSome_map]

theorem isSome_textLine (key t : Text) : (renderLine? (textLine key t)).isSome = true := rfl

theorem isSome_numberLine (key : Text) (n : Nat) :
    (renderLine? (numberLine key n)).isSome = true ↔ n < 2 ^ 63 := by
  rw [isSome_renderLine?, numberLine, renderValue?]
  split
  · next h =>
      have := of_decide_eq_true h
      simp only [Option.isSome_some, true_iff]
      omega
  · next h =>
      have := of_decide_eq_false (eq_false_of_ne_true h)
      simp only [Option.isSome_none, Bool.false_eq_true, false_iff]
      omega

theorem isSome_section (s : Section) :
    s.render?.isSome = true ↔ ∀ line ∈ s.lines, (renderLine? line).isSome = true := by
  rw [Section.render?, Option.isSome_map, isSome_mapM]

/-- Of all settings, the two numbers alone may be too large. -/
theorem isSome_render?_sections (s : Settings) :
    (Toml.render? s.sections).isSome = true ↔ s.FitsInDocument := by
  have hport := s.registry.port.toNat_lt
  have hretries := s.server.bindRetries.toNat_lt
  have hstep := s.server.maxPortStep.toNat_lt
  have hattempts := s.client.connectAttempts.toNat_lt
  have hhost : ∀ line ∈ (s.registry.initHost.map (textLine "init_host")).toList,
      (renderLine? line).isSome = true := by
    intro line hline
    obtain ⟨t, -, rfl⟩ := Option.map_eq_some_iff.mp (Option.mem_toList.mp hline)
    exact isSome_textLine _ t
  have hinit : ∀ line ∈ (s.registry.initPort.map fun port =>
      numberLine "init_port" port.toNat).toList, (renderLine? line).isSome = true := by
    intro line hline
    obtain ⟨port, -, rfl⟩ := Option.map_eq_some_iff.mp (Option.mem_toList.mp hline)
    have := port.toNat_lt
    exact (isSome_numberLine _ _).mpr (by omega)
  rw [Toml.render?, Option.isSome_map, isSome_mapM]
  simp only [sections, registryLines, serverLines, clientLines, loggingLines, isSome_section,
    List.forall_mem_append, List.forall_mem_cons, isSome_textLine, isSome_numberLine,
    FitsInDocument]
  constructor
  · rintro ⟨-, ⟨-, -, -, hlimit, -⟩, ⟨-, hdelay, -⟩, -⟩
    exact ⟨hlimit, hdelay⟩
  · rintro ⟨hlimit, hdelay⟩
    refine ⟨⟨⟨⟨trivial, ?_, List.forall_mem_nil _⟩, hhost⟩, hinit⟩,
      ⟨trivial, ?_, ?_, hlimit, List.forall_mem_nil _⟩, ⟨?_, hdelay, List.forall_mem_nil _⟩,
      ⟨trivial, List.forall_mem_nil _⟩, List.forall_mem_nil _⟩ <;> omega

theorem orNotWritable_eq_ok {o : Option Text} {t : Text} :
    orNotWritable o = .ok t ↔ o = some t := by
  cases o with
  | none => simp [orNotWritable]
  | some u => simp [orNotWritable]

theorem display_eq_ok {s : Settings} {t : Text} :
    s.display = .ok t ↔ Toml.render? s.sections = some t := by
  rw [display, orNotWritable_eq_ok]

theorem exists_display_iff (s : Settings) : (∃ t, s.display = .ok t) ↔ s.FitsInDocument := by
  rw [← isSome_render?_sections, Option.isSome_iff_exists]
  simp only [display_eq_ok]

/-! ## What a section says -/

theorem natAt_number {bits n : Nat} (h : n < 2 ^ bits) (default : Nat) :
    natAt bits default (some (.integer n)) = some n := by
  have hbelow : (n : Int) < 2 ^ bits := by exact_mod_cast h
  rw [natAt, if_pos ⟨Int.natCast_nonneg n, hbelow⟩, Int.toNat_natCast]

theorem registryOf_lines (r : RegistrySettings) :
    registryOf (fun _ key => Entries.get? (registryLines r) key) = some r := by
  have hhost : Entries.get? (registryLines r) "host" = some (.string r.host) := rfl
  have hport : Entries.get? (registryLines r) "port" = some (.integer r.port.toNat) := rfl
  have hinitHost : Entries.get? (registryLines r) "init_host" = r.initHost.map .string := by
    cases h : r.initHost <;> cases h' : r.initPort <;> rw [registryLines, h, h'] <;> rfl
  have hinitPort : Entries.get? (registryLines r) "init_port" =
      r.initPort.map fun port => .integer port.toNat := by
    cases h : r.initHost <;> cases h' : r.initPort <;> rw [registryLines, h, h'] <;> rfl
  obtain ⟨host, port, initHost, initPort⟩ := r
  rw [registryOf]
  simp only [hhost, hport, hinitHost, hinitPort, textAt, natAt_number port.toNat_lt,
    Option.bind_eq_bind, Option.bind_some, UInt16.ofNat_toNat]
  cases initHost with
  | none =>
      cases initPort with
      | none => rfl
      | some initPort =>
          simp only [Option.map_none, Option.map_some, natAt_number initPort.toNat_lt,
            Option.bind_some, UInt16.ofNat_toNat]
          rfl
  | some initHost =>
      cases initPort with
      | none => rfl
      | some initPort =>
          simp only [Option.map_some, natAt_number initPort.toNat_lt, Option.bind_some,
            UInt16.ofNat_toNat]
          rfl

theorem serverOf_lines (r : ServerSettings) :
    serverOf (fun _ key => Entries.get? (serverLines r) key) = some r := by
  have hhost : Entries.get? (serverLines r) "host" = some (.string r.host) := rfl
  have hretries : Entries.get? (serverLines r) "bind_retries" =
      some (.integer r.bindRetries.toNat) := rfl
  have hstep : Entries.get? (serverLines r) "max_port_step" =
      some (.integer r.maxPortStep.toNat) := rfl
  have hlimit : Entries.get? (serverLines r) "max_line_len" =
      some (.integer r.maxLineLength.toNat) := rfl
  rw [serverOf]
  simp only [hhost, hretries, hstep, hlimit, textAt, natAt_number r.bindRetries.toNat_lt,
    natAt_number r.maxPortStep.toNat_lt, natAt_number r.maxLineLength.toNat_lt,
    Option.bind_eq_bind, Option.bind_some, UInt32.ofNat_toNat, UInt16.ofNat_toNat,
    UInt64.ofNat_toNat]
  rfl

theorem clientOf_lines (r : ClientSettings) :
    clientOf (fun _ key => Entries.get? (clientLines r) key) = some r := by
  have hattempts : Entries.get? (clientLines r) "connect_attempts" =
      some (.integer r.connectAttempts.toNat) := rfl
  have hdelay : Entries.get? (clientLines r) "connect_delay_ms" =
      some (.integer r.connectDelay.toNat) := rfl
  rw [clientOf]
  simp only [hattempts, hdelay, natAt_number r.connectAttempts.toNat_lt,
    natAt_number r.connectDelay.toNat_lt, Option.bind_eq_bind, Option.bind_some,
    UInt32.ofNat_toNat, UInt64.ofNat_toNat]
  rfl

theorem loggingOf_lines (r : LoggingSettings) :
    loggingOf (fun _ key => Entries.get? (loggingLines r) key) = some r := rfl

/-- The settings are found again in the sections that are made of them. -/
theorem ofDocument?_tablesOf (s : Settings) : ofDocument? (tablesOf s.sections) = some s := by
  have hregistry : source? (tablesOf s.sections) "registry" >>= registryOf = some s.registry := by
    have hsource : source? (tablesOf s.sections) "registry" =
        some fun _ key => Entries.get? (registryLines s.registry) key := rfl
    rw [hsource, Option.bind_eq_bind, Option.bind_some, registryOf_lines]
  have hserver : source? (tablesOf s.sections) "server" >>= serverOf = some s.server := by
    have hsource : source? (tablesOf s.sections) "server" =
        some fun _ key => Entries.get? (serverLines s.server) key := rfl
    rw [hsource, Option.bind_eq_bind, Option.bind_some, serverOf_lines]
  have hclient : source? (tablesOf s.sections) "client" >>= clientOf = some s.client := by
    have hsource : source? (tablesOf s.sections) "client" =
        some fun _ key => Entries.get? (clientLines s.client) key := rfl
    rw [hsource, Option.bind_eq_bind, Option.bind_some, clientOf_lines]
  have hlogging : source? (tablesOf s.sections) "logging" >>= loggingOf = some s.logging := by
    have hsource : source? (tablesOf s.sections) "logging" =
        some fun _ key => Entries.get? (loggingLines s.logging) key := rfl
    rw [hsource, Option.bind_eq_bind, Option.bind_some, loggingOf_lines]
  rw [ofDocument?, hregistry, hserver, hclient, hlogging]
  rfl

/-! ## Saving and loading -/

theorem isPlain_of_keys {name : Text} {lines : Entries} {keys : List Text}
    (h : lines.keys.Sublist keys) (hname : IsBareKey name) (hkeys : ∀ key ∈ keys, IsBareKey key)
    (hdistinct : keys.Nodup) : Section.IsPlain ⟨name, lines⟩ :=
  ⟨hname, fun line hline => hkeys line.1 (h.subset (List.mem_map_of_mem hline)),
    hdistinct.sublist h⟩

theorem keys_optional {α : Type} {o : Option α} {line : α → Text × Value} {key : Text}
    (h : ∀ a, (line a).1 = key) : (Entries.keys (o.map line).toList).Sublist [key] := by
  cases o with
  | none => exact List.nil_sublist _
  | some a =>
      show List.Sublist [(line a).1] [key]
      rw [h a]

theorem isPlain_registry (r : RegistrySettings) :
    Section.IsPlain ⟨"registry", registryLines r⟩ := by
  have hkeys : (registryLines r).keys.Sublist ["host", "port", "init_host", "init_port"] := by
    have hfirst : List.Sublist ["host".toList, "port".toList] ["host", "port"] :=
      List.Sublist.refl _
    have hhost := @keys_optional Text r.initHost (textLine "init_host") "init_host" fun _ => rfl
    have hport := @keys_optional UInt16 r.initPort
      (fun port => numberLine "init_port" port.toNat) "init_port" fun _ => rfl
    rw [registryLines, Entries.keys, List.map_append, List.map_append]
    exact (hfirst.append hhost).append hport
  exact isPlain_of_keys hkeys (by decide) (by decide) (by decide)

theorem isPlain_sections (s : Settings) : ∀ x ∈ s.sections, x.IsPlain := by
  have hserver : (serverLines s.server).keys.Sublist
      ["host", "bind_retries", "max_port_step", "max_line_len"] := List.Sublist.refl _
  have hclient : (clientLines s.client).keys.Sublist
      ["connect_attempts", "connect_delay_ms"] := List.Sublist.refl _
  have hlogging : (loggingLines s.logging).keys.Sublist ["level"] := List.Sublist.refl _
  simp only [sections, List.forall_mem_cons]
  refine ⟨isPlain_registry s.registry, ?_, ?_, ?_, List.forall_mem_nil _⟩
  · exact isPlain_of_keys hserver (by decide) (by decide) (by decide)
  · exact isPlain_of_keys hclient (by decide) (by decide) (by decide)
  · exact isPlain_of_keys hlogging (by decide) (by decide) (by decide)

/-- What is written is read back. -/
theorem parse?_display {s : Settings} {t : Text} (h : s.display = .ok t) :
    parse? t = some s := by
  have hnames : (s.sections.map (·.name)).Nodup := by
    show List.Nodup ["registry".toList, "server".toList, "client".toList, "logging".toList]
    decide
  have hread := parse?_render? s.isPlain_sections hnames (display_eq_ok.mp h)
  rw [parse?, hread, Option.bind_eq_bind, Option.bind_some, ofDocument?_tablesOf]

theorem load_written {s : Settings} {t : Text} (h : s.display = .ok t) {fs : FileSystem}
    {p : Path} (hread : fs.read p = .ok (Utf8.encode t)) : load fs p = .ok s := by
  rw [load, if_pos (FileSystem.contains_of_read hread), hread]
  simp only [Utf8.decode?_encode, parse?_display h]

/-- Settings are saved if they can be written and the file can be put where the path leads to. -/
theorem save_fst_eq_ok {s : Settings} {fs : FileSystem} {p : Path} :
    (s.save fs p).1 = .ok () ↔ (∃ t, s.display = .ok t) ∧
      ∃ made w q r, fs.createDirectories p.parent = (.ok (), made) ∧ made.Replaces p w q r := by
  constructor
  · intro h
    have hsave : s.save fs p = (.ok (), (s.save fs p).2) := Prod.ext h rfl
    obtain ⟨t, made, w, q, r, ht, hmake, hreplaces, -⟩ := save_eq_ok.mp hsave
    exact ⟨⟨t, ht⟩, made, w, q, r, hmake, hreplaces⟩
  · rintro ⟨⟨t, ht⟩, made, w, q, r, hmake, hreplaces⟩
    exact congrArg Prod.fst (save_eq_ok.mpr ⟨t, made, w, q, r, ht, hmake, hreplaces, rfl⟩)

/-- Settings can be written if their two numbers of sixty-four bits have a place in a document, and
what is written of them is read back as it was.

They can be saved if moreover the file can be put where the path leads to, and then they are loaded
as they were saved. Where there are links on the way, this is known if the directory is there, and
the settings are loaded again unless one of the two names is a link itself. Otherwise, whatever has
been done until then, a file that is there already keeps its content. -/
theorem save_load (s : Settings) (fs : FileSystem) (p : Path) :
    ((∃ t, s.display = .ok t) ↔ s.FitsInDocument) ∧
      (∀ t, s.display = .ok t → parse? t = some s) ∧
      ((∀ q ∈ p.places, fs.link? q = none) →
        ((s.save fs p).1 = .ok () ↔ s.FitsInDocument ∧ fs.CanHold p) ∧
          ((s.save fs p).1 = .ok () → load (s.save fs p).2 p = .ok s)) ∧
      (fs.leadsInto p.parent = true →
        ((s.save fs p).1 = .ok () ↔ s.FitsInDocument ∧ ∃ w q r, fs.Replaces p w q r)) ∧
      ((s.save fs p).1 = .ok () → ∃ t, s.display = .ok t ∧
        let made := (fs.createDirectories p.parent).2
        (made.namesLink p = false → made.namesLink p.temporary = false →
          (s.save fs p).2.read p = .ok (Utf8.encode t) ∧ load (s.save fs p).2 p = .ok s)) ∧
      ((s.save fs p).1 ≠ .ok () → ∀ bytes, fs.read p = .ok bytes →
        (s.save fs p).2.read p = .ok bytes) := by
  have hfits := s.exists_display_iff
  refine ⟨hfits, fun t => parse?_display, fun hlinks => ⟨?_, fun hok => ?_⟩, fun hinto => ?_,
    fun hok => ?_, fun hno bytes => read_of_not_saved hno⟩
  · rw [save_fst_eq_ok, hfits]
    refine and_congr_right fun _ => ⟨?_, fun h => h.exists_replaces hlinks⟩
    rintro ⟨made, w, q, r, hmake, hreplaces⟩
    exact canHold_of_replaces hlinks (extends_of_createDirectories hmake) hreplaces
  · have hsave : s.save fs p = (.ok (), (s.save fs p).2) := Prod.ext hok rfl
    obtain ⟨t, made, w, q, r, ht, hmake, hreplaces, hsaved⟩ := save_eq_ok.mp hsave
    have hfree : ∀ x ∈ p.places, made.link? x = none :=
      fun x hx => ((extends_of_createDirectories hmake).link? x).trans (hlinks x hx)
    obtain ⟨htemporary, hname⟩ := hreplaces.mem_places hfree
    rw [hsaved]
    exact load_written ht (hreplaces.read_replaced _ (hfree q htemporary) (hfree r hname))
  · rw [save_fst_eq_ok, hfits]
    have hthere := createDirectories_of_leadsInto hinto
    refine and_congr_right fun _ => ⟨?_, fun ⟨w, q, r, h⟩ => ⟨fs, w, q, r, hthere, h⟩⟩
    rintro ⟨made, w, q, r, hmake, hreplaces⟩
    rw [hthere] at hmake
    cases hmake
    exact ⟨w, q, r, hreplaces⟩
  · have hsave : s.save fs p = (.ok (), (s.save fs p).2) := Prod.ext hok rfl
    obtain ⟨t, made, w, q, r, ht, hmake, hreplaces, hsaved⟩ := save_eq_ok.mp hsave
    rw [hmake, hsaved]
    refine ⟨t, ht, fun hname htemporary => ?_⟩
    have hread := hreplaces.read_replaced (Utf8.encode t)
      (link?_of_namesLink hreplaces.source htemporary) (link?_of_namesLink hreplaces.target hname)
    exact ⟨hread, load_written ht hread⟩

/-- Texts with quotes of both kinds in a row, line ends and characters that need an escape, and the
greatest number that can be written, saved over another file, below directories that are missing,
and in a directory that a link leads to. With the next number the settings are refused and the file
is left alone. -/
theorem save_load_quotes :
    let s : Settings :=
      { registry := { host := "\"\"\"\n'''\\\t\x07", port := 0, initHost := some "" },
        server := { host := "'\"\u2028", maxLineLength := 9223372036854775807 },
        logging := ⟨"\r\na\"\"\"\""⟩ }
    let huge : Settings :=
      { s with server := { s.server with maxLineLength := 9223372036854775808 } }
    let fs : FileSystem :=
      ⟨[("etc", .directory [("a.toml", .file 0)]), ("config", .file 1)],
        fun n => if n = 1 then .link "/etc/." else .bytes [120]⟩
    let p : Path := ⟨["etc", "..", "etc", "a.toml"]⟩
    let below : Path := ⟨["etc", "new", "..", "new", "nested", "a.toml"]⟩
    let linked : Path := ⟨["config", "b.toml"]⟩
    s.FitsInDocument ∧ fs.CanHold p ∧ (s.save fs p).1 = .ok () ∧ load (s.save fs p).2 p = .ok s ∧
      (fs.isDirectory ["etc", "new"] = false ∧ fs.CanHold below ∧ (s.save fs below).1 = .ok () ∧
        load (s.save fs below).2 below = .ok s) ∧
      (fs.leadsInto linked.parent = true ∧ (s.save fs linked).1 = .ok () ∧
        load (s.save fs linked).2 linked = .ok s) ∧
      ¬huge.FitsInDocument ∧ fs.read p = .ok [120] ∧ (huge.save fs p).1 ≠ .ok () ∧
      (huge.save fs p).2.read p = .ok [120] := by
  intro s huge fs p below linked
  have hfits : s.FitsInDocument := by decide
  have hhuge : ¬huge.FitsInDocument := by decide
  have hholds : fs.CanHold p :=
    ⟨["etc", "..", "etc"], "a.toml", rfl, by decide, by decide,
      ⟨by decide, by decide, by decide, by decide, by decide⟩,
      ⟨by decide, by decide, by decide, by decide, by decide⟩⟩
  have hbelow : fs.CanHold below :=
    ⟨["etc", "new", "..", "new", "nested"], "a.toml", rfl, by decide, by decide,
      ⟨by decide, by decide, by decide, by decide, by decide⟩,
      ⟨by decide, by decide, by decide, by decide, by decide⟩⟩
  have hinto : fs.leadsInto linked.parent = true := by decide +kernel
  have hlinked : fs.Replaces linked ["etc", "b.tmp"] ["etc", "b.tmp"] ["etc", "b.toml"] :=
    ⟨by decide +kernel, by decide +kernel, by decide +kernel, rfl, rfl⟩
  have hread : fs.read p = .ok [120] := rfl
  obtain ⟨hsaves, hloads⟩ := (s.save_load fs p).2.2.1 (by decide)
  obtain ⟨hsaves', hloads'⟩ := (s.save_load fs below).2.2.1 (by decide)
  obtain ⟨-, -, -, hsaves'', hloads'', -⟩ := s.save_load fs linked
  obtain ⟨-, -, hrefuses, -, -, hkeeps⟩ := huge.save_load fs p
  have hsaved : (s.save fs p).1 = .ok () := hsaves.mpr ⟨hfits, hholds⟩
  have hsaved' : (s.save fs below).1 = .ok () := hsaves'.mpr ⟨hfits, hbelow⟩
  have hsaved'' : (s.save fs linked).1 = .ok () := (hsaves'' hinto).mpr ⟨hfits, _, _, _, hlinked⟩
  obtain ⟨t, -, hloads''⟩ := hloads'' hsaved''
  have hrefused : (huge.save fs p).1 ≠ .ok () :=
    fun h => hhuge ((hrefuses (by decide)).1.mp h).1
  exact ⟨hfits, hholds, hsaved, hloads hsaved,
    ⟨by decide, hbelow, hsaved', hloads' hsaved'⟩,
    ⟨hinto, hsaved'', (hloads'' (by decide +kernel) (by decide +kernel)).2⟩,
    hhuge, hread, hrefused, hkeeps hrefused _ hread⟩

end Settings

end ToolRegistry
