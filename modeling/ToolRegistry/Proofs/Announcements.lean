import Mathlib.Data.List.Basic
import ToolRegistry.CommandLine.Server
import ToolRegistry.Launch
import ToolRegistry.Proofs.FieldPairs

/-!
# A server is found where it announces itself

A server writes down where it listens and others read it: the program that has
started the server reads its announcement, and clients read a variable or a
settings file. The port survives all of this, because it stands behind the last
colon and a number holds no colon. The host is any text at all. A server shows
the host that it was told to show, and that text has not been looked at by
anybody.

A host can hold colons, quotes and blanks and is read back all the same
(`parse?_render`). What it cannot do is begin with white space, because white
space in front of a location is ignored. And an announcement is looked for line
by line, so a host with a line feed, though it can be told in a variable, cannot
be announced (`announced?_announcement`). Only in a settings file, which keeps
host and port apart, is every host safe. An address of either version has none
of these faults, so a server that shows the address it is bound to is always
found, whatever the resolver has said about its host.
-/

namespace ToolRegistry

open Decimal

/-! ## Texts that begin visibly -/

namespace Text

/-- A text that begins with a character which is not white space. -/
def BeginsVisibly (t : Text) : Prop := ∃ c ∈ t.head?, isWhiteSpace c = false

theorem BeginsVisibly.ne_nil {t : Text} (h : t.BeginsVisibly) : t ≠ [] := by
  rintro rfl
  obtain ⟨c, hc, -⟩ := h
  cases hc

theorem BeginsVisibly.append {t : Text} (h : t.BeginsVisibly) (rest : Text) :
    BeginsVisibly (t ++ rest) := by
  obtain ⟨c, hc, hw⟩ := h
  exact ⟨c, List.mem_head?_append_of_mem_head? hc, hw⟩

theorem BeginsVisibly.head? {t : Text} (h : t.BeginsVisibly) :
    ∀ c ∈ t.head?, isWhiteSpace c = false := by
  obtain ⟨c, hc, hw⟩ := h
  intro d hd
  cases Option.mem_unique hc hd
  exact hw

/-- A text that begins visibly and ends in a number has no white space at its ends. -/
theorem BeginsVisibly.trim_append_ofNat {t : Text} (h : t.BeginsVisibly) (n : Nat) :
    trim (t ++ ofNat n) = t ++ ofNat n := by
  refine trim_of_ends (h.append _).head? fun c hc => ?_
  rw [List.getLast?_append_of_ne_nil _ (ofNat_ne_nil n)] at hc
  exact isWhiteSpace_of_isDigit (isDigit_of_mem_ofNat (List.mem_of_getLast? hc))

end Text

/-! ## Addresses -/

theorem Text.beginsVisibly_of_forall {t : Text} (hne : t ≠ [])
    (h : ∀ c ∈ t, isWhiteSpace c = false) : t.BeginsVisibly := by
  obtain ⟨c, rest, rfl⟩ := List.exists_cons_of_ne_nil hne
  exact ⟨c, rfl, h c List.mem_cons_self⟩

theorem Digits.isWhiteSpace_of_mem_lowerHex {n : Nat} {c : Char} (h : c ∈ lowerHex n) :
    Text.isWhiteSpace c = false := by
  have hdigit : ∀ d < 16, Text.isWhiteSpace (Nat.digitChar d) = false := by decide
  rw [lowerHex] at h
  induction n using Nat.strongRecOn with
  | ind n ih =>
      rw [Nat.toDigits_eq_if (by decide)] at h
      split at h
      · next hn => exact List.mem_singleton.mp h ▸ hdigit n hn
      · next hn =>
          rcases List.mem_append.mp h with h | h
          · exact ih (n / 16) (Nat.div_lt_self (by omega) (by decide)) h
          · exact List.mem_singleton.mp h ▸ hdigit (n % 16) (Nat.mod_lt n (by decide))

namespace Address

theorem isWhiteSpace_of_mem_render (a : Address) :
    ∀ c ∈ a.render, Text.isWhiteSpace c = false := by
  refine Text.forall_mem_join (List.forall_mem_singleton.mpr (by decide)) fun t ht c hc => ?_
  obtain ⟨k, -, rfl⟩ := List.mem_map.mp ht
  exact isWhiteSpace_of_isDigit (isDigit_of_mem_ofNat hc)

theorem render_ne_nil (a : Address) : a.render ≠ [] := by
  simp [render, Text.join, List.intercalate]

end Address

namespace Address6

theorem isWhiteSpace_of_mem_renderGroups (groups : List UInt16) :
    ∀ c ∈ renderGroups groups, Text.isWhiteSpace c = false := by
  refine Text.forall_mem_join (List.forall_mem_singleton.mpr (by decide)) fun t ht c hc => ?_
  obtain ⟨g, -, rfl⟩ := List.mem_map.mp ht
  exact Digits.isWhiteSpace_of_mem_lowerHex hc

theorem renderGroups_ne_nil {groups : List UInt16} (h : groups ≠ []) :
    renderGroups groups ≠ [] := by
  obtain ⟨g, rest, rfl⟩ := List.exists_cons_of_ne_nil h
  have hne : Digits.lowerHex g.toNat ≠ [] := Nat.toDigits_ne_nil
  cases rest <;> simp [renderGroups, Text.join, List.intercalate, hne]

theorem isWhiteSpace_of_mem_render (a : Address6) :
    ∀ c ∈ a.render, Text.isWhiteSpace c = false := by
  have hcolon : Text.isWhiteSpace ':' = false := by decide
  intro c hc
  rw [render] at hc
  split at hc
  · next v4 _ =>
      rcases List.mem_append.mp hc with hc | hc
      · have hfront : ("::ffff:".toList.all fun c => !Text.isWhiteSpace c) = true := by decide
        simpa using List.all_eq_true.mp hfront c hc
      · exact v4.isWhiteSpace_of_mem_render c hc
  · dsimp only at hc
    split at hc
    · exact isWhiteSpace_of_mem_renderGroups _ c hc
    · rw [List.mem_append, List.mem_cons, List.mem_cons] at hc
      rcases hc with hc | rfl | rfl | hc
      · exact isWhiteSpace_of_mem_renderGroups _ c hc
      · exact hcolon
      · exact hcolon
      · exact isWhiteSpace_of_mem_renderGroups _ c hc

theorem render_ne_nil (a : Address6) : a.render ≠ [] := by
  have hgroups : a.groups.toList ≠ [] :=
    List.ne_nil_of_length_pos (by rw [Vector.length_toList]; decide)
  rw [render]
  split
  · simp
  · dsimp only
    split
    · exact renderGroups_ne_nil hgroups
    · simp

end Address6

namespace IpAddress

theorem isWhiteSpace_of_mem_render (ip : IpAddress) :
    ∀ c ∈ ip.render, Text.isWhiteSpace c = false := by
  cases ip with
  | v4 a => exact a.isWhiteSpace_of_mem_render
  | v6 a => exact a.isWhiteSpace_of_mem_render

theorem beginsVisibly_render (ip : IpAddress) : ip.render.BeginsVisibly := by
  refine Text.beginsVisibly_of_forall ?_ ip.isWhiteSpace_of_mem_render
  cases ip with
  | v4 a => exact a.render_ne_nil
  | v6 a => exact a.render_ne_nil

theorem lineFeed_not_mem_render (ip : IpAddress) : '\n' ∉ ip.render := by
  intro h
  exact absurd (ip.isWhiteSpace_of_mem_render _ h) (by decide)

end IpAddress

/-! ## Locations -/

namespace Location

variable {l : Location}

/-- What stands in front of the port, and the port. -/
theorem render_eq (l : Location) : l.render = (l.host ++ [':']) ++ ofNat l.port.toNat := by
  rw [render, List.append_assoc, List.singleton_append]

theorem announcement_eq (l : Location) :
    l.announcement = (variableName ++ '=' :: (l.host ++ [':'])) ++ ofNat l.port.toNat := by
  rw [announcement, render_eq, List.append_assoc variableName, List.cons_append]

theorem parse?_render (h : l.host.BeginsVisibly) : parse? l.render = some l := by
  have hcolon : ':' ∉ ofNat l.port.toNat := not_mem_ofNat (by decide) _
  have htrim : l.render.trim = l.render := by
    rw [render_eq]
    exact (h.append _).trim_append_ofNat _
  simp only [parse?, htrim]
  simp only [render, Text.splitAtLast?_append hcolon, Option.bind_eq_bind, Option.bind_some,
    if_neg h.ne_nil, uint16?_ofNat, Option.pure_def]

theorem ofAnnouncement?_announcement (h : l.host.BeginsVisibly) :
    ofAnnouncement? l.announcement = some l := by
  -- The line as a whole is trimmed in vain; it is the value that must begin visibly.
  have hname : Text.BeginsVisibly (variableName ++ '=' :: (l.host ++ [':'])) := ⟨'P', rfl, rfl⟩
  have htrim : l.announcement.trim = l.announcement := by
    rw [announcement_eq]
    exact hname.trim_append_ofNat _
  have hvalue : Text.after? ['='] ('=' :: l.render) = some l.render := Text.after?_append ['='] _
  simp only [ofAnnouncement?, htrim]
  simp only [announcement, Text.after?_append, hvalue, parse?_render h, Option.bind_eq_bind,
    Option.bind_some]

theorem lineFeed_not_mem_announcement (h : '\n' ∉ l.host) : '\n' ∉ l.announcement := by
  have hname : '\n' ∉ variableName := by decide
  have hport : '\n' ∉ ofNat l.port.toNat := not_mem_ofNat (by decide) _
  simp [announcement_eq, hname, h, hport]

end Location

/-! ## Finding an announcement -/

namespace Launch

/-- The first line is looked at first. -/
theorem announced?_announcement {l : Location} (h : l.host.BeginsVisibly) (hline : '\n' ∉ l.host)
    (rest : Text) : announced? (l.announcement ++ '\n' :: rest) = some l := by
  rw [announced?, Text.split_append (Location.lineFeed_not_mem_announcement hline),
    List.findSome?_cons, Location.ofAnnouncement?_announcement h]

end Launch

/-! ## Servers -/

theorem Listen.bind_eq_ok {m : Machine} {o : ListenOptions} {choices : Nat → Nat} {s : Session}
    (h : bind m o choices = .ok s) :
    ∃ ip, endpoint m o choices = .ok (ip, s.port) ∧ s.host = shownHost m o ip := by
  rw [bind] at h
  cases he : endpoint m o choices with
  | error e =>
      rw [he] at h
      cases h
  | ok bound =>
      rw [he] at h
      cases h
      exact ⟨bound.1, rfl, rfl⟩

/-- A host that is found out is an address, if it is not the machine's own name. -/
theorem Listen.exists_advertisedHost_eq {ownName : Option Text} {ip : IpAddress}
    (h : ip.isEvery = false ∨ ownName = none) :
    ∃ shown : IpAddress, advertisedHost ownName ip = shown.render := by
  cases hip : ip.isEvery with
  | false => exact ⟨ip, by rw [advertisedHost, hip, if_neg Bool.false_ne_true]⟩
  | true =>
      have hnone : ownName = none := h.resolve_left (by rw [hip]; decide)
      exact ⟨ip.own, by rw [advertisedHost, hip, if_pos rfl, hnone, Option.getD_none]⟩

namespace CommandLine

/-- A server that is bound, whatever it was told, is where it says. Settings in which its location
is recorded tell that location; whoever reads the location or the announcement finds it, if the host
begins visibly; and so does the program that has started the server, if the host has no line feed.
The host is the one that the server was told to show, or else the address that it is bound to or, if
that is every address of the machine, the name of the machine. An address of either version is
always found. -/
theorem ServerCall.bind_announced (call : ServerCall) (s : Settings) (told : Option Location)
    (m : Machine) (choices : Nat → Nat) (session : Session)
    (h : Listen.bind m (call.listenOptions s told) choices = .ok session) :
    let o := call.listenOptions s told
    let l := session.location
    ∃ ip : IpAddress, Listen.endpoint m o choices = .ok (ip, l.port) ∧
    (∀ host, o.advertise = some host → l.host = host) ∧
    (o.advertise = none →
      (ip.isEvery = false → l.host = ip.render) ∧
      (ip.isEvery = true → l.host = m.ownName.getD ip.own.render) ∧
      (ip.isEvery = false ∨ m.ownName = none → l.host.BeginsVisibly ∧ '\n' ∉ l.host)) ∧
    (s.recordLocation l).resolve none = .ok l ∧
    (l.host.BeginsVisibly →
      Location.parse l.render = .ok l ∧ Location.ofAnnouncement? l.announcement = some l ∧
      ('\n' ∉ l.host → ∀ program later : Text, Launch.locationOf program
        (.running ((Listening.mk ip.render session).announcement ++ later)) = .ok l)) := by
  intro o l
  obtain ⟨ip, hendpoint, hhost⟩ := Listen.bind_eq_ok h
  have hhost : l.host = Listen.shownHost m o ip := hhost
  refine ⟨ip, hendpoint, fun host hadvertise => ?_, fun hadvertise => ?_, rfl, fun hvisible =>
    ⟨?_, Location.ofAnnouncement?_announcement hvisible, fun hline program later => ?_⟩⟩
  · rw [hhost, Listen.shownHost, hadvertise, Option.getD_some]
  · rw [hhost, Listen.shownHost, hadvertise, Option.getD_none]
    refine ⟨fun hip => ?_, fun hip => ?_, fun hshown => ?_⟩
    · rw [Listen.advertisedHost, hip, if_neg Bool.false_ne_true]
    · rw [Listen.advertisedHost, if_pos hip]
    · obtain ⟨shown, hrender⟩ := Listen.exists_advertisedHost_eq hshown
      rw [hrender]
      exact ⟨shown.beginsVisibly_render, shown.lineFeed_not_mem_render⟩
  · rw [Location.parse, Location.parse?_render hvisible]
  · have hannounced : Launch.announced? ((Listening.mk ip.render session).announcement ++ later) =
        some l := by
      rw [Listening.announcement, List.append_assoc, List.singleton_append]
      exact Launch.announced?_announcement hvisible hline later
    simp only [Launch.locationOf, hannounced]

/-- A host with colons, a quote, and white space inside and at its end, and a server that is bound
to an address of version six and has only that one to show. -/
theorem ServerCall.bind_announced_colons :
    let call (advertise : Option Text) : ServerCall :=
      { port := some 50100, host := some "::1", advertise, file := none, record := false }
    let m : Machine := ⟨fun port => port == 50100, 0, some "node"⟩
    let bound (advertise : Option Text) := Listen.bind m ((call advertise).listenOptions {} none)
      (fun _ => 2)
    let told : Session := ⟨"fe80::1 \"x \t\r", 50103, 1048576⟩
    let found : Session := ⟨"::1", 50103, 1048576⟩
    let heard (s : Session) : Except RegistryError Location :=
      Launch.locationOf "psc-regsrv" (.running (Listening.mk "::1" s).announcement)
    bound (some told.host) = .ok told ∧ told.location.host.BeginsVisibly ∧
      '\n' ∉ told.location.host ∧ heard told = .ok ⟨"fe80::1 \"x \t\r", 50103⟩ ∧
      bound none = .ok found ∧ heard found = .ok ⟨"::1", 50103⟩ := by
  intro call m bound told found heard
  have htold : bound (some told.host) = .ok told := by decide +kernel
  have hfound : bound none = .ok found := by decide +kernel
  have hend (advertise : Option Text) : Listen.endpoint m ((call advertise).listenOptions {} none)
      (fun _ => 2) = .ok (.v6 .own, 50103) := by
    change Listen.endpoint m ((call none).listenOptions {} none) (fun _ => 2) = _
    decide +kernel
  have hown : (IpAddress.v6 .own).render = "::1" := by decide +kernel
  have hvisible : told.location.host.BeginsVisibly := ⟨'f', rfl, rfl⟩
  have hline : '\n' ∉ told.location.host := by decide
  have hheard (advertise : Option Text) (s : Session) (hs : bound advertise = .ok s)
      (hvisible : s.location.host.BeginsVisibly) (hline : '\n' ∉ s.location.host) :
      heard s = .ok s.location := by
    obtain ⟨ip, hip, -, -, -, hread⟩ :=
      (call advertise).bind_announced {} none m (fun _ => 2) s hs
    have haddress : ip = .v6 .own := congrArg Prod.fst (Except.ok.inj (hip.symm.trans (hend _)))
    have hrest := (hread hvisible).2.2 hline "psc-regsrv" []
    rwa [List.append_nil, haddress, hown] at hrest
  exact ⟨htold, hvisible, hline, hheard _ told htold hvisible hline, hfound,
    hheard _ found hfound ⟨':', rfl, rfl⟩ (by decide)⟩

/-- The host that a server was told to show is refused by nobody, but with white space in front it
is announced as another one, without any character it is not announced at all, and with a line feed
the announcement ends early and tells another port as well. -/
theorem ServerCall.bind_announced_ne :
    let call (host : Text) : ServerCall :=
      { port := none, host := none, advertise := some host, file := none, record := false }
    let m : Machine := ⟨fun _ => false, 0, some "node"⟩
    let session (host : Text) : Session := ⟨host, 50001, 1048576⟩
    let heard (host : Text) : Except RegistryError Location := Launch.locationOf "psc-regsrv"
      (.running (Listening.mk "0.0.0.0" (session host)).announcement)
    Settings.load {} ⟨["absent.toml"]⟩ = .ok {} ∧
      (∀ host, Listen.bind m ((call host).listenOptions {} none) (fun _ => 0) =
        .ok (session host) ∧ (session host).location = ⟨host, 50001⟩) ∧
      heard " 127.0.0.1" = .ok ⟨"127.0.0.1", 50001⟩ ∧
      heard "" = .error (.server (.silent "psc-regsrv" .killed)) ∧
      heard "127.0.0.1:1\nx" = .ok ⟨"127.0.0.1", 1⟩ := by
  intro call m session heard
  have hend (host : Text) : Listen.endpoint m ((call host).listenOptions {} none) (fun _ => 0) =
      .ok (.v4 .every, 50001) := by
    change Listen.endpoint m ((call []).listenOptions {} none) (fun _ => 0) = _
    decide +kernel
  have hbind (host : Text) : Listen.bind m ((call host).listenOptions {} none) (fun _ => 0) =
      .ok (session host) := by
    rw [Listen.bind, hend]
    rfl
  exact ⟨rfl, fun host => ⟨hbind host, rfl⟩, by decide +kernel, by decide +kernel,
    by decide +kernel⟩

end CommandLine

end ToolRegistry
