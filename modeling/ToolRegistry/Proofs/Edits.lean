import ToolRegistry.Proofs.Decimals
import ToolRegistry.Settings.Setting

/-!
# One setting or nothing

A setting is changed by its path and a text. What can go wrong is that a path is
tied to one setting where the text is read, to another where it is written and to
a third where it is shown. So each setting is taken here as a value of its own
type (`Setting.Value`) that is read from a text, put into the settings, taken out
again and shown. These four agree if they obey two laws, that the value put in is
the one taken out and that no other value is touched (`value_update`,
`value_update_of_ne`). There is nothing else in the settings
(`eq_of_value_eq`), so nothing else can have been changed.

Whether a text is read depends on its setting alone. The eleven settings are of
four kinds: texts, numbers of some width, the two that may be unset, and the
level. A text is refused or read (`Setting.parse?_cases`), and only then are the
settings looked at.
-/

namespace ToolRegistry

open Decimal

/-! ## The values of settings -/

namespace Setting

/-- What a setting holds. -/
def Value : Setting → Type
  | registryHost | serverHost | logLevel => Text
  | initHost => Option Text
  | registryPort | maxPortStep => UInt16
  | initPort => Option UInt16
  | bindRetries | connectAttempts => UInt32
  | maxLineLength | connectDelay => UInt64

/-- The value that a text stands for. -/
def parse? : (k : Setting) → Text → Option k.Value
  | registryHost, t | serverHost, t => some t
  | logLevel, t => if logLevels.contains t then some t else none
  | initHost, t => some (Settings.unlessEmpty t)
  | registryPort, t | maxPortStep, t => uint16? t
  | initPort, t => if t = [] then some none else (uint16? t).map some
  | bindRetries, t | connectAttempts, t => uint32? t
  | maxLineLength, t | connectDelay, t => uint64? t

/-- The written form of a value. -/
def shown : (k : Setting) → k.Value → Option Text
  | registryHost, (t : Text) | serverHost, (t : Text) | logLevel, (t : Text) => some t
  | initHost, t => t
  | registryPort, (n : UInt16) | maxPortStep, (n : UInt16) => some (Decimal.ofNat n.toNat)
  | initPort, (n : Option UInt16) => n.map fun n => Decimal.ofNat n.toNat
  | bindRetries, (n : UInt32) | connectAttempts, (n : UInt32) => some (Decimal.ofNat n.toNat)
  | maxLineLength, (n : UInt64) | connectDelay, (n : UInt64) => some (Decimal.ofNat n.toNat)

end Setting

namespace Settings

/-- The value of a setting. -/
def value (s : Settings) : (k : Setting) → k.Value
  | .registryHost => s.registry.host
  | .registryPort => s.registry.port
  | .initHost => s.registry.initHost
  | .initPort => s.registry.initPort
  | .serverHost => s.server.host
  | .bindRetries => s.server.bindRetries
  | .maxPortStep => s.server.maxPortStep
  | .maxLineLength => s.server.maxLineLength
  | .connectAttempts => s.client.connectAttempts
  | .connectDelay => s.client.connectDelay
  | .logLevel => s.logging.level

/-- The settings with another value of one of them. -/
def update (s : Settings) : (k : Setting) → k.Value → Settings
  | .registryHost, v => s.withRegistry { s.registry with host := v }
  | .registryPort, v => s.withRegistry { s.registry with port := v }
  | .initHost, v => s.withRegistry { s.registry with initHost := v }
  | .initPort, v => s.withRegistry { s.registry with initPort := v }
  | .serverHost, v => s.withServer { s.server with host := v }
  | .bindRetries, v => s.withServer { s.server with bindRetries := v }
  | .maxPortStep, v => s.withServer { s.server with maxPortStep := v }
  | .maxLineLength, v => s.withServer { s.server with maxLineLength := v }
  | .connectAttempts, v => s.withClient { s.client with connectAttempts := v }
  | .connectDelay, v => s.withClient { s.client with connectDelay := v }
  | .logLevel, v => { s with logging := ⟨v⟩ }

variable (s : Settings) {k other : Setting} (v w : k.Value)

theorem value_update : (s.update k v).value k = v := by
  cases k <;> rfl

theorem value_update_of_ne (h : other ≠ k) : (s.update k v).value other = s.value other := by
  cases k <;> cases other <;> first | rfl | exact absurd rfl h

theorem update_update : (s.update k v).update k w = s.update k w := by
  cases k <;> rfl

/-- There is nothing else in the settings than the values of the eleven. -/
theorem eq_of_value_eq {s s' : Settings} (h : ∀ k, s.value k = s'.value k) : s = s' := by
  obtain ⟨⟨_, _, _, _⟩, ⟨_, _, _, _⟩, ⟨_, _⟩, ⟨_⟩⟩ := s
  obtain ⟨⟨_, _, _, _⟩, ⟨_, _, _, _⟩, ⟨_, _⟩, ⟨_⟩⟩ := s'
  cases h .registryHost
  cases h .registryPort
  cases h .initHost
  cases h .initPort
  cases h .serverHost
  cases h .bindRetries
  cases h .maxPortStep
  cases h .maxLineLength
  cases h .connectAttempts
  cases h .connectDelay
  cases h .logLevel
  rfl

theorem read_eq (k : Setting) : s.read k = k.shown (s.value k) := by
  cases k <;> rfl

theorem write?_eq (k : Setting) (t : Text) : s.write? k t = (k.parse? t).map (s.update k) := by
  cases k with
  | registryHost | serverHost | initHost => rfl
  | registryPort | maxPortStep | bindRetries | connectAttempts | maxLineLength | connectDelay => rfl
  | initPort =>
      rw [write?, Setting.parse?]
      split
      · rfl
      · cases uint16? t <;> rfl
  | logLevel =>
      rw [write?, Setting.parse?]
      split <;> rfl

end Settings

/-! ## Paths -/

namespace Setting

theorem ofPath?_path (k : Setting) : ofPath? k.path = some k := by
  cases k <;> decide

theorem ofPath?_eq_some_iff {path : Text} {k : Setting} :
    ofPath? path = some k ↔ k.path = path := by
  constructor
  · intro h
    have hfound := List.find?_some h
    exact of_decide_eq_true hfound
  · rintro rfl
    exact k.ofPath?_path

theorem path_injective {j k : Setting} (h : j.path = k.path) : j = k :=
  Option.some.inj (by rw [← j.ofPath?_path, ← k.ofPath?_path, h])

theorem ofPath?_eq_none_iff {path : Text} : ofPath? path = none ↔ ∀ k : Setting, k.path ≠ path := by
  rw [Option.eq_none_iff_forall_ne_some]
  exact forall_congr' fun k => not_congr ofPath?_eq_some_iff

/-- The section of a setting and its name in it. -/
def parts : Setting → List Text
  | registryHost => ["registry", "host"]
  | registryPort => ["registry", "port"]
  | initHost => ["registry", "init_host"]
  | initPort => ["registry", "init_port"]
  | serverHost => ["server", "host"]
  | bindRetries => ["server", "bind_retries"]
  | maxPortStep => ["server", "max_port_step"]
  | maxLineLength => ["server", "max_line_len"]
  | connectAttempts => ["client", "connect_attempts"]
  | connectDelay => ["client", "connect_delay_ms"]
  | logLevel => ["logging", "level"]

/-- The setting with these parts. -/
def ofParts? (ts : List Text) : Option Setting := all.find? (·.parts = ts)

theorem parts_eq_split_iff (k : Setting) (path : Text) :
    k.parts = path.split '.' ↔ k.path = path := by
  have hjoin : k.path = Text.join "." k.parts := by cases k <;> rfl
  have hsplit : Text.split '.' (Text.join "." k.parts) = k.parts := by
    cases k <;> exact Text.split_join (by decide) (by decide)
  constructor
  · intro h
    rw [hjoin, h]
    exact Text.join_split '.' path
  · rintro rfl
    rw [hjoin, hsplit]

/-- A path may as well be taken apart at its dots. -/
theorem ofParts?_split (path : Text) : ofParts? (path.split '.') = ofPath? path := by
  rw [ofParts?, ofPath?]
  congr 1
  funext k
  exact decide_eq_decide.mpr (k.parts_eq_split_iff path)

/-! ## Texts -/

/-- The width of a setting that is a number. -/
def bits? : Setting → Option Nat
  | registryPort | initPort | maxPortStep => some 16
  | bindRetries | connectAttempts => some 32
  | maxLineLength | connectDelay => some 64
  | registryHost | initHost | serverHost | logLevel => none

/-- Texts that unset a setting. -/
def IsUnset (k : Setting) (t : Text) : Prop := t = [] ∧ (k = initHost ∨ k = initPort)

/-- A text that is no value of a setting: the setting is a number and the text is none of its width,
unless it unsets the setting, or the setting is the level and the text is none. -/
def Refuses (k : Setting) (t : Text) : Prop :=
  match k.bits? with
  | some bits => ¬k.IsUnset t ∧ ∀ n, IsNatural t n → 2 ^ bits ≤ n
  | none => k = logLevel ∧ t ∉ logLevels

/-- How a setting is shown that has been read from a text: a number without its sign and its
leading zeros, and any other text as it is. -/
def Shows (k : Setting) (t : Text) (shown : Option Text) : Prop :=
  k.IsUnset t ∧ shown = none ∨
    ¬k.IsUnset t ∧
      match k.bits? with
      | some bits => ∃ n, IsNatural t n ∧ n < 2 ^ bits ∧ shown = some (Decimal.ofNat n)
      | none => shown = some t

/-- What is read of a number is the number, whatever it is held in. -/
theorem map_shown_number {k : Setting} {bits : Nat} (hbits : k.bits? = some bits) {t : Text}
    (ht : ¬k.IsUnset t) :
    (k.parse? t).map k.shown = (below? bits t).map fun n => some (Decimal.ofNat n) := by
  cases k with
  | registryHost | serverHost | initHost | logLevel => cases hbits
  | registryPort | maxPortStep =>
      cases hbits
      rw [← map_uint16?, Option.map_map]
      rfl
  | bindRetries | connectAttempts =>
      cases hbits
      rw [← map_uint32?, Option.map_map]
      rfl
  | maxLineLength | connectDelay =>
      cases hbits
      rw [← map_uint64?, Option.map_map]
      rfl
  | initPort =>
      cases hbits
      rw [parse?, if_neg fun hnil => ht ⟨hnil, .inr rfl⟩, ← map_uint16?, Option.map_map]
      cases uint16? t <;> rfl

/-- A text is refused or it is read. -/
theorem parse?_cases (k : Setting) (t : Text) :
    k.Refuses t ∧ k.parse? t = none ∨
      ¬k.Refuses t ∧ ∃ v, k.parse? t = some v ∧ k.Shows t (k.shown v) := by
  by_cases hunset : k.IsUnset t
  · right
    obtain ⟨rfl, rfl | rfl⟩ := hunset
    · exact ⟨fun h => (by cases h.1), none, rfl, .inl ⟨⟨rfl, .inl rfl⟩, rfl⟩⟩
    · exact ⟨fun h => h.1 ⟨rfl, .inr rfl⟩, none, rfl, .inl ⟨⟨rfl, .inr rfl⟩, rfl⟩⟩
  · cases hbits : k.bits? with
    | some bits =>
        have hshown := map_shown_number hbits hunset
        simp only [Refuses, Shows, hbits]
        cases hn : below? bits t with
        | none =>
            rw [hn] at hshown
            exact .inl ⟨⟨hunset, below?_eq_none_iff.mp hn⟩, Option.map_eq_none_iff.mp hshown⟩
        | some n =>
            rw [hn] at hshown
            obtain ⟨hnat, hlt⟩ := below?_eq_some_iff.mp hn
            obtain ⟨v, hv, hshown⟩ := Option.map_eq_some_iff.mp hshown
            refine .inr ⟨fun h => ?_, v, hv, .inr ⟨hunset, n, hnat, hlt, hshown⟩⟩
            exact Nat.not_lt.mpr (h.2 n hnat) hlt
    | none =>
        simp only [Refuses, Shows, hbits]
        cases k with
        | registryPort | initPort | maxPortStep => cases hbits
        | bindRetries | connectAttempts => cases hbits
        | maxLineLength | connectDelay => cases hbits
        | registryHost | serverHost =>
            exact .inr ⟨fun h => (by cases h.1), t, rfl, .inr ⟨hunset, rfl⟩⟩
        | initHost =>
            have ht : t ≠ [] := fun hnil => hunset ⟨hnil, .inl rfl⟩
            refine .inr ⟨fun h => (by cases h.1), some t, ?_, .inr ⟨hunset, rfl⟩⟩
            rw [parse?, Settings.unlessEmpty, if_neg ht]
        | logLevel =>
            by_cases ht : t ∈ logLevels
            · have hlevel := List.contains_iff_mem.mpr ht
              exact .inr ⟨fun h => h.2 ht, t, if_pos hlevel, .inr ⟨hunset, rfl⟩⟩
            · exact .inl ⟨⟨rfl, ht⟩, if_neg (mt List.contains_iff_mem.mp ht)⟩

end Setting

/-! ## Edits -/

namespace Settings

/-- Looks for the setting, reads the text and writes to the settings that there are, which a failure
does not give back. -/
def edit (path value : Text) : ExceptT RegistryError (StateM Settings) Unit := do
  match Setting.ofParts? (path.split '.') with
  | none => throw (.config (.unknownKey path))
  | some k =>
      match k.parse? value with
      | none => throw (.config (fault k value))
      | some v => modify (·.update k v)

theorem set_path (s : Settings) (k : Setting) (value : Text) : s.set k.path value =
    match k.parse? value with
    | some v => .ok (s.update k v)
    | none => .error (.config (fault k value)) := by
  rw [set, k.ofPath?_path]
  simp only [write?_eq]
  cases k.parse? value <;> rfl

theorem set_unknown (s : Settings) {path : Text} (h : ∀ k : Setting, k.path ≠ path) (value : Text) :
    s.set path value = .error (.config (.unknownKey path)) := by
  rw [set, Setting.ofPath?_eq_none_iff.mpr h]

/-- Working in place comes to the same, and a failure leaves the settings from before. -/
theorem edit_run (path value : Text) (s : Settings) : (edit path value).run.run s =
    match s.set path value with
    | .ok s' => (.ok (), s')
    | .error e => (.error e, s) := by
  rw [edit, Setting.ofParts?_split]
  cases h : Setting.ofPath? path with
  | none =>
      rw [s.set_unknown (Setting.ofPath?_eq_none_iff.mp h)]
      rfl
  | some k =>
      rw [← Setting.ofPath?_eq_some_iff.mp h, set_path]
      simp only
      cases k.parse? value <;> rfl

theorem get_path (s : Settings) (k : Setting) : s.get k.path = k.shown (s.value k) := by
  rw [get, k.ofPath?_path, Option.bind_some, read_eq]

/-- No other path shows what has been written. -/
theorem get_update_of_ne (s : Settings) {k : Setting} (v : k.Value) {other : Text}
    (h : other ≠ k.path) : (s.update k v).get other = s.get other := by
  rw [get, get]
  cases hother : Setting.ofPath? other with
  | none => rfl
  | some j =>
      have hne : j ≠ k := by
        rintro rfl
        exact h (Setting.ofPath?_eq_some_iff.mp hother).symm
      rw [Option.bind_some, Option.bind_some, read_eq, read_eq, value_update_of_ne s v hne]

/-- There is no setting under a path, or there is one and it refuses the text or takes it. -/
theorem set_cases (s : Settings) (path value : Text) :
    (∀ k : Setting, k.path ≠ path) ∧ s.set path value = .error (.config (.unknownKey path)) ∨
      ∃ k : Setting, k.path = path ∧
        (k.Refuses value ∧ s.set path value = .error (.config (fault k value)) ∨
          ¬k.Refuses value ∧ ∃ v, k.parse? value = some v ∧ k.Shows value (k.shown v) ∧
            s.set path value = .ok (s.update k v)) := by
  by_cases hpath : ∃ k : Setting, k.path = path
  · obtain ⟨k, rfl⟩ := hpath
    refine .inr ⟨k, rfl, ?_⟩
    rw [set_path]
    rcases k.parse?_cases value with ⟨hrefuses, hparse⟩ | ⟨hreads, v, hparse, hshows⟩
    · exact .inl ⟨hrefuses, by rw [hparse]⟩
    · exact .inr ⟨hreads, v, hparse, hshows, by rw [hparse]⟩
  · have hnone : ∀ k : Setting, k.path ≠ path := fun k hk => hpath ⟨k, hk⟩
    exact .inl ⟨hnone, s.set_unknown hnone value⟩

/-- When a text is refused and what is then told. -/
theorem set_eq_error_iff (s : Settings) {path value : Text} {e : RegistryError} :
    s.set path value = .error e ↔
      (∀ k : Setting, k.path ≠ path) ∧ e = .config (.unknownKey path) ∨
        ∃ k : Setting, k.path = path ∧ k.Refuses value ∧ e = .config (fault k value) := by
  rcases s.set_cases path value with ⟨hnone, hset⟩ | ⟨k, rfl, hset⟩
  · rw [hset]
    constructor
    · intro he
      cases he
      exact .inl ⟨hnone, rfl⟩
    · rintro (⟨-, rfl⟩ | ⟨k, hk, -⟩)
      · rfl
      · exact absurd hk (hnone k)
  · -- Under a path there is one setting only, so the refusal can be no other one's.
    have honly : ∀ j : Setting, j.path = k.path → j = k := fun j hj => Setting.path_injective hj
    rcases hset with ⟨hrefuses, hset⟩ | ⟨hreads, v, -, -, hset⟩
    · rw [hset]
      constructor
      · intro he
        cases he
        exact .inr ⟨k, rfl, hrefuses, rfl⟩
      · rintro (⟨hnone, -⟩ | ⟨j, hj, -, rfl⟩)
        · exact absurd rfl (hnone k)
        · rw [honly j hj]
    · rw [hset]
      refine ⟨fun he => (by cases he), ?_⟩
      rintro (⟨hnone, -⟩ | ⟨j, hj, hrefuses, -⟩)
      · exact absurd rfl (hnone k)
      · rw [honly j hj] at hrefuses
        exact absurd hrefuses hreads

theorem set_eq_ok {s s' : Settings} {path value : Text} (h : s.set path value = .ok s') :
    ∃ (k : Setting) (v : k.Value), k.path = path ∧ k.parse? value = some v ∧
      k.Shows value (k.shown v) ∧ s' = s.update k v := by
  rcases s.set_cases path value with ⟨-, hset⟩ | ⟨k, hk, ⟨-, hset⟩ | ⟨-, v, hparse, hshows, hset⟩⟩
  · cases hset.symm.trans h
  · cases hset.symm.trans h
  · cases hset.symm.trans h
    exact ⟨k, v, hk, hparse, hshows, rfl⟩

/-- A text is written to a setting or refused. It is refused if there is no setting under the path
or if the setting does not read it, and then the settings are as they were. Otherwise the setting
shows the text in its canonical form, all other settings are as they were, no other path shows
anything else, and writing the text again changes nothing. -/
theorem set_edits (s : Settings) (path value : Text) :
    (∀ e, s.set path value = .error e ↔
      (∀ k : Setting, k.path ≠ path) ∧ e = .config (.unknownKey path) ∨
        ∃ k : Setting, k.path = path ∧ k.Refuses value ∧ e = .config (fault k value)) ∧
    (∀ e, s.set path value = .error e → (edit path value).run.run s = (.error e, s)) ∧
    ∀ s', s.set path value = .ok s' →
      (edit path value).run.run s = (.ok (), s') ∧
      ∃ k : Setting, k.path = path ∧ k.Shows value (s'.get path) ∧
        (∀ other, other ≠ path → s'.get other = s.get other) ∧
        s' = s.update k (s'.value k) ∧ (∀ other, other ≠ k → s'.value other = s.value other) ∧
        s'.set path value = .ok s' := by
  refine ⟨fun e => s.set_eq_error_iff, fun e he => ?_, fun s' hs => ⟨?_, ?_⟩⟩
  · rw [edit_run, he]
  · rw [edit_run, hs]
  · obtain ⟨k, v, rfl, hparse, hshows, rfl⟩ := set_eq_ok hs
    refine ⟨k, rfl, ?_, fun other hne => get_update_of_ne s v hne, ?_,
      fun other hne => value_update_of_ne s v hne, ?_⟩
    · rwa [get_path, value_update]
    · rw [value_update]
    · simp only [set_path, hparse, update_update]

/-- Leading zeros and a sign are not shown, a number of one bit too many is refused, and the empty
text unsets a port that may be unset and is refused by one that may not. -/
theorem set_edits_ports :
    let s : Settings := {}
    let ported : Settings := { s with registry := { s.registry with initPort := some 65535 } }
    s.set "registry.init_port" "+065535" = .ok ported ∧
      ported.get "registry.init_port" = some "65535" ∧
      (∀ other, other ≠ "registry.init_port".toList → ported.get other = s.get other) ∧
      ported.set "registry.init_port" "" = .ok s ∧ s.get "registry.init_port" = none ∧
      s.set "registry.port" "" = .error (.config (.invalidValue "registry.port" "")) ∧
      (edit "registry.port" "65536").run.run s =
        (.error (.config (.invalidValue "registry.port" "65536")), s) ∧
      (edit "logging.level" "INFO").run.run s = (.error (.config (.invalidLevel "INFO")), s) ∧
      (edit "registry.host." "a").run.run s =
        (.error (.config (.unknownKey "registry.host.")), s) := by
  intro s ported
  have hset : s.set "registry.init_port" "+065535" = .ok ported := rfl
  obtain ⟨-, -, hok⟩ := set_edits s "registry.init_port" "+065535"
  obtain ⟨-, k, -, -, hothers, -⟩ := hok ported hset
  refine ⟨hset, rfl, hothers, rfl, rfl, rfl, ?_, ?_, ?_⟩
  · exact (set_edits s _ _).2.1 _ (rfl)
  · exact (set_edits s _ _).2.1 _ (rfl)
  · exact (set_edits s _ _).2.1 _ (rfl)

end Settings

end ToolRegistry
