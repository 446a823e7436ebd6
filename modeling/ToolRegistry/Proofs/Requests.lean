import ToolRegistry.Proofs.FieldPairs
import ToolRegistry.Proofs.Framing

/-!
# A request that is sent is the request that is read

A client writes a command as one line, and a server reads that line. This
module puts the pieces together: the name of the command is the first word, an
id or a position is the next one, a text is taken out of its quotes again, and
a field set is read back pair by pair. None of these steps looks further than
its own argument, because a blank or the end of the line follows it.

What can be written is told by `HasArguments`: ids and positions count from 1,
the texts are of some given kind, and a text to attach is not empty. To be
read as a command, a line only needs texts without quotes. To get there at
all, it must be one line, which is what `IsEncodable` asks for in addition.
-/

namespace ToolRegistry.Wire

open Text

/-! ## What can be written -/

/-- The arguments of a command are such as can be written: ids and positions count from 1, every
text has a property, and no empty text is attached. -/
def Command.HasArguments (P : Text → Prop) : Command → Prop
  | .quit | .help | .list | .clean => True
  | .create s | .search s => s.AllTexts P
  | .change id s => id ≠ 0 ∧ s.AllTexts P
  | .delete id | .fetch id | .listStrings id | .countStrings id => id ≠ 0
  | .addString id t => id ≠ 0 ∧ t ≠ [] ∧ P t
  | .getString id pos | .deleteString id pos => id ≠ 0 ∧ pos ≠ 0

instance (P : Text → Prop) [DecidablePred P] (c : Command) : Decidable (c.HasArguments P) := by
  cases c <;> unfold Command.HasArguments <;> infer_instance

theorem Command.HasArguments.mono {P Q : Text → Prop} {c : Command} (h : c.HasArguments P)
    (hPQ : ∀ t, P t → Q t) : c.HasArguments Q := by
  cases c with
  | quit | help | list | clean => trivial
  | create s | search s => exact FieldSet.AllTexts.mono h hPQ
  | change id s => exact ⟨h.1, h.2.mono hPQ⟩
  | delete id | fetch id | listStrings id | countStrings id => exact h
  | addString id t => exact ⟨h.1, h.2.1, hPQ t h.2.2⟩
  | getString id pos | deleteString id pos => exact h

/-- The texts in the arguments of a command have a property, and no empty text is attached. This
is all that a client looks at before it sends a request. -/
def Command.AllTexts (P : Text → Prop) : Command → Prop
  | .create s | .search s | .change _ s => s.AllTexts P
  | .addString _ t => t ≠ [] ∧ P t
  | _ => True

theorem Command.AllTexts.mono {P Q : Text → Prop} {c : Command} (h : c.AllTexts P)
    (hPQ : ∀ t, P t → Q t) : c.AllTexts Q := by
  cases c with
  | create s | search s | change id s => exact FieldSet.AllTexts.mono h hPQ
  | addString id t => exact ⟨h.1, hPQ t h.2⟩
  | _ => trivial

theorem Command.HasArguments.allTexts {P : Text → Prop} {c : Command} (h : c.HasArguments P) :
    c.AllTexts P := by
  cases c with
  | create s | search s => exact h
  | change id s => exact h.2
  | addString id t => exact h.2
  | _ => trivial

theorem Command.HasArguments.of_allTexts {P Q : Text → Prop} {c : Command} (h : c.HasArguments P)
    (hQ : c.AllTexts Q) : c.HasArguments Q := by
  cases c with
  | create s | search s => exact hQ
  | change id s | addString id t => exact ⟨h.1, hQ⟩
  | _ => exact h

/-! ## The words of a line -/

theorem isBlank_of_mem_name {kind : CommandKind} {c : Char} (h : c ∈ kind.name) :
    isBlank c = false := by
  have hall : kind.name.all (!isBlank ·) = true := by cases kind <;> decide
  simpa using List.all_eq_true.mp hall c h

theorem name_ne_nil (kind : CommandKind) : kind.name ≠ [] := by cases kind <;> decide

/-- The arguments of a line, with a space in front of each; empty ones leave no trace. -/
def argumentText (args : List Text) : Text := (args.filter (· ≠ [])).flatMap (' ' :: ·)

theorem argumentText_cons {a : Text} (ha : a ≠ []) (args : List Text) :
    argumentText (a :: args) = ' ' :: (a ++ argumentText args) := by
  rw [argumentText, List.filter_cons_of_pos (by simp [ha]), List.flatMap_cons]
  rfl

theorem argumentText_single (a : Text) : argumentText [a] = if a = [] then [] else ' ' :: a := by
  split
  · next h => rw [h]; rfl
  · next h => rw [argumentText_cons h]; exact congrArg _ (List.append_nil a)

theorem endsWord_argumentText (args : List Text) : EndsWord (argumentText args) := by
  rw [argumentText]
  cases args.filter (· ≠ []) with
  | nil => exact endsWord_nil
  | cons a args => exact endsWord_space _

theorem join_space (t : Text) (ts : List Text) :
    join [' '] (t :: ts) = t ++ ts.flatMap (' ' :: ·) := by
  induction ts generalizing t with
  | nil => rw [join_cons, if_pos rfl]; rfl
  | cons u ts ih => rw [join_cons, if_neg (List.cons_ne_nil _ _), ih]; rfl

/-- A line is the name of its command and then its arguments. -/
theorem encode_eq (c : Command) : c.encode = c.kind.name ++ argumentText c.arguments := by
  rw [Command.encode, join_space, argumentText]

theorem splitToken_encode (c : Command) :
    splitToken c.encode = (c.kind.name, argumentText c.arguments) := by
  rw [encode_eq, splitToken_word (name_ne_nil _) (fun _ => isBlank_of_mem_name)
    (endsWord_argumentText _)]

theorem parse_encode_eq (c : Command) :
    Command.parse c.encode = Command.parseArguments c.kind (argumentText c.arguments) := by
  simp only [Command.parse, splitToken_encode, CommandKind.ofToken?_name]

/-! ## Arguments -/

theorem takeId_argumentText {kind : CommandKind} {id : EntryId} (h : id ≠ 0)
    (args : List Text) :
    takeId kind (argumentText (Decimal.ofNat id.toNat :: args)) =
      .ok (id, argumentText args) := by
  have hpos : 0 < id.toNat := Nat.pos_of_ne_zero fun h0 => h (UInt32.toNat_inj.mp h0)
  rw [argumentText_cons (Decimal.ofNat_ne_nil _), takeId, splitToken_space,
    splitToken_ofNat _ (endsWord_argumentText _)]
  simp only [Decimal.positive?_ofNat hpos id.toNat_lt, UInt32.ofNat_toNat]

theorem takePos_argumentText {kind : CommandKind} {pos : UInt64} (h : pos ≠ 0)
    (args : List Text) :
    takePos kind (argumentText (Decimal.ofNat pos.toNat :: args)) = .ok pos := by
  have hpos : 0 < pos.toNat := Nat.pos_of_ne_zero fun h0 => h (UInt64.toNat_inj.mp h0)
  rw [argumentText_cons (Decimal.ofNat_ne_nil _), takePos, splitToken_space,
    splitToken_ofNat _ (endsWord_argumentText _)]
  simp only [Decimal.positive?_ofNat hpos pos.toNat_lt, UInt64.ofNat_toNat]

theorem takeId_zero (kind : CommandKind) (args : List Text) :
    ∃ e, takeId kind (argumentText (Decimal.ofNat (0 : EntryId).toNat :: args)) = .error e := by
  rw [argumentText_cons (Decimal.ofNat_ne_nil _), takeId, splitToken_space,
    splitToken_ofNat _ (endsWord_argumentText _)]
  simp only [UInt32.toNat_zero, Decimal.positive?_zero]
  exact ⟨_, rfl⟩

theorem takePos_zero (kind : CommandKind) (args : List Text) :
    ∃ e, takePos kind (argumentText (Decimal.ofNat (0 : UInt64).toNat :: args)) = .error e := by
  rw [argumentText_cons (Decimal.ofNat_ne_nil _), takePos, splitToken_space,
    splitToken_ofNat _ (endsWord_argumentText _)]
  simp only [UInt64.toNat_zero, Decimal.positive?_zero]
  exact ⟨_, rfl⟩

theorem takeFields_argumentText {kind : CommandKind} {s : FieldSet}
    (hs : s.AllTexts ('"' ∉ ·)) :
    takeFields kind (argumentText [encodeFieldSet s]) = .ok s := by
  have hread : parseFieldSet (argumentText [encodeFieldSet s]) = .ok s := by
    rw [argumentText_single, ← parseFieldSet_encodeFieldSet hs]
    split
    · next hnil => rw [hnil]
    · rw [parseFieldSet, parsePairs_space]
      rfl
  rw [takeFields, hread]

theorem takeText_argumentText {kind : CommandKind} {t : Text} (hne : t ≠ []) (hq : '"' ∉ t) :
    takeText kind (argumentText [quote t]) = .ok t := by
  have hquote : trimBlanks (' ' :: quote t) = '"' :: (t ++ ['"']) := rfl
  have hread : parseTextArgument (' ' :: quote t) = .ok t := by
    rw [parseTextArgument, hquote]
    simp only [takeQuoted_append hq, nonEmpty, if_neg hne]
  rw [argumentText_single, if_neg (show quote t ≠ [] from List.cons_ne_nil _ _), takeText, hread]

/-! ## Reading back -/

/-- A command is read back from its line. -/
theorem parse_encode {c : Command} (h : c.HasArguments ('"' ∉ ·)) :
    Command.parse c.encode = .ok c := by
  rw [parse_encode_eq]
  cases c with
  | quit | help | list | clean => rfl
  | create s | search s =>
      simp only [Command.kind, Command.arguments, Command.parseArguments]
      rw [takeFields_argumentText h]
      rfl
  | change id s =>
      simp only [Command.kind, Command.arguments, Command.parseArguments]
      rw [takeId_argumentText h.1]
      simp only [bind, Except.bind]
      rw [takeFields_argumentText h.2]
      rfl
  | delete id | fetch id | listStrings id | countStrings id =>
      simp only [Command.kind, Command.arguments, Command.parseArguments]
      rw [takeId_argumentText h]
      rfl
  | addString id t =>
      simp only [Command.kind, Command.arguments, Command.parseArguments]
      rw [takeId_argumentText h.1]
      simp only [bind, Except.bind]
      rw [takeText_argumentText h.2.1 h.2.2]
      rfl
  | getString id pos | deleteString id pos =>
      simp only [Command.kind, Command.arguments, Command.parseArguments]
      rw [takeId_argumentText h.1]
      simp only [bind, Except.bind]
      rw [takePos_argumentText h.2]
      rfl

theorem parse_encode_zeroId {P : Text → Prop} {c : Command} (ht : c.AllTexts P)
    (hzero : ¬c.HasArguments P) {args : List Text}
    (h : c.arguments = Decimal.ofNat (0 : EntryId).toNat :: args) :
    ∃ e, Command.parse c.encode = .error e := by
  obtain ⟨e, he⟩ := takeId_zero c.kind args
  refine ⟨e, ?_⟩
  rw [parse_encode_eq, h]
  cases c with
  | quit | help | list | clean => exact absurd trivial hzero
  | create s | search s => exact absurd ht hzero
  | _ =>
      simp only [Command.kind] at he ⊢
      simp only [Command.parseArguments, he]
      rfl

theorem parse_encode_zeroPos {c : Command} {id : EntryId} (hid : id ≠ 0)
    (h : c = .getString id 0 ∨ c = .deleteString id 0) :
    ∃ e, Command.parse c.encode = .error e := by
  obtain ⟨e, he⟩ := takePos_zero c.kind []
  refine ⟨e, ?_⟩
  rw [parse_encode_eq]
  rcases h with rfl | rfl <;>
    simp only [Command.kind, Command.arguments, Command.parseArguments,
      takeId_argumentText hid, bind, Except.bind] at he ⊢ <;>
    rw [he]

/-- A command with an id or a position of zero can be sent, but it is not read as a command. -/
theorem parse_encode_error {c : Command} (h : c.AllTexts ('"' ∉ ·))
    (hzero : ¬c.HasArguments ('"' ∉ ·)) : ∃ e, Command.parse c.encode = .error e := by
  cases c with
  | quit | help | list | clean => exact absurd trivial hzero
  | create s | search s => exact absurd h hzero
  | change id s | addString id t =>
      by_cases hid : id = 0
      · exact parse_encode_zeroId h hzero (by rw [hid]; rfl)
      · exact absurd ⟨hid, h⟩ hzero
  | delete id | fetch id | listStrings id | countStrings id =>
      exact parse_encode_zeroId h hzero (by rw [Decidable.not_not.mp hzero]; rfl)
  | getString id pos | deleteString id pos =>
      by_cases hid : id = 0
      · exact parse_encode_zeroId h hzero (by rw [hid]; rfl)
      · by_cases hpos : pos = 0
        · exact parse_encode_zeroPos hid (by simp [hpos])
        · exact absurd ⟨hid, hpos⟩ hzero

/-! ## Requests are lines -/

theorem isOneLine_spaced {ts : List Text} (h : ∀ t ∈ ts, t.IsOneLine) :
    Text.IsOneLine (ts.flatMap (' ' :: ·)) := by
  have hmem : ∀ c ∈ ts.flatMap (' ' :: ·), c = ' ' ∨ ∃ t ∈ ts, c ∈ t := by
    intro c hc
    obtain ⟨t, ht, hct⟩ := List.mem_flatMap.mp hc
    rcases List.mem_cons.mp hct with hc | hc
    · exact .inl hc
    · exact .inr ⟨t, ht, hc⟩
  constructor <;> intro hc <;> rcases hmem _ hc with he | ⟨t, ht, hct⟩
  · cases he
  · exact (h t ht).1 hct
  · cases he
  · exact (h t ht).2 hct

theorem isOneLine_join {ts : List Text} (h : ∀ t ∈ ts, t.IsOneLine) :
    (join [' '] ts).IsOneLine := by
  cases ts with
  | nil => decide
  | cons t ts =>
      rw [join_space, isOneLine_append]
      exact ⟨h t List.mem_cons_self,
        isOneLine_spaced fun u hu => h u (List.mem_cons_of_mem _ hu)⟩

theorem isPlain_ofInt (i : Int) : Text.IsPlain (Decimal.ofInt i) := by
  intro c hc
  rcases Decimal.mem_ofInt hc with rfl | hd
  · decide
  · have := Decimal.toNat_of_isDigit hd
    omega

theorem isPlain_ofNat (n : Nat) : Text.IsPlain (Decimal.ofNat n) := isPlain_ofInt n

theorem isPlain_fieldName (f : Field) : f.name.IsPlain := by cases f <;> decide

theorem isOneLine_quote {t : Text} (h : t.IsOneLine) : (quote t).IsOneLine := by
  rw [quote, ← List.singleton_append, isOneLine_append, isOneLine_append]
  exact ⟨⟨by decide, h⟩, by decide⟩

theorem isOneLine_name (kind : CommandKind) : kind.name.IsOneLine := by cases kind <;> decide

/-- A field name, an equals sign and a value are one line if the value is. -/
theorem isOneLine_pair (f : Field) {v : Text} (h : v.IsOneLine) :
    Text.IsOneLine (f.name ++ '=' :: v) := by
  rw [← List.singleton_append, isOneLine_append, isOneLine_append]
  exact ⟨(isPlain_fieldName f).isOneLine, by decide, h⟩

theorem isOneLine_encodeFieldSet {s : FieldSet} (h : s.AllTexts Text.IsOneLine) :
    (encodeFieldSet s).IsOneLine := by
  refine isOneLine_join fun w hw => ?_
  obtain ⟨f, -, hf⟩ := List.mem_filterMap.mp hw
  rw [encodeField] at hf
  split at hf
  · next n _ =>
      cases hf
      exact isOneLine_pair f ((isPlain_ofInt n.toInt).isOneLine)
  · next t _ ht =>
      cases hf
      exact isOneLine_pair f (isOneLine_quote (h f t ht))
  · cases hf

theorem isOneLine_arguments {c : Command} (h : c.AllTexts Text.IsOneLine) :
    ∀ a ∈ c.arguments, a.IsOneLine := by
  cases c with
  | quit | help | list | clean => exact List.forall_mem_nil _
  | create s | search s => exact List.forall_mem_singleton.mpr (isOneLine_encodeFieldSet h)
  | change id s =>
      exact List.forall_mem_cons.mpr ⟨(isPlain_ofNat _).isOneLine,
        List.forall_mem_singleton.mpr (isOneLine_encodeFieldSet h)⟩
  | delete id | fetch id | listStrings id | countStrings id =>
      exact List.forall_mem_singleton.mpr ((isPlain_ofNat _).isOneLine)
  | addString id t =>
      exact List.forall_mem_cons.mpr ⟨(isPlain_ofNat _).isOneLine,
        List.forall_mem_singleton.mpr (isOneLine_quote h.2)⟩
  | getString id pos | deleteString id pos =>
      exact List.forall_mem_cons.mpr ⟨(isPlain_ofNat _).isOneLine,
        List.forall_mem_singleton.mpr ((isPlain_ofNat _).isOneLine)⟩

/-- The line of a command is one line if its texts are. -/
theorem isOneLine_encode {c : Command} (h : c.AllTexts Text.IsOneLine) :
    c.encode.IsOneLine := by
  rw [encode_eq, isOneLine_append]
  exact ⟨isOneLine_name _,
    isOneLine_spaced fun a ha => isOneLine_arguments h a (List.mem_filter.mp ha).1⟩

theorem isOneLine_encodable {c : Command} (h : c.AllTexts IsEncodable) : c.encode.IsOneLine :=
  isOneLine_encode (h.mono fun _ ht => ht.2)

theorem parse_encodable {c : Command} (h : c.HasArguments IsEncodable) :
    Command.parse c.encode = .ok c :=
  parse_encode (h.mono fun _ ht => ht.1)

/-- A command that can be sent arrives: any reader whose limit admits its line reads exactly that
line, goes on behind its line feed, and finds the command in it. -/
theorem readLine_parse_encode {c : Command} (h : c.HasArguments IsEncodable) {limit : UInt64}
    (hlimit : (Utf8.encode c.encode).length ≤ limit.toNat) (hfit : c.encode.FitsInMemory)
    (rest : Bytes) :
    readLine limit (Utf8.encode c.encode ++ lineFeed :: rest) = (.line c.encode, rest) ∧
      Command.parse c.encode = .ok c := by
  constructor
  · exact readLine_encode (isOneLine_encodable h.allTexts) hfit hlimit rest
  · exact parse_encodable h

/-- Blanks, a line separator and the signs of the grammar inside texts, an empty text, and the
extreme numbers. -/
theorem readLine_parse_encode_change :
    let c : Command := .change 4294967295
      { app := some " a=b\t ", site := some "", port := some (-2147483648),
        pid := some 2147483647, comp := some "ID 1 app=", tag := some ".\u2028é𝄞" }
    c.HasArguments IsEncodable ∧ (Utf8.encode c.encode).length ≤ (104 : UInt64).toNat ∧
      c.encode.FitsInMemory ∧
      readLine 104 (Utf8.encode c.encode ++ lineFeed :: [0xFF, 13]) =
        (.line c.encode, [0xFF, 13]) ∧
      Command.parse c.encode = .ok c :=
  ⟨by decide, by decide, by decide,
    readLine_parse_encode (by decide) (by decide) (by decide) _⟩

end ToolRegistry.Wire
