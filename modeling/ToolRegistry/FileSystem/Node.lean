import ToolRegistry.Text

/-!
# Names and directories

A directory holds files and further directories, each under a name. The place
of one is the list of the names that lead to it. A file is no more than a number
here, because it may have several names: what has the same number is the same
file, and what is written to it under one name is read under the others. The
numbers are given out in order, and `bound` is one that no file has.

There may be nothing at a place, so what is found there (`find?`) is optional,
and so is what a change leaves there (`update`). A change at a place of which
nothing holds the last name has no effect.

The main statement is `look_update`. A change that replaces something without
entries by something without entries is seen at its own place and nowhere else,
unless one looks into a directory around it.
-/

namespace ToolRegistry

/-- The names that lead to a file or a directory. -/
abbrev Place := List Text

namespace FileSystem

/-- A file or a directory. -/
inductive Node where
  | file (number : Nat)
  | directory (entries : List (Text × Node))

namespace Node

/-! ## Entries -/

/-- The entries after a change of what has a name. -/
def alter (change : Option Node → Option Node) (name : Text) (entries : List (Text × Node)) :
    List (Text × Node) :=
  entries.filter (·.1 ≠ name) ++ ((change (entries.lookup name)).map (name, ·)).toList

theorem lookup_filter_ne (name other : Text) (entries : List (Text × Node)) :
    (entries.filter (·.1 ≠ name)).lookup other =
      if other = name then none else entries.lookup other := by
  induction entries with
  | nil => simp
  | cons e entries ih =>
      obtain ⟨first, n⟩ := e
      by_cases hp : first = name
      · subst hp
        rw [List.filter_cons_of_neg (by simp), ih, List.lookup_cons]
        split
        · rfl
        · next h => rw [beq_false_of_ne h]
      · rw [List.filter_cons_of_pos (by simpa using hp), List.lookup_cons, ih, List.lookup_cons]
        by_cases h : other = name
        · rw [if_pos h, if_pos h, beq_false_of_ne (h ▸ Ne.symm hp)]
        · rw [if_neg h, if_neg h]

/-- A change is seen under its name and under no other. -/
theorem lookup_alter (change : Option Node → Option Node) (name other : Text)
    (entries : List (Text × Node)) :
    (alter change name entries).lookup other =
      if other = name then change (entries.lookup name) else entries.lookup other := by
  rw [alter, List.lookup_append, lookup_filter_ne]
  by_cases h : other = name
  · subst h
    cases change (entries.lookup other) <;> simp
  · cases change (entries.lookup name) <;> simp [h, List.lookup_cons, beq_false_of_ne h]

/-! ## Places -/

/-- What is at a place inside. -/
def find? : Place → Option Node → Option Node
  | [], o => o
  | name :: rest, some (.directory entries) => find? rest (entries.lookup name)
  | _ :: _, _ => none

/-- What comes of a change at a place inside. -/
def update (change : Option Node → Option Node) : Place → Option Node → Option Node
  | [], o => change o
  | name :: rest, some (.directory entries) =>
      some (.directory (alter (update change rest) name entries))
  | _ :: _, o => o

/-- The number of a file. -/
def number? : Option Node → Option Nat
  | some (.file number) => some number
  | _ => none

/-- Whether something is a directory. -/
def isDirectory : Option Node → Bool
  | some (.directory _) => true
  | _ => false

/-- Whether nothing is inside of something. -/
def HasNoEntries (o : Option Node) : Prop := ∀ entries, o = some (.directory entries) → entries = []

theorem hasNoEntries_of_not_isDirectory {o : Option Node} (h : isDirectory o = false) :
    HasNoEntries o := fun _ ho => by simp [ho, isDirectory] at h

theorem find?_of_hasNoEntries {o : Option Node} (h : HasNoEntries o) (name : Text) (q : Place) :
    find? (name :: q) o = none := by
  match o with
  | none => rfl
  | some (.file _) => rfl
  | some (.directory entries) =>
      rw [h entries rfl, find?]
      cases q <;> rfl

/-- Where the last name is held, a change that neither meets nor leaves entries is seen at its place
and nowhere else, for all that can be seen without looking into a directory. -/
theorem look_update {α : Type} {look : Option Node → α}
    (outside : ∀ entries others, look (some (.directory entries)) = look (some (.directory others)))
    {change : Option Node → Option Node} {p : Place} {o : Option Node}
    (held : p = [] ∨ isDirectory (find? p.dropLast o) = true)
    (before : HasNoEntries (find? p o)) (after : HasNoEntries (change (find? p o))) (q : Place) :
    look (find? q (update change p o)) =
      if q = p then look (change (find? p o)) else look (find? q o) := by
  induction p generalizing o q with
  | nil =>
      cases q with
      | nil => rfl
      | cons name q =>
          rw [if_neg (by simp)]
          exact congrArg look ((find?_of_hasNoEntries after name q).trans
            (find?_of_hasNoEntries before name q).symm)
  | cons name p ih =>
      match o with
      | none | some (.file _) => cases p <;> simp [find?, isDirectory] at held
      | some (.directory entries) =>
          cases q with
          | nil =>
              rw [if_neg (by simp)]
              exact outside _ _
          | cons other q =>
              simp only [find?, update, lookup_alter, List.cons.injEq]
              by_cases h : other = name
              · subst h
                have held : p = [] ∨
                    isDirectory (find? p.dropLast (entries.lookup other)) = true := by
                  cases p with
                  | nil => exact .inl rfl
                  | cons _ _ => exact .inr (by simpa [find?] using held)
                simpa using ih held before after q
              · simp [h]

/-- What is outside of a directory is a directory. -/
theorem isDirectory_dropLast {p : Place} {o : Option Node} (h : isDirectory (find? p o) = true) :
    isDirectory (find? p.dropLast o) = true := by
  induction p generalizing o with
  | nil => exact h
  | cons name p ih =>
      match o with
      | none | some (.file _) => cases h
      | some (.directory entries) =>
          cases p with
          | nil => rfl
          | cons other p => exact ih h

/-! ## Numbers -/

mutual

/-- A number above those of all files inside. -/
def bound : Node → Nat
  | .file number => number + 1
  | .directory entries => boundOf entries

/-- A number above those of all files in these entries. -/
def boundOf : List (Text × Node) → Nat
  | [] => 0
  | (_, n) :: rest => max n.bound (boundOf rest)

end

theorem bound_le_boundOf {name : Text} {entries : List (Text × Node)} {n : Node}
    (h : entries.lookup name = some n) : n.bound ≤ boundOf entries := by
  induction entries with
  | nil => cases h
  | cons e entries ih =>
      obtain ⟨first, m⟩ := e
      rw [List.lookup_cons] at h
      rw [boundOf]
      split at h
      · cases h
        exact Nat.le_max_left _ _
      · exact Nat.le_trans (ih h) (Nat.le_max_right _ _)

theorem lt_bound {p : Place} {o : Node} {number : Nat}
    (h : find? p (some o) = some (.file number)) : number < o.bound := by
  induction p generalizing o with
  | nil =>
      cases h
      rw [bound]
      exact Nat.lt_succ_self _
  | cons name p ih =>
      cases o with
      | file _ => cases h
      | directory entries =>
          rw [find?] at h
          cases hlookup : entries.lookup name with
          | none =>
              rw [hlookup] at h
              cases p <;> cases h
          | some n =>
              rw [hlookup] at h
              rw [bound]
              exact Nat.lt_of_lt_of_le (ih h) (bound_le_boundOf hlookup)

end Node

end FileSystem

end ToolRegistry
