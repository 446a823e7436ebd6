import ToolRegistry.Error
import ToolRegistry.FileSystem.Node
import ToolRegistry.Path
import ToolRegistry.Text.Utf8

/-!
# Files

The file system as the settings see it: the outermost directory with everything
in it, and what is in the files. A file holds bytes, or it is a symbolic link,
which is a path to be gone in its place.

A path is not yet a place. It has to be gone part by part (`follow`), which
fails where a directory is missing, and where it ends there may be a directory
that was passed on the way, or a name that something has or is to be given.
Links may lead in circles, so only so many of them are followed (`along`). A
link at the end of a path is followed by whoever reads or writes a file there
(`target`), and it is not followed by whoever gives it another name (`place`).

Only what saving a file takes is defined: creating directories, writing a
file as a whole, and renaming it. A step that the operating system refuses
changes nothing; creating a directory together with those outside it takes
several steps, and those done before one is refused stay done.
-/

namespace ToolRegistry

/-- What a file holds. -/
inductive Content where
  | bytes (b : Bytes)
  /-- It is a symbolic link, and this is the written form of a path. -/
  | link (t : Text)
deriving DecidableEq, Repr

namespace Content

def bytes? : Content → Option Bytes
  | bytes b => some b
  | link _ => none

def link? : Content → Option Text
  | bytes _ => none
  | link t => some t

end Content

/-- Files and directories. -/
structure FileSystem where
  /-- What the outermost directory holds. -/
  entries : List (Text × FileSystem.Node) := []
  /-- What each file holds, by its number. -/
  contents : Nat → Content := fun _ => .bytes []

/-- What a path leads to. -/
inductive Target where
  /-- A directory, which the path enters or goes back to. -/
  | directory (d : Place)
  /-- Whatever is at this place, if anything is; only a directory is meant if the path ends in a
  slash. -/
  | named (q : Place) (slash : Bool)
deriving DecidableEq, Repr

/-- The greatest length of a name in bytes. -/
def longestName : Nat := 255

/-- The greatest length of the written form of a path in bytes. -/
def longestPath : Nat := 4095

/-- How many links are followed on the way along a path. -/
def mostLinks : Nat := 40

namespace Path

/-- What is wrong with a path, whatever there is in the file system. -/
def fault? (p : Path) : Option SystemError :=
  if '\x00' ∈ p.render then some .nulInPath
  else if longestPath < (Utf8.encode p.render).length then some .nameTooLong
  else none

/-- The places that a way passes that starts in a directory, if there are no links. -/
def placesAlong (d : Place) : List Text → List Place
  | [] => []
  | part :: rest =>
      if stays part then placesAlong d rest
      else if part = back then placesAlong d.dropLast rest
      else (d ++ [part]) :: placesAlong (d ++ [part]) rest

/-- The places that the ways to a file and to its temporary file pass, if there are no links. -/
def places (p : Path) : List Place := placesAlong [] p.parts ++ placesAlong [] p.temporary.parts

end Path

namespace FileSystem

/-! ## Places -/

/-- The outermost directory. -/
def root (fs : FileSystem) : Node := .directory fs.entries

/-- What is at a place. -/
def node? (fs : FileSystem) (q : Place) : Option Node := Node.find? q (some fs.root)

/-- The number of the file at a place. -/
def number? (fs : FileSystem) (q : Place) : Option Nat := Node.number? (fs.node? q)

/-- What the file at a place holds. -/
def content? (fs : FileSystem) (q : Place) : Option Content := (fs.number? q).map fs.contents

/-- The bytes in the file at a place. -/
def file? (fs : FileSystem) (q : Place) : Option Bytes := (fs.content? q).bind Content.bytes?

/-- The link at a place. -/
def link? (fs : FileSystem) (q : Place) : Option Text := (fs.content? q).bind Content.link?

/-- Whether there is a directory at a place. -/
def isDirectory (fs : FileSystem) (q : Place) : Bool := Node.isDirectory (fs.node? q)

/-! ## Changes -/

/-- The file system after a change at a place inside of the outermost directory. -/
def update (fs : FileSystem) (change : Option Node → Option Node) : Place → FileSystem
  | [] => fs
  | name :: q => { fs with entries := Node.alter (Node.update change q) name fs.entries }

/-- A number that no file has. -/
def fresh (fs : FileSystem) : Nat := fs.root.bound

/-- The file system with other bytes in a file. -/
def fill (fs : FileSystem) (number : Nat) (bytes : Bytes) : FileSystem :=
  { fs with contents := fun n => if n = number then .bytes bytes else fs.contents n }

/-- The file system without the file at a place. -/
def erase (fs : FileSystem) (q : Place) : FileSystem := fs.update (fun _ => none) q

/-- The file system with a file of this number at a place. -/
def assign (fs : FileSystem) (q : Place) (number : Nat) : FileSystem :=
  fs.update (fun _ => some (.file number)) q

/-- The file system with a new file at a place. -/
def put (fs : FileSystem) (q : Place) (bytes : Bytes) : FileSystem :=
  (fs.assign q fs.fresh).fill fs.fresh bytes

/-- The file system with an empty directory at a place. -/
def makeDirectory (fs : FileSystem) (q : Place) : FileSystem :=
  fs.update (fun _ => some (.directory [])) q

/-- The file system with these bytes in the file at a place, which is a new one if there is none. -/
def overwrite (fs : FileSystem) (q : Place) (bytes : Bytes) : FileSystem :=
  match fs.number? q with
  | some number => fs.fill number bytes
  | none => fs.put q bytes

/-- The file system with another name for the file at a place, in place of what has that name. If
both are names of one file, it keeps both of them. -/
def move (fs : FileSystem) (q r : Place) : FileSystem :=
  match fs.number? q with
  | some number => if fs.number? r = some number then fs else (fs.erase q).assign r number
  | none => fs

/-- Where the directory outside is there, a change that neither meets nor leaves entries is seen
at its place and nowhere else, for all that can be seen without looking into a directory. -/
theorem look_update {α : Type} {look : Option Node → α}
    (outside : ∀ entries others, look (some (.directory entries)) = look (some (.directory others)))
    {fs : FileSystem} {change : Option Node → Option Node} {q : Place}
    (hq : q ≠ []) (held : fs.isDirectory q.dropLast = true)
    (before : Node.HasNoEntries (fs.node? q)) (after : Node.HasNoEntries (change (fs.node? q)))
    (r : Place) :
    look ((fs.update change q).node? r) =
      if r = q then look (change (fs.node? q)) else look (fs.node? r) := by
  cases q with
  | nil => exact absurd rfl hq
  | cons name q => exact Node.look_update outside (.inr held) before after r

theorem number?_update {fs : FileSystem} {change : Option Node → Option Node} {q : Place}
    (hq : q ≠ []) (held : fs.isDirectory q.dropLast = true)
    (before : Node.HasNoEntries (fs.node? q)) (after : Node.HasNoEntries (change (fs.node? q)))
    (r : Place) :
    (fs.update change q).number? r =
      if r = q then Node.number? (change (fs.node? q)) else fs.number? r :=
  look_update (fun _ _ => rfl) hq held before after r

theorem isDirectory_update {fs : FileSystem} {change : Option Node → Option Node} {q : Place}
    (hq : q ≠ []) (held : fs.isDirectory q.dropLast = true)
    (before : Node.HasNoEntries (fs.node? q)) (after : Node.HasNoEntries (change (fs.node? q)))
    (r : Place) :
    (fs.update change q).isDirectory r =
      if r = q then Node.isDirectory (change (fs.node? q)) else fs.isDirectory r :=
  look_update (fun _ _ => rfl) hq held before after r

theorem contents_update (fs : FileSystem) (change : Option Node → Option Node) (q : Place) :
    (fs.update change q).contents = fs.contents := by
  cases q <;> rfl

/-- A place at which there may be a file, because it is in a directory and is none. -/
structure Admits (fs : FileSystem) (q : Place) : Prop where
  ne_nil : q ≠ []
  held : fs.isDirectory q.dropLast = true
  not_directory : fs.isDirectory q = false

theorem Admits.hasNoEntries {fs : FileSystem} {q : Place} (h : fs.Admits q) :
    Node.HasNoEntries (fs.node? q) :=
  Node.hasNoEntries_of_not_isDirectory h.not_directory

/-- Nothing but the file at that place is lost. -/
theorem number?_erase {fs : FileSystem} {q : Place} (h : fs.Admits q) (r : Place) :
    (fs.erase q).number? r = if r = q then none else fs.number? r :=
  number?_update h.ne_nil h.held h.hasNoEntries (by simp [Node.HasNoEntries]) r

/-- A file that is given a name is found under it, and every other name is as before. -/
theorem number?_assign {fs : FileSystem} {q : Place} (h : fs.Admits q) (number : Nat) (r : Place) :
    (fs.assign q number).number? r = if r = q then some number else fs.number? r :=
  number?_update h.ne_nil h.held h.hasNoEntries (by simp [Node.HasNoEntries]) r

/-- A new directory takes no name from a file. -/
theorem number?_makeDirectory {fs : FileSystem} {q : Place} (hq : q ≠ [])
    (held : fs.isDirectory q.dropLast = true) (before : fs.node? q = none) (r : Place) :
    (fs.makeDirectory q).number? r = fs.number? r := by
  have h : (fs.makeDirectory q).number? r = if r = q then none else fs.number? r :=
    number?_update hq held (by simp [Node.HasNoEntries, before]) (by simp [Node.HasNoEntries]) r
  rw [h]
  split
  · next hr => rw [hr, number?, before]; rfl
  · rfl

/-- A change of something that is no directory into something that is none changes no directory. -/
theorem isDirectory_replace {fs : FileSystem} {change : Option Node → Option Node} {q : Place}
    (h : fs.Admits q) (after : Node.isDirectory (change (fs.node? q)) = false) (r : Place) :
    (fs.update change q).isDirectory r = fs.isDirectory r := by
  rw [isDirectory_update h.ne_nil h.held h.hasNoEntries
    (Node.hasNoEntries_of_not_isDirectory after)]
  split
  · next hr => rw [hr, h.not_directory, after]
  · rfl

theorem isDirectory_assign {fs : FileSystem} {q : Place} (h : fs.Admits q) (number : Nat)
    (r : Place) : (fs.assign q number).isDirectory r = fs.isDirectory r :=
  isDirectory_replace h rfl r

theorem isDirectory_erase {fs : FileSystem} {q : Place} (h : fs.Admits q) (r : Place) :
    (fs.erase q).isDirectory r = fs.isDirectory r :=
  isDirectory_replace h rfl r

theorem isDirectory_makeDirectory {fs : FileSystem} {q : Place} (hq : q ≠ [])
    (held : fs.isDirectory q.dropLast = true) (before : fs.node? q = none) (r : Place) :
    (fs.makeDirectory q).isDirectory r = if r = q then true else fs.isDirectory r :=
  isDirectory_update hq held (by simp [Node.HasNoEntries, before]) (by simp [Node.HasNoEntries]) r

/-! ## Going along a path -/

/-- The place with this name in a directory. -/
def enter (d : Place) (name : Text) : Except SystemError Place :=
  if longestName < (Utf8.encode name).length then .error .nameTooLong else .ok (d ++ [name])

/-- What parts lead to that go on from a directory.

A link is followed by `jump`, which is told the parts that are left with those of the link in place
of its name, all from the outermost directory on. A link at the end is followed if `final` says so,
and if there is a slash behind it. -/
def follow (fs : FileSystem) (final : Bool) (jump : List Text → Except SystemError Target) :
    Place → List Text → Except SystemError Target
  | d, [] => .ok (.directory d)
  | d, part :: rest =>
      if Path.stays part then fs.follow final jump d rest
      else if part = Path.back then fs.follow final jump d.dropLast rest
      else
        match enter d part with
        | .error e => .error e
        | .ok q =>
            match fs.link? q with
            | some t =>
                if rest = [] ∧ final = false then .ok (.named q false)
                else jump ((Path.ofText ⟨d⟩ t).parts ++ rest)
            | none =>
                if rest.all (· = []) then .ok (.named q (rest ≠ []))
                else if fs.isDirectory q then fs.follow final jump q rest
                else .error (if (fs.number? q).isSome then .notADirectory else .notFound)

/-- What parts lead to from the outermost directory on, with so many links that may be followed. -/
def along (fs : FileSystem) (final : Bool) : Nat → List Text → Except SystemError Target
  | 0 => fs.follow final (fun _ => .error .tooManyLinks) []
  | links + 1 => fs.follow final (fs.along final links) []

/-- What a path leads to, with or without following a link at its end. -/
def resolve (fs : FileSystem) (final : Bool) (p : Path) : Except SystemError Target :=
  match p.fault? with
  | some e => .error e
  | none => fs.along final mostLinks p.parts

/-- What a path leads to. -/
def target (fs : FileSystem) (p : Path) : Except SystemError Target := fs.resolve true p

/-- What a path names, which may be a link. -/
def place (fs : FileSystem) (p : Path) : Except SystemError Target := fs.resolve false p

/-! ## Looking -/

/-- Whether a path leads to a directory. -/
def leadsInto (fs : FileSystem) (p : Path) : Bool :=
  match fs.target p with
  | .ok (.directory _) => true
  | .ok (.named q _) => fs.isDirectory q
  | .error _ => false

/-- Whether a path leads to a file or a directory. -/
def contains (fs : FileSystem) (p : Path) : Bool :=
  match fs.target p with
  | .ok (.directory _) => true
  | .ok (.named q slash) => fs.isDirectory q || (!slash && (fs.number? q).isSome)
  | .error _ => false

/-- Reads a file. -/
def read (fs : FileSystem) (p : Path) : Except SystemError Bytes :=
  match fs.target p with
  | .error e => .error e
  | .ok (.directory _) => .error .isADirectory
  | .ok (.named q slash) =>
      if fs.isDirectory q then .error .isADirectory
      else
        match fs.file? q with
        | some bytes => if slash then .error .notADirectory else .ok bytes
        | none => .error .notFound

/-! ## Directories -/

/-- Creates a directory, where there is nothing yet. -/
def createDirectory (fs : FileSystem) (p : Path) : Except SystemError FileSystem :=
  match fs.place p with
  | .error e => .error e
  | .ok (.directory _) => .error .alreadyExists
  | .ok (.named q _) =>
      if (fs.node? q).isSome then .error .alreadyExists else .ok (fs.makeDirectory q)

/-- Creates a directory, unless the path leads to one already: whether it is there, and the file
system afterwards. -/
def ensureDirectory (fs : FileSystem) (p : Path) : Except SystemError Unit × FileSystem :=
  match fs.createDirectory p with
  | .ok made => (.ok (), made)
  | .error e => (if fs.leadsInto p then .ok () else .error e, fs)

/-- Creates the directory that the parts lead to, which are told from the last one on. The one
outside it is created first if it turns out to be missing. -/
def createAlong (fs : FileSystem) : List Text → Except SystemError Unit × FileSystem
  | [] => (.ok (), fs)
  | part :: before =>
      if Path.stays part then fs.createAlong before
      else
        let p : Path := ⟨(part :: before).reverse⟩
        match fs.createDirectory p with
        | .error .notFound =>
            match fs.createAlong before with
            | (.ok (), made) => made.ensureDirectory p
            | refused => refused
        | _ => fs.ensureDirectory p

/-- Creates the directory that a path leads to and those outside it, as far as they are missing:
whether all are there, and the file system afterwards. -/
def createDirectories (fs : FileSystem) (p : Path) : Except SystemError Unit × FileSystem :=
  fs.createAlong p.parts.reverse

/-! ## Files -/

/-- Writes a file. -/
def write (fs : FileSystem) (p : Path) (bytes : Bytes) : Except SystemError FileSystem :=
  match fs.target p with
  | .error e => .error e
  | .ok (.directory _) => .error .isADirectory
  | .ok (.named q slash) =>
      if slash || fs.isDirectory q then .error .isADirectory else .ok (fs.overwrite q bytes)

/-- Gives a file or a link another path, in place of what is there. -/
def rename (fs : FileSystem) (source target : Path) : Except SystemError FileSystem :=
  match fs.place source, fs.place target with
  | .error e, _ => .error e
  | _, .error e => .error e
  | .ok (.named q slash), .ok (.named r slash') =>
      if fs.isDirectory q then .error .isADirectory
      else if (fs.number? q).isNone then .error .notFound
      else if slash || slash' then .error .notADirectory
      else if fs.isDirectory r then .error .isADirectory
      else .ok (fs.move q r)
  | _, _ => .error .busy

end FileSystem

end ToolRegistry
