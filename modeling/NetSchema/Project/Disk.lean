import NetSchema.OrderedMap
import NetSchema.Project.PathText

/-!
# Disks

A disk as a value: what stands at each place, and the working directory.  A place is the list of
names from the root, free of dots and links.  Looking up a path follows links, of which one look-up
follows no more than `linkLimit`.
-/

namespace NetSchema

inductive DiskEntry where
  | file (text : String)
  /-- A file whose bytes are not text. -/
  | binary
  | directory
  | link (target : String)
  deriving DecidableEq, Repr

/-- The names from the root down. -/
abbrev Place := List String

structure Disk where
  entries : OrderedMap Place DiskEntry := {}
  workingDirectory : Place := []

/-- Why the disk does not do as asked. -/
inductive DiskError where
  | notFound
  | exists
  | notADirectory
  | isADirectory
  | nameTooLong
  | tooManyLinks
  | notText
  deriving DecidableEq, Repr

def DiskError.message : DiskError → String
  | notFound => "No such file or directory (os error 2)"
  | «exists» => "File exists (os error 17)"
  | notADirectory => "Not a directory (os error 20)"
  | isADirectory => "Is a directory (os error 21)"
  | nameTooLong => "File name too long (os error 36)"
  | tooManyLinks => "Too many levels of symbolic links (os error 40)"
  | notText => "stream did not contain valid UTF-8"

namespace Disk

/-- How many links a look-up may follow. -/
def linkLimit : Nat := 40

/-- How many bytes a name may have. -/
def nameLimit : Nat := 255

/-- What a look-up ends at: an entry, or a free place in a directory. -/
structure Found where
  place : Place
  entry : Option DiskEntry
  /-- How many more links may be followed. -/
  links : Nat

/-- Follows `names` from the directory `place`. -/
def follow (d : Disk) (links : Nat) (place : Place) : List String → Except DiskError Found
  | [] => .ok ⟨place, some .directory, links⟩
  | name :: rest =>
    if name = "." then d.follow links place rest
    else if name = ".." then d.follow links place.dropLast rest
    else if nameLimit < name.utf8ByteSize then .error .nameTooLong
    else
      match d.entries.get? (place ++ [name]) with
      | none => if rest.isEmpty then .ok ⟨place ++ [name], none, links⟩ else .error .notFound
      | some .directory => d.follow links (place ++ [name]) rest
      | some (.link target) =>
        match links with
        | 0 => .error .tooManyLinks
        | links + 1 =>
          d.follow links (if PathText.isAbsolute target then [] else place)
            (PathText.names target ++ rest)
      | some e =>
        if rest.isEmpty then .ok ⟨place ++ [name], some e, links⟩ else .error .notADirectory
termination_by names => (links, names.length)

/-- Following names uses up links only. -/
theorem links_le_of_follow {d : Disk} {links : Nat} {place : Place} {names : List String}
    {found : Found} (h : d.follow links place names = .ok found) : found.links ≤ links := by
  fun_induction d.follow links place names with
  | case1 | case5 | case10 => cases h; exact Nat.le_refl _
  | case2 | case3 | case7 => rename_i ih; exact ih h
  | case9 => rename_i ih; exact Nat.le_succ_of_le (ih h)
  | _ => cases h

/-- What is found is on the disk. -/
theorem mem_values_of_follow {d : Disk} {links : Nat} {place : Place} {names : List String}
    {found : Found} {e : DiskEntry} (h : d.follow links place names = .ok found)
    (he : found.entry = some e) (hd : e ≠ .directory) : e ∈ d.entries.values := by
  fun_induction d.follow links place names with
  | case1 => cases h; cases he; exact absurd rfl hd
  | case2 | case3 | case7 | case9 => rename_i ih; exact ih h
  | case5 => cases h; cases he
  | case10 => rename_i hg _; cases h; cases he; exact OrderedMap.mem_values_of_get? hg
  | _ => cases h

/-- The working directory as a path. -/
def directoryPath (d : Disk) : String := PathText.below "/" d.workingDirectory

/-- The directory from which a path is looked up. -/
def base (d : Disk) (path : String) : Place :=
  if PathText.isAbsolute path then [] else d.workingDirectory

def locate (d : Disk) (path : String) : Except DiskError Found :=
  if path.isEmpty then .error .notFound
  else d.follow linkLimit (d.base path) (PathText.names path)

def isFile (d : Disk) (path : String) : Bool :=
  match d.locate path with
  | .ok ⟨_, some (.file _), _⟩ | .ok ⟨_, some .binary, _⟩ => true
  | _ => false

def isDirectory (d : Disk) (path : String) : Bool :=
  match d.locate path with
  | .ok ⟨_, some .directory, _⟩ => true
  | _ => false

def readText (d : Disk) (path : String) : Except DiskError String :=
  match d.locate path with
  | .error e => .error e
  | .ok ⟨_, some (.file text), _⟩ => .ok text
  | .ok ⟨_, some .binary, _⟩ => .error .notText
  | .ok ⟨_, some .directory, _⟩ => .error .isADirectory
  | .ok ⟨_, some (.link _), _⟩ | .ok ⟨_, none, _⟩ => .error .notFound

/-! ## Changing a disk -/

/-- Writes a file, which may be there already.  A path with a slash at its end is one of a
directory, even if there is none yet. -/
def write (d : Disk) (path text : String) : Except DiskError Disk := do
  let found ←
    if Text.endsWith "/" path then
      d.follow linkLimit (d.base path) (PathText.names path).dropLast.dropLast
    else d.locate path
  match found.entry with
  | some .directory => throw .isADirectory
  | e =>
    if Text.endsWith "/" path then throw (if e.isNone then .notFound else .notADirectory)
    else return { d with entries := d.entries.insert found.place (.file text) }

/-- Makes the directories that are missing on the way along `names`. -/
def makeNames (d : Disk) (links : Nat) (place : Place) : List String → Except DiskError Disk
  | [] => .ok d
  | name :: rest =>
    if name = "." then d.makeNames links place rest
    else if name = ".." then d.makeNames links place.dropLast rest
    else
      match d.entries.get? (place ++ [name]) with
      | some .directory => d.makeNames links (place ++ [name]) rest
      | none =>
        if nameLimit < name.utf8ByteSize then .error .nameTooLong
        else
          { d with entries := d.entries.insert (place ++ [name]) .directory }.makeNames links
            (place ++ [name]) rest
      | some (.link _) =>
        match d.follow links place [name] with
        | .ok ⟨place, some .directory, links⟩ => d.makeNames links place rest
        | .ok ⟨_, none, _⟩ | .error .notFound => .error .exists
        | .ok _ => .error (if rest.isEmpty then .exists else .notADirectory)
        | .error e => .error (if rest.isEmpty then .exists else e)
      | some _ => .error (if rest.isEmpty then .exists else .notADirectory)

/-- Makes a directory and the directories above it, as far as they are missing. -/
def makeDirectories (d : Disk) (path : String) : Except DiskError Disk :=
  d.makeNames linkLimit (d.base path) ((PathText.names path).filter (· ≠ "."))

end Disk

end NetSchema
