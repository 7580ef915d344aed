import NetSchema.Text.Pieces

/-!
# Paths as texts

Names between slashes.  A path that starts with a slash is absolute.  Empty names, and dots that are
names of their own but not at the start, stand for nothing; two dots stand for themselves.
-/

namespace NetSchema.PathText

def isAbsolute (path : String) : Bool := Text.startsWith "/" path

/-- `path` as seen from `base`: an absolute path is the same from everywhere. -/
def join (base path : String) : String :=
  if isAbsolute path || base.isEmpty then path
  else if Text.endsWith "/" base then base ++ path
  else base ++ "/" ++ path

/-- The names on a path, for the file system: those that are empty left out, and a dot at the end
where the path has a slash there. -/
def names (path : String) : List String :=
  let pieces := (Text.splitAt (· == '/') path.toList).filter fun p => !p.isEmpty
  let dot := if Text.endsWith "/" path && !pieces.isEmpty then [['.']] else []
  (pieces ++ dot).map String.ofList

/-- A reversed path without what stands for nothing at its end. -/
def dropEmptyEnd : List Char → List Char
  | '/' :: s => if s.isEmpty then ['/'] else dropEmptyEnd s
  | '.' :: '/' :: s => dropEmptyEnd ('/' :: s)
  | s => s

/-- The path without its last name; there is none for an empty path and for the root. -/
def parent? (path : String) : Option String :=
  match dropEmptyEnd path.toList.reverse with
  | [] | ['/'] => none
  | s => some (String.ofList (dropEmptyEnd (s.dropWhile (· ≠ '/'))).reverse)

/-- What follows the last dot of a name, unless the name starts with that dot. -/
def extension? (name : String) : Option String :=
  match name.toList.reverse.dropWhile (· ≠ '.') with
  | _ :: _ :: _ =>
    if name = ".." then none else some (String.ofList (Text.afterLast '.' name.toList))
  | _ => none

/-- A path without what stands for nothing at its start. -/
def dropEmptyStart : List Char → List Char
  | '/' :: s => dropEmptyStart s
  | ['.'] => []
  | '.' :: '/' :: s => dropEmptyStart s
  | s => s

/-- What a path starts from: the root, a dot, or neither. -/
def startOf (path : List Char) : List Char :=
  match path with
  | '/' :: _ => ['/']
  | ['.'] | '.' :: '/' :: _ => ['.']
  | _ => []

/-- What is left of a path after the names. -/
def afterNames? : (names : List (List Char)) → List Char → Option (List Char)
  | [], path => some (dropEmptyStart path)
  | name :: names, path =>
    let path := dropEmptyStart path
    if path.takeWhile (· ≠ '/') = name then afterNames? names (path.dropWhile (· ≠ '/')) else none

/-- `path` as seen from `base`, if it lies below. -/
def relativeTo? (base path : String) : Option String :=
  let meaningful := fun p : List Char => !p.isEmpty && p != ['.']
  if startOf base.toList = startOf path.toList then
    (afterNames? ((Text.splitAt (· == '/') base.toList).filter meaningful) path.toList).map
      String.ofList
  else none

/-- The path of something deeper below `base`. -/
def below (base : String) (names : List String) : String := names.foldl join base

end NetSchema.PathText
