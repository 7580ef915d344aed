import NetSchema.Project.PathText

/-!
# Local paths

The paths that a user gives.  `local://a` and `/a` both are the file `a` in a given directory; any
other path is left as it is.
-/

namespace NetSchema.LocalPath

def scheme : String := "local://"

/-- What a path with the scheme or with a leading slash names in the directory. -/
def relative? (path : String) : Option String :=
  match Text.dropPrefix? scheme path with
  | some rest => some (Text.dropLeading '/' rest)
  | none => if PathText.isAbsolute path then some (Text.dropLeading '/' path) else none

def resolve (root path : String) : String :=
  match relative? path with
  | none => path
  | some rest => if rest.isEmpty then root else PathText.join root rest

end NetSchema.LocalPath
