import NetSchema.Project.PathText

/-!
# Resources

A project names its files by resource paths: `res://a/b.scn` is the file `a/b.scn` in the directory
`res` of the project.
-/

namespace NetSchema.Resource

def scheme : String := "res://"

/-- The directory of a project that holds its resources. -/
def directory : String := "res"

def isResource (path : String) : Bool := Text.startsWith scheme path

/-- The names between slashes of either kind. -/
def names (path : String) : List String :=
  ((Text.splitAt (fun c => c == '/' || c == '\\') path.toList).filter fun p => !p.isEmpty).map
    String.ofList

/-- The file that a resource path names in the project at `root`. -/
def file? (root path : String) : Option String :=
  (Text.dropPrefix? scheme path).map fun rest =>
    PathText.below (PathText.join root directory) (names rest)

theorem file?_isSome (root path : String) : (file? root path).isSome ↔ isResource path := by
  simp only [file?, Option.isSome_map, Text.dropPrefix?, isResource, Text.startsWith]
  exact Text.isSome_isPrefixOf? scheme.toList path.toList

end NetSchema.Resource
