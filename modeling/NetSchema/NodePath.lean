/-!
# Node paths

A node path names a node from the root of its scene: `.` is the root itself, every other path lists
names from below the root, separated by slashes.  `child` goes one name down; `join` places a path
of an instanced scene under the node that instances it.
-/

namespace NetSchema.NodePath

/-- The root of a scene. -/
def root : String := "."

/-- Path of the node called `name` under `parent`; without a parent it is the root. -/
def child (parent : Option String) (name : String) : String :=
  match parent with
  | none => root
  | some p => if p = root then name else p ++ "/" ++ name

/-- Path of `inner`, a path of an instanced scene, as seen from the scene that instances it at
`outer`. -/
def join (outer inner : String) : String :=
  if inner = root then outer
  else if outer = root then inner
  else outer ++ "/" ++ inner

end NetSchema.NodePath
