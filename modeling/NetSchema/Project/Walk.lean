import NetSchema.Project.Disk

/-!
# Files below a directory

All files below a directory, each by the names on the way to it.  Links are followed like what they
lead to, as long as the way to a file follows no more links than a look-up may; so the walk ends
even where a link leads back to a directory above it.
-/

namespace NetSchema.Disk

variable (d : Disk)

/-- The names in a directory. -/
def children (place : Place) : List String :=
  d.entries.keys.filterMap fun p => if p.dropLast = place then p.getLast? else none

/-- How many names a place on the disk has at most. -/
def depth : Nat := (d.entries.keys.map List.length).foldr max 0

theorem length_le_depth {p : Place} (h : p ∈ d.entries.keys) : p.length ≤ d.depth := by
  unfold depth
  generalize d.entries.keys = ps at h
  induction ps with
  | nil => cases h
  | cons q ps ih =>
    simp only [List.map_cons, List.foldr_cons]
    rcases List.mem_cons.1 h with rfl | h
    · exact Nat.le_max_left ..
    · exact Nat.le_trans (ih h) (Nat.le_max_right ..)

theorem length_lt_depth {place : Place} {name : String} (h : name ∈ d.children place) :
    place.length < d.depth := by
  obtain ⟨p, hp, he⟩ := List.mem_filterMap.1 h
  split at he
  · next hd =>
    have hl := d.length_le_depth hp
    cases p with
    | nil => simp at he
    | cons a p =>
      subst hd
      simp only [List.length_dropLast, List.length_cons] at hl ⊢
      omega
  · simp at he

/-- What the target of a link in the directory `place` is. -/
def followLink (links : Nat) (place : Place) (target : String) : Except DiskError Found :=
  d.follow links (if PathText.isAbsolute target then [] else place) (PathText.names target)

/-- The files below `place`, if `links` more links may be followed. -/
def filesFrom (links : Nat) (place : Place) : List (List String) :=
  (d.children place).attach.flatMap fun ⟨name, hn⟩ =>
    match d.entries.get? (place ++ [name]) with
    | none => []
    | some .directory =>
      have := d.length_lt_depth hn
      (filesFrom links (place ++ [name])).map (name :: ·)
    | some (.link target) =>
      match links with
      | 0 => []
      | links + 1 =>
        match hf : d.followLink links place target with
        | .ok ⟨place, some .directory, rest⟩ =>
          have : rest ≤ links := links_le_of_follow hf
          (filesFrom rest place).map (name :: ·)
        | .ok ⟨_, some _, _⟩ => [[name]]
        | .ok ⟨_, none, _⟩ | .error _ => []
    | some _ => [[name]]
termination_by (links, d.depth - place.length)

/-- The files below the directory at `path`. -/
def filesBelow (path : String) : Except DiskError (List (List String)) :=
  match d.locate path with
  | .error e => .error e
  | .ok ⟨_, none, _⟩ => .error .notFound
  | .ok ⟨place, some .directory, links⟩ => .ok (d.filesFrom links place)
  | .ok ⟨_, some _, _⟩ => .error .notADirectory

/-- The files with an extension below a directory, in order, as paths from `base`; files that do not
lie below `base` are left out. -/
def collect (path base extension : String) : Except DiskError (List String) := do
  let found := (← d.filesBelow path).filter fun names =>
    (names.getLast?.bind PathText.extension?) = some extension
  let paths := found.filterMap fun names => PathText.relativeTo? base (PathText.below path names)
  return (paths.map (Text.replaceChar '\\' '/')).mergeSort

end NetSchema.Disk
