import NetSchema.Compile.Source
import NetSchema.Project.Disk
import NetSchema.Project.Resource

/-!
# Scenes on a disk

The source whose descriptors are the resource files of a project.
-/

namespace NetSchema

namespace Disk

variable (d : Disk)

/-- The texts of all files on the disk. -/
def texts : List String :=
  d.entries.values.filterMap fun e =>
    match e with
    | .file text => some text
    | _ => none

theorem mem_texts_of_readText {path text : String} (h : d.readText path = .ok text) :
    text ∈ d.texts := by
  unfold readText at h
  split at h
  · cases h
  · next hl =>
    cases h
    unfold locate at hl
    split at hl
    · cases hl
    · exact List.mem_filterMap.2
        ⟨_, mem_values_of_follow hl rfl DiskEntry.noConfusion, rfl⟩
  all_goals cases h

/-- The text of a resource of the project at `root`. -/
def resource (root path : String) : Option String :=
  match Resource.file? root path with
  | none => none
  | some file => (d.readText file).toOption

/-- What is logged when a resource cannot be read. -/
def resourceNotes (root path : String) : List LogRecord :=
  match Resource.file? root path with
  | none =>
    [⟨.warn, .projectFiles, "descriptor path `" ++ path ++ "` is not a res:// path"⟩]
  | some file =>
    match d.readText file with
    | .ok _ => []
    | .error e => [⟨.debug, .projectFiles, "failed to read " ++ file ++ ": " ++ e.message⟩]

theorem mem_texts_of_resource {root path text : String} (h : d.resource root path = some text) :
    text ∈ d.texts := by
  unfold resource at h
  split at h
  · cases h
  · next file _ =>
    cases hr : d.readText file with
    | error e => rw [hr] at h; cases h
    | ok t => rw [hr] at h; cases h; exact d.mem_texts_of_readText hr

end Disk

/-- The resources of the project at `root`. -/
def Source.ofDisk (d : Disk) (root : String) : Source where
  load := d.resource root
  notes := d.resourceNotes root
  texts := d.texts
  load_mem := d.mem_texts_of_resource

end NetSchema
