import NetSchema.Class.Document
import NetSchema.Compile.Run
import NetSchema.Project.Config
import NetSchema.Project.SceneFiles
import NetSchema.Project.Walk

/-!
# Projects on a disk

A project is a directory with a configuration.  Its scenes and its class manifests lie among its
resources, and both are taken in the order of their paths.
-/

namespace NetSchema

/-- The file that makes a directory a project. -/
def configFile : String := "project.toml"

def sceneExtension : String := "scn"

def manifestExtension : String := "json"

/-- Why a project cannot be loaded. -/
inductive ProjectError where
  | notAProject (root : String)
  | disk (cause : DiskError)
  | config (cause : ConfigError)
  | unreadableManifest (path : String) (cause : DiskError)
  | manifest (cause : ManifestError)
  deriving DecidableEq, Repr

def ProjectError.message : ProjectError → String
  | notAProject root => "no " ++ configFile ++ " found in " ++ root
  | disk cause => cause.message
  | config cause => cause.message
  | unreadableManifest path cause =>
    "failed to read class manifest " ++ path ++ ": " ++ cause.message
  | manifest cause => cause.message

structure Project where
  root : String
  config : ProjectConfig
  deriving DecidableEq, Repr

namespace Disk

variable (d : Disk)

/-! ## Scenes -/

/-- Resource paths of the scenes in a project, in order. -/
def discoverScenes (root : String) : Except DiskError (List String) :=
  let dir := PathText.join root Resource.directory
  if d.isDirectory dir then
    (d.collect dir dir sceneExtension).map fun paths => paths.map (Resource.scheme ++ ·)
  else .ok []

def discoverNotes (root : String) : List LogRecord :=
  let dir := PathText.join root Resource.directory
  match d.isDirectory dir, d.discoverScenes root with
  | true, .ok scenes =>
    [⟨.debug, .project,
      "discovered " ++ toString scenes.length ++ " scene(s) under " ++ dir⟩]
  | _, _ => []

/-! ## Classes -/

/-- Adds the classes of a manifest file.  The path of the file is the origin of the manifest. -/
def loadManifest (t : ClassTable) (path : String) : Except ProjectError Unit × ClassTable :=
  match d.readText path with
  | .error e => (.error (.unreadableManifest path e), t)
  | .ok text =>
    match t.load path text with
    | (.ok (), t) => (.ok (), t)
    | (.error e, t) => (.error (.manifest e), t)

/-- Adds the classes of manifest files up to the first that fails. -/
def loadManifests (t : ClassTable) : List String → Except ProjectError Unit × ClassTable
  | [] => (.ok (), t)
  | path :: paths =>
    match d.loadManifest t path with
    | (.ok (), t) => loadManifests t paths
    | (.error e, t) => (.error e, t)

/-- The classes of the manifests in a resource directory.  A directory that is not there holds no
classes. -/
def loadClasses (root classes : String) : Except ProjectError ClassTable × List LogRecord :=
  match Resource.file? root classes with
  | none => (.error (.config (.invalidField "network.classes" .notAResource)), [])
  | some dir =>
    if d.isDirectory dir then
      match d.collect dir dir manifestExtension with
      | .error e => (.error (.disk e), [])
      | .ok paths =>
        let (r, t) := d.loadManifests {} (paths.map (PathText.join dir))
        let notes := ClassTable.insertNotes {} t
        match r with
        | .error e => (.error e, notes)
        | .ok () =>
          (.ok t, notes ++
            [⟨.debug, .project, "loaded " ++ toString t.size ++ " class(es) from " ++ dir⟩])
    else (.ok {}, [⟨.warn, .project, "class manifest directory " ++ dir ++ " does not exist"⟩])

end Disk

/-! ## Projects -/

namespace Project

def load (d : Disk) (root : String) : Except ProjectError Project :=
  let path := PathText.join root configFile
  if d.isFile path then
    match d.readText path with
    | .error e => .error (.disk e)
    | .ok text =>
      match ProjectConfig.parse text with
      | .error e => .error (.config e)
      | .ok config => .ok ⟨root, config⟩
  else .error (.notAProject root)

/-- The scenes that the configuration lists, or else all there are. -/
def scenes (p : Project) (d : Disk) : Except ProjectError (List String) :=
  match p.config.network.scenes with
  | some scenes => .ok scenes
  | none =>
    match d.discoverScenes p.root with
    | .ok scenes => .ok scenes
    | .error e => .error (.disk e)

def sceneNotes (p : Project) (d : Disk) : List LogRecord :=
  match p.config.network.scenes with
  | some _ => []
  | none => d.discoverNotes p.root

def loadClasses (p : Project) (d : Disk) : Except ProjectError ClassTable × List LogRecord :=
  d.loadClasses p.root p.config.network.classes

/-- The compiler of the project for given classes. -/
def compiler (p : Project) (d : Disk) (classes : ClassTable) : Compiler :=
  ⟨.ofDisk d p.root, ⟨classes, p.config.network.compilerConfig⟩⟩

end Project

end NetSchema
