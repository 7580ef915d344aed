import NetSchema.Compile.Document
import NetSchema.Json.Printer
import NetSchema.Project.LocalPath
import NetSchema.Project.Load

/-!
# The command line

What the program answers to its arguments.  A command is planned on a disk that it only reads; a
plan has the texts to print, and the file to save before they are.  Saving may fail, and then the
plan reports that instead.
-/

namespace NetSchema.CommandLine

def usage : String :=
  "Usage:\n" ++
  "  perro_net build [--path <project_dir>] [--out <file>] [--verbose]\n" ++
  "  perro_net check [--path <project_dir>] [--verbose]   # compile without writing\n" ++
  "  perro_net scenes [--path <project_dir>]              # list network scenes\n"

/-- Why a command fails before it has something to save. -/
inductive CommandError where
  | unknownCommand (name : String)
  | load (root : String) (cause : ProjectError)
  | scenes (root : String) (cause : ProjectError)
  | noScenes (root : String)
  | classes (cause : ProjectError)
  | compilation (cause : SchemaError)
  deriving DecidableEq, Repr

def CommandError.message : CommandError → String
  | unknownCommand name => "unknown command `" ++ name ++ "`"
  | load root cause => "failed to load project at " ++ root ++ ": " ++ cause.message
  | scenes root cause => "failed to list scenes in " ++ root ++ ": " ++ cause.message
  | noScenes root => "no scenes to compile in " ++ root
  | classes cause => "failed to load class manifests: " ++ cause.message
  | compilation cause => "network schema compilation failed: " ++ cause.message

/-! ## Arguments -/

/-- The argument after the first `option`. -/
def valueOf? (option : String) : List String → Option String
  | arg :: args => if arg = option then args.head? else valueOf? option args
  | [] => none

/-- The least urgent level that is logged. -/
def logLevel (args : List String) : LogLevel :=
  if args.any fun a => a == "--verbose" || a == "-v" then .debug else .info

def projectRoot (d : Disk) (args : List String) : String :=
  match valueOf? "--path" args with
  | some path => LocalPath.resolve d.directoryPath path
  | none => d.directoryPath

def outputFile (d : Disk) (args : List String) : String :=
  match valueOf? "--out" args with
  | some path => LocalPath.resolve d.directoryPath path
  | none => PathText.join (projectRoot d args) ".perro/network_registry.json"

/-! ## Compiling a project -/

def projectNote (p : Project) (roots : List String) (classes : ClassTable) : LogRecord :=
  ⟨.info, .commandLine,
    "project `" ++ p.config.name ++ "`: " ++ toString roots.length ++ " root scene(s), " ++
      toString classes.size ++ " class(es)"⟩

/-- Compiles the scenes of the project at `root`, and logs what is done. -/
def compileProject (d : Disk) (root : String) :
    Except CommandError Compiler.CompileOutput × List LogRecord :=
  match Project.load d root with
  | .error e => (.error (.load root e), [])
  | .ok p =>
    let log := p.sceneNotes d
    match p.scenes d with
    | .error e => (.error (.scenes root e), log)
    | .ok [] => (.error (.noScenes root), log)
    | .ok roots =>
      match p.loadClasses d with
      | (.error e, notes) => (.error (.classes e), log ++ notes)
      | (.ok classes, notes) =>
        let log := log ++ notes ++ [projectNote p roots classes]
        match (p.compiler d classes).run roots { log } with
        | (.error e, s) => (.error (.compilation e), s.log)
        | (.ok output, s) => (.ok output, s.log)

/-! ## Reports -/

/-- What a command leaves behind: its exit code and the texts on its two outputs. -/
structure Report where
  exitCode : Nat := 0
  output : String := ""
  errors : String := ""
  deriving DecidableEq, Repr

structure SavedFile where
  path : String
  text : String
  deriving DecidableEq, Repr

/-- A report that holds once the file is saved. -/
structure Plan where
  report : Report
  file : Option SavedFile := none
  deriving DecidableEq, Repr

/-- Each text on a line of its own. -/
def lines (texts : List String) : String := String.join (texts.map (· ++ "\n"))

/-- A text that ends a column of a given width. -/
def alignRight (width : Nat) (text : String) : String :=
  String.ofList (List.replicate (width - text.length) ' ') ++ text

def tableRow (id nodes properties functions path : String) : String :=
  "  ".intercalate [alignRight 3 id, alignRight 5 nodes, alignRight 5 properties,
    alignRight 5 functions, path]

/-- What a scene has in the registry, as a row of the table of scenes. -/
def sceneRow (r : Registry) (id : SceneId) (path : String) : String :=
  tableRow id.text (toString (r.staticNodesOf path).length)
    (toString ((r.properties.get? path).getD {}).count)
    (toString ((r.functions.get? path).getD {}).count) path

def scenesText (r : Registry) : String :=
  lines (tableRow "id" "nodes" "props" "funcs" "path" ::
    r.scenes.map fun (id, path) => sceneRow r id path)

def checkText (o : Compiler.CompileOutput) : String :=
  lines ((o.diagnostics.map fun d => "warning: " ++ d.text) ++
    ["ok: " ++ toString o.registry.sceneCount ++ " network scene(s), " ++
      toString o.diagnostics.length ++ " diagnostic(s)"])

def buildText (o : Compiler.CompileOutput) (path : String) : String :=
  lines ["wrote " ++ toString o.registry.sceneCount ++ " network scene(s) to " ++ path ++ " (" ++
    toString o.diagnostics.length ++ " diagnostic(s))"]

/-! ## Commands -/

inductive Command where
  | build
  | check
  | scenes
  deriving DecidableEq, Repr

/-- What a command makes of a compiled project. -/
def Command.plan (d : Disk) (args : List String) (o : Compiler.CompileOutput) : Command → Plan
  | build =>
    let path := outputFile d args
    { report := { output := buildText o path }, file := some ⟨path, o.registry.json.pretty⟩ }
  | check => { report := { output := checkText o } }
  | scenes => { report := { output := scenesText o.registry } }

/-- A plan that reports a failure, below what stands in `errors` already. -/
def Plan.failed (errors message : String) : Plan :=
  { report := { exitCode := 1, errors := errors ++ lines [message] } }

/-- Compiles the project that the arguments name.  `showLog` tells whether the log is printed. -/
def Command.run (d : Disk) (showLog : Bool) (args : List String) (c : Command) : Plan :=
  let (r, log) := compileProject d (projectRoot d args)
  let shown := log.filter fun l => showLog && (logLevel args).shownAt l.level
  let errors := lines (shown.map LogRecord.line)
  match r with
  | .error e => .failed errors e.message
  | .ok o =>
    let plan := c.plan d args o
    { plan with report := { plan.report with errors } }

/-- What the program does when called with `args`. -/
def plan (d : Disk) (showLog : Bool) (args : List String) : Plan :=
  match args with
  | [] => { report := { exitCode := 2, errors := usage } }
  | name :: _ =>
    match name with
    | "build" => Command.build.run d showLog args
    | "check" => Command.check.run d showLog args
    | "scenes" => Command.scenes.run d showLog args
    | "help" | "--help" | "-h" => { report := { errors := usage } }
    | _ => .failed usage (CommandError.unknownCommand name).message

/-! ## Saving -/

def createFailure (path cause : String) : String := "failed to create " ++ path ++ ": " ++ cause

def writeFailure (path cause : String) : String := "failed to write " ++ path ++ ": " ++ cause

/-- Saves a file in a directory that is made when it is missing. -/
def SavedFile.save (d : Disk) (f : SavedFile) : Except String Disk := do
  let d ← match PathText.parent? f.path with
    | none => pure d
    | some dir => (d.makeDirectories dir).mapError fun e => createFailure dir e.message
  (d.write f.path f.text).mapError fun e => writeFailure f.path e.message

/-- Carries out a plan on a disk. -/
def Plan.perform (d : Disk) (p : Plan) : Report × Disk :=
  match p.file with
  | none => (p.report, d)
  | some f =>
    match f.save d with
    | .ok d => (p.report, d)
    | .error message => ((Plan.failed p.report.errors message).report, d)

end NetSchema.CommandLine
