import NetSchema.CommandLine

/-!
# The program

Reads the project that the arguments name into memory, plans the command, and carries the plan out.
-/

namespace NetSchema.Program

/-- What stands at a path, links followed. -/
def entryAt? (path : String) : IO (Option DiskEntry) := do
  try
    let real ← IO.FS.realPath path
    if ← real.isDir then return some .directory
    match String.fromUTF8? (← IO.FS.readBinFile real) with
    | some text => return some (.file text)
    | none => return some .binary
  catch _ => return none

/-- Puts an entry where the disk has none yet. -/
def put (d : Disk) (path : String) (e : DiskEntry) : Disk :=
  match d.locate path with
  | .ok ⟨place, none, _⟩ => { d with entries := d.entries.insert place e }
  | _ => d

/-- Reads the entries along `path`. -/
def readAlong (d : Disk) (path : String) : IO Disk := do
  let start := if PathText.isAbsolute path then "/" else "."
  let mut d := d
  let mut seen := start
  for name in PathText.names path do
    seen := PathText.join seen name
    match ← entryAt? seen with
    | some e => d := put d seen e
    | none => return d
  return d

/-- Reads all entries below the directory at `path`. -/
partial def readBelow (d : Disk) (path : String) : IO Disk := do
  let mut d := d
  for child in ← (← IO.FS.realPath path).readDir do
    let path := PathText.join path child.fileName
    match ← entryAt? path with
    | some .directory => d ← readBelow (put d path .directory) path
    | some e => d := put d path e
    | none => pure ()
  return d

/-- The disk as far as a command on the project at `root` looks at it. -/
def readProject (d : Disk) (root : String) : IO Disk := do
  let root := if root.isEmpty then "." else root
  let d ← readAlong d root
  if d.isDirectory root then readBelow d root else return d

/-- Carries a plan out, and gives the report to print. -/
def perform (p : CommandLine.Plan) : IO CommandLine.Report := do
  match p.file with
  | none => return p.report
  | some f =>
    let failed (message : String) := (CommandLine.Plan.failed p.report.errors message).report
    match PathText.parent? f.path with
    | some dir =>
      if !dir.isEmpty then
        try IO.FS.createDirAll dir
        catch e => return failed (CommandLine.createFailure dir (toString e))
    | none => pure ()
    try
      IO.FS.writeFile f.path f.text
      return p.report
    catch e => return failed (CommandLine.writeFailure f.path (toString e))

end NetSchema.Program

open NetSchema in
def main (args : List String) : IO UInt32 := do
  let cwd := toString (← IO.currentDir)
  let d ← Program.readAlong { workingDirectory := PathText.names cwd } cwd
  let d ← Program.readProject d (CommandLine.projectRoot d args)
  let report ← Program.perform (CommandLine.plan d true args)
  IO.print report.output
  IO.eprint report.errors
  return report.exitCode.toUInt32
