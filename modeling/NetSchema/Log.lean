/-!
# Log records

What the library has to tell beside its results, as data: a level, the part that speaks, and a
text.  A record is shown or dropped by its level.
-/

namespace NetSchema

/-- Levels from the most urgent to the least. -/
inductive LogLevel where
  | warn
  | info
  | debug
  deriving DecidableEq, Repr

namespace LogLevel

def name : LogLevel → String
  | warn => "WARN"
  | info => "INFO"
  | debug => "DEBUG"

/-- Whether a record of level `l` passes a filter that shows everything down to `least`. -/
def shownAt (least l : LogLevel) : Bool := l.ctorIdx ≤ least.ctorIdx

end LogLevel

/-- The part of the program that a record comes from. -/
inductive LogSource where
  | classifier
  | classTable
  | classMembers
  | attributes
  | registry
  | compiler
  | projectFiles
  | project
  | commandLine
  deriving DecidableEq, Repr

/-- The name under which a part writes its records. -/
def LogSource.target : LogSource → String
  | classifier => "perro_net_types::classify"
  | classTable => "perro_net_meta::registry"
  | classMembers => "perro_net_meta::provider"
  | attributes => "perro_net_meta::attributes"
  | registry => "perro_net_compiler::registry"
  | compiler => "perro_net_compiler::compiler"
  | projectFiles => "perro_project::source"
  | project => "perro_project"
  | commandLine => "perro_net"

structure LogRecord where
  level : LogLevel
  source : LogSource
  text : String
  deriving DecidableEq, Repr

namespace LogRecord

/-- Level and text. -/
def brief (r : LogRecord) : String := r.level.name ++ " " ++ r.text

/-- Lines after the first are indented by four blanks. -/
def indented (text : String) : String :=
  String.ofList (text.toList.flatMap fun c =>
    if c = '\n' then ['\n', ' ', ' ', ' ', ' '] else [c])

/-- The line written for a record: level padded to five characters, source and text. -/
def line (r : LogRecord) : String :=
  "[" ++ r.level.name ++ (if r.level.name.length < 5 then " " else "") ++ " " ++ r.source.target ++
    "] " ++ indented r.text

end LogRecord

end NetSchema
