import NetSchema.Class.Mask
import NetSchema.Class.Table

/-!
# Reading attributes

The arguments of the first attribute of a name decide.  An argument of the wrong kind counts as not
given.  An interest mask that is not given is taken from the initializer of the attribute class.
-/

namespace NetSchema

def networkProperty : String := "NetworkProperty"
def networkFunction : String := "NetworkFunction"
def interestMaskArgument : String := "InterestMask"
def subtypeArgument : String := "Subtype"
def withPeerArgument : String := "WithPeer"

/-- The mask that stands for "not given". -/
def noMask : Int64 := -1

def findAttribute? (attributes : List Attribute) (attr : String) : Option Attribute :=
  attributes.find? fun a => a.is attr

/-- The argument as given, whatever its kind. -/
def argument? (attributes : List Attribute) (attr argument : String) : Option ArgumentValue :=
  findAttribute? attributes attr >>= fun a => a.args.get? argument

namespace ArgumentValue

def asBool? : ArgumentValue → Option Bool
  | bool b => some b
  | _ => none

def asInt? : ArgumentValue → Option Int64
  | int i => some i
  | _ => none

/-- A float, or an integer as a float. -/
def asFloat? : ArgumentValue → Option Binary
  | float x => some x
  | int i => some (binary64.ofInt i.toInt)
  | _ => none

def asString? : ArgumentValue → Option String
  | string s => some s
  | _ => none

end ArgumentValue

/-- The argument, or `default` if it is not given or of another kind. -/
def resolveArgument {α : Type} (kind? : ArgumentValue → Option α) (attributes : List Attribute)
    (attr argument : String) (default : α) : α :=
  ((argument? attributes attr argument).bind kind?).getD default

/-- An argument of the wrong kind is logged. -/
def argumentNotes {α : Type} (kind? : ArgumentValue → Option α) (attributes : List Attribute)
    (attr argument : String) : List LogRecord :=
  match argument? attributes attr argument with
  | none => []
  | some v =>
    match kind? v with
    | some _ => []
    | none =>
      [⟨.warn, .attributes,
        attr ++ "." ++ argument ++ " = " ++ v.text ++
          " has an unexpected type; using default"⟩]

/-- The mask of a property: its argument, or else the initializer of the attribute class, or else
zero. -/
def ClassLookup.interestMask (find : ClassLookup) (attributes : List Attribute) : InterestMask :=
  let given := resolveArgument ArgumentValue.asInt? attributes networkProperty interestMaskArgument
    noMask
  if given ≠ noMask then .explicit given
  else
    match find.trimmedFieldLiteral? networkProperty interestMaskArgument with
    | some text => .defaultLiteral text
    | none => .explicit 0

def interestMask (t : ClassTable) (attributes : List Attribute) : InterestMask :=
  ClassLookup.interestMask t.class? attributes

def interestMaskNotes (attributes : List Attribute) : List LogRecord :=
  argumentNotes ArgumentValue.asInt? attributes networkProperty interestMaskArgument

/-- The subtype that a property asks for, by name or number, if it asks for one. -/
def subtypeOverride (attributes : List Attribute) : Except String (Option WireSubtype) :=
  match argument? attributes networkProperty subtypeArgument with
  | none => .ok none
  | some (.string s) => (WireSubtype.ofText s).map some
  | some (.int i) =>
    match if 0 ≤ i.toInt then WireSubtype.ofNumber? i.toInt.toNat else none with
    | some s => .ok (some s)
    | none => .error (unknownSubtype (toString i.toInt))
  | some v => .error ("`Subtype = " ++ v.text ++ "` is not a subtype name")

/-- Whether the first parameter of a function is the calling peer. -/
def withPeer (attributes : List Attribute) : Bool :=
  resolveArgument ArgumentValue.asBool? attributes networkFunction withPeerArgument false

def withPeerNotes (attributes : List Attribute) : List LogRecord :=
  argumentNotes ArgumentValue.asBool? attributes networkFunction withPeerArgument

end NetSchema
