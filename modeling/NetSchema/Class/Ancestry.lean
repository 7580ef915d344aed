import NetSchema.Class.Table
import NetSchema.Unvisited

/-!
# Base classes

The bases of a class are followed by name until a type is unknown, a class has no base, or a name
comes up again.  Every step lists a new base text of the table, which is why the walk ends.
-/

namespace NetSchema

/-- The names a walk along bases lists, and the name that it met for the second time. -/
structure BaseChain where
  names : List String
  closedBy : Option String
  deriving DecidableEq, Repr

namespace ClassTable

/-- All texts that name a base. -/
def baseTexts (t : ClassTable) : List String := t.classes.values.filterMap ClassDecl.base

/-- The bases above the type called `name`, where the names in `seen` have been listed. -/
def basesFrom (t : ClassTable) (seen : List String) (name : String) : BaseChain :=
  match hc : t.class? name with
  | none => ⟨[], none⟩
  | some c =>
    match hb : c.base with
    | none => ⟨[], none⟩
    | some base =>
      if hs : base ∈ seen then ⟨[], some base⟩
      else
        have hm : base ∈ t.baseTexts := List.mem_filterMap.2 ⟨c, mem_of_class? hc, hb⟩
        have := unvisited_cons_lt hm hs
        let above := t.basesFrom (base :: seen) base
        ⟨base :: above.names, above.closedBy⟩
termination_by unvisited t.baseTexts seen

def baseChain (t : ClassTable) (name : String) : BaseChain :=
  let above := t.basesFrom [name] name
  ⟨name :: above.names, above.closedBy⟩

/-- `name` and its bases up to the first unknown one, which is still listed. -/
def ancestryNames (t : ClassTable) (name : String) : List String := (t.baseChain name).names

/-- The known classes among `ancestryNames`. -/
def ancestry (t : ClassTable) (name : String) : List ClassDecl :=
  (t.ancestryNames name).filterMap t.class?

/-- A chain that closes on itself is logged each time it is walked. -/
def ancestryNotes (t : ClassTable) (name : String) : List LogRecord :=
  match (t.baseChain name).closedBy with
  | none => []
  | some base =>
    [⟨.warn, .classMembers,
      "class `" ++ name ++ "` has a circular base chain at `" ++ base ++ "`"⟩]

def isSubclassOf (t : ClassTable) (name base : String) : Bool :=
  (t.ancestryNames name).contains base

/-- The first class in the ancestry of a type that implements `interface`. -/
def implementer? (t : ClassTable) (type interface : String) : Option String :=
  ((t.ancestry type).find? fun c => c.implements interface).map ClassDecl.name

end ClassTable

end NetSchema
