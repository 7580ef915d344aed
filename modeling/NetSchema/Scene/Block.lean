import NetSchema.Scene.Literal

/-!
# Reading blocks

A node block `[key] … [/key]` holds fields and at most one typed block; a typed block
`[Type] … [/Type]` holds fields and nested typed blocks, of which the last is its base.  Reading
stops at the first fault.  Every reader returns a cursor that is further ahead.
-/

namespace NetSchema

/-- A node as written, with its parent still a key. -/
structure NodeBlock where
  key : String
  name : Option String := none
  parent : Option String := none
  properties : SceneFields := {}
  instance? : Option String := none
  data : Option TypedBlock := none
  deriving Repr

/-- What the node is called. -/
def NodeBlock.displayName (b : NodeBlock) : String := b.name.getD b.key

namespace Cursor

/-- The cursors that have less in front of them than `c`. -/
abbrev Ahead (c : Cursor) := { d : Cursor // d.remaining < c.remaining }

/-- Moves past a token that is not the end of the file. -/
def step (c : Cursor) (hc : c.current ≠ .endOfFile) : Except SceneError (Ahead c) :=
  match h : c.advance with
  | (.ok _, d) => .ok ⟨d, by have := remaining_advance hc; rwa [h] at this⟩
  | (.error e, _) => .error e

def readToken (t : Token) (ht : t ≠ .endOfFile) (c : Cursor) : Except SceneError (Ahead c) :=
  match h : c.expect t with
  | (.ok _, d) => .ok ⟨d, remaining_expect ht h⟩
  | (.error e, _) => .error e

def readName (c : Cursor) : Except SceneError (String × Ahead c) :=
  match h : c.ident with
  | (.ok name, d) => .ok (name, ⟨d, remaining_ident h⟩)
  | (.error e, _) => .error e

def readValue (vars : Variables) (c : Cursor) : Except SceneError (SceneValue × Ahead c) :=
  match h : c.value vars with
  | (.ok v, d) => .ok (v, ⟨d, remaining_value h⟩)
  | (.error e, _) => .error e

/-- A name, `=` and a value, with the line on which the value begins. -/
def readField (vars : Variables) (c : Cursor) :
    Except SceneError (String × Nat × SceneValue × Ahead c) := do
  let (name, ⟨d, hd⟩) ← c.readName
  let ⟨d', hd'⟩ ← d.readToken .equals (by simp)
  let (v, ⟨d'', hd''⟩) ← d'.readValue vars
  return (name, d'.line, v, ⟨d'', by omega⟩)

/-- The name and the bracket that close a block called `opened`, after the slash. -/
def readClose (opened : String) (c : Cursor) : Except SceneError (Ahead c) := do
  let (closed, ⟨d, hd⟩) ← c.readName
  let ⟨d', hd'⟩ ← d.readToken .rightBracket (by simp)
  if closed ≠ opened then throw (.mismatchedClose c.line opened closed)
  return ⟨d', by omega⟩

mutual

/-- A typed block, after its opening bracket. -/
def typedBlock (vars : Variables) (c : Cursor) : Except SceneError (TypedBlock × Ahead c) := do
  let (type, ⟨d, hd⟩) ← c.readName
  let ⟨d', hd'⟩ ← d.readToken .rightBracket (by simp)
  let (block, ⟨d'', hd''⟩) ← typedBody vars type {} none d'
  return (block, ⟨d'', by omega⟩)
termination_by c.remaining

/-- What is in a typed block, up to its end. -/
def typedBody (vars : Variables) (type : String) (fields : SceneFields) (base : Option TypedBlock)
    (c : Cursor) : Except SceneError (TypedBlock × Ahead c) :=
  match hc : c.current with
  | .leftBracket => do
    let ⟨d, hd⟩ ← c.step (by simp [hc])
    if hs : d.current = .slash then
      let ⟨d', hd'⟩ ← d.step (by simp [hs])
      let ⟨d'', hd''⟩ ← d'.readClose type
      return (.ofBase type fields base, ⟨d'', by omega⟩)
    else
      let (nested, ⟨d', hd'⟩) ← typedBlock vars d
      let (block, ⟨d'', hd''⟩) ← typedBody vars type fields (some nested) d'
      return (block, ⟨d'', by omega⟩)
  | .ident _ => do
    let (name, _, v, ⟨d, hd⟩) ← c.readField vars
    let (block, ⟨d', hd'⟩) ← typedBody vars type (fields.insert name v) base d
    return (block, ⟨d', by omega⟩)
  | _ => .error (c.unexpected ("field or `[/" ++ type ++ "]`"))
termination_by c.remaining

end

/-- Puts a field into a node block.  `line` is the line of its name. -/
def setField (line : Nat) (name : String) (v : SceneValue) (b : NodeBlock) :
    Except SceneError NodeBlock :=
  if name = "name" then
    match v with
    | .string s => .ok { b with name := some s }
    | _ => .error (.invalidField line "name" "a string")
  else if name = "parent" then
    match v with
    | .key k => .ok { b with parent := some k }
    | _ => .error (.invalidField line "parent" "a node key")
  else if name = "instance" then
    match v with
    | .string s => .ok { b with instance? := some s }
    | _ => .error (.invalidField line "instance" "a descriptor path string")
  else if name = "script" && v.asString?.isNone then
    .error (.invalidField line "script" "a script path string")
  else .ok { b with properties := b.properties.insert name v }

/-- The fields of a node. -/
def nodeFields (vars : Variables) (b : NodeBlock) (c : Cursor) :
    Except SceneError (NodeBlock × { d : Cursor // d.remaining ≤ c.remaining }) :=
  match c.current with
  | .ident _ => do
    let (name, _, v, ⟨d, hd⟩) ← c.readField vars
    let b ← setField c.line name v b
    let (b, ⟨d', hd'⟩) ← nodeFields vars b d
    return (b, ⟨d', by omega⟩)
  | _ => .ok (b, ⟨c, Nat.le_refl _⟩)
termination_by c.remaining

/-- The typed block of a node, where the bracket that was just passed opens one. -/
def nodeData (vars : Variables) (c : Cursor) :
    Except SceneError (Option TypedBlock × { d : Cursor // d.remaining ≤ c.remaining }) :=
  if c.current = .slash then .ok (none, ⟨c, Nat.le_refl _⟩)
  else do
    let (block, ⟨d, hd⟩) ← typedBlock vars c
    let ⟨d', hd'⟩ ← d.readToken .leftBracket (by simp)
    return (some block, ⟨d', by omega⟩)

/-- A node block, after its opening bracket. -/
def nodeBlock (vars : Variables) (c : Cursor) : Except SceneError (NodeBlock × Ahead c) := do
  let (key, ⟨c₁, h₁⟩) ← c.readName
  let ⟨c₂, h₂⟩ ← c₁.readToken .rightBracket (by simp)
  let (b, ⟨c₃, h₃⟩) ← nodeFields vars { key } c₂
  let ⟨c₄, h₄⟩ ← c₃.readToken .leftBracket (by simp)
  let (data, ⟨c₅, h₅⟩) ← nodeData vars c₄
  let ⟨c₆, h₆⟩ ← c₅.readToken .slash (by simp)
  let ⟨c₇, h₇⟩ ← c₆.readClose key
  return ({ b with data }, ⟨c₇, by omega⟩)

end Cursor

end NetSchema
