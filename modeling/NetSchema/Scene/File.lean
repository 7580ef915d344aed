import NetSchema.Scene.Block

/-!
# Reading a scene text

A scene text is read twice.  The first pass gathers the variables: it looks for `@name = value`
anywhere and skips the values it cannot read.  The second pass reads the definitions and the node
blocks in order, with the variables of the first pass known from the start.
-/

namespace NetSchema

namespace Cursor

/-- The first pass from `c` on. -/
def collectVariables (vars : Variables) (c : Cursor) : Except SceneError Variables :=
  if hc : c.current = .endOfFile then .ok vars
  else
    have h₁ := remaining_advance hc
    match ha : c.advance with
    | (.error e, _) => .error e
    | (.ok _, d) =>
      have hd : d.remaining < c.remaining := by rw [ha] at h₁; exact h₁
      if c.current ≠ .at then collectVariables vars d
      else
        match d.current with
        | .ident _ =>
          have h₂ := remaining_ident_le d
          match hi : d.ident with
          | (.error e, _) => .error e
          | (.ok name, d₁) =>
            have hd₁ : d₁.remaining ≤ d.remaining := by rw [hi] at h₂; exact h₂
            if he : d₁.current = .equals then
              have h₃ := remaining_advance (c := d₁) (by simp [he])
              match ha' : d₁.advance with
              | (.error e, _) => .error e
              | (.ok _, d₂) =>
                have hd₂ : d₂.remaining < d₁.remaining := by rw [ha'] at h₃; exact h₃
                have h₄ := remaining_value_le vars d₂
                match hv : d₂.value vars with
                | (.ok v, d₃) =>
                  have : d₃.remaining ≤ d₂.remaining := by rw [hv] at h₄; exact h₄
                  collectVariables (vars.insert name v) d₃
                | (.error _, d₃) =>
                  have : d₃.remaining ≤ d₂.remaining := by rw [hv] at h₄; exact h₄
                  collectVariables vars d₃
            else collectVariables vars d₁
        | _ => collectVariables vars d
termination_by c.remaining

/-- A definition, after its `@`: the variables and the root key behind it. -/
def readDefinition (vars : Variables) (root : Option String) (c : Cursor) :
    Except SceneError (Variables × Option String × Ahead c) := do
  let (name, line, v, next) ← c.readField vars
  let root ←
    if name = "root" then
      match v with
      | .key k => pure (some k)
      | _ => throw (.invalidField line "@root" "a node key")
    else pure root
  return (vars.insert name v, root, next)

/-- The second pass from `c` on: the root key and the node blocks. -/
def readBlocks (vars : Variables) (root : Option String) (c : Cursor) :
    Except SceneError (Option String × List NodeBlock) :=
  match hc : c.current with
  | .endOfFile => .ok (root, [])
  | .at => do
    let ⟨d, hd⟩ ← c.step (by simp [hc])
    let (vars, root, ⟨d', hd'⟩) ← d.readDefinition vars root
    readBlocks vars root d'
  | .leftBracket => do
    let ⟨d, hd⟩ ← c.step (by simp [hc])
    let (b, ⟨d', hd'⟩) ← d.nodeBlock vars
    let (root, bs) ← readBlocks vars root d'
    return (root, b :: bs)
  | _ => .error (c.unexpected "`@variable` or `[node]`")
termination_by c.remaining

end Cursor

namespace TokenStream

/-- The cursor at the first token. -/
def first (tokens : TokenStream) : Except SceneError Cursor :=
  match (Cursor.start tokens).advance with
  | (.ok _, c) => .ok c
  | (.error e, _) => .error e

/-- The variables that the first pass finds. -/
def firstPass (tokens : TokenStream) : Except SceneError Variables := do
  (← tokens.first).collectVariables {}

/-- The root key and the node blocks of a scene text. -/
def blocks (tokens : TokenStream) : Except SceneError (Option String × List NodeBlock) := do
  let vars ← tokens.firstPass
  (← tokens.first).readBlocks vars none

end TokenStream

end NetSchema
