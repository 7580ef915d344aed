import NetSchema.Scene.Cursor

/-!
# Reading a value

A value is a number, a string, a word, a variable, or a vector of numbers between parentheses.
Commas in a vector may repeat or stand at its ends; only the count of the numbers matters.
-/

namespace NetSchema

/-- `true` and `false` are truth values, every other word is a key. -/
def wordValue (name : String) : SceneValue :=
  if name = "true" then .bool true
  else if name = "false" then .bool false
  else .key name

/-- The vector with the given components, if there are two to four. -/
def vectorOf? : List Binary → Option SceneValue
  | [x, y] => some (.vector2 x y)
  | [x, y, z] => some (.vector3 x y z)
  | [x, y, z, w] => some (.vector4 x y z w)
  | _ => none

namespace Cursor

/-- The numbers of a vector up to a token that is neither a number nor a comma, or to a number that
no comma precedes. -/
def components (xs : List Binary) (c : Cursor) : Except SceneError (List Binary) × Cursor :=
  match hc : c.current with
  | .number x =>
    have h₁ := remaining_advance (c := c) (by simp [hc])
    match h : c.advance with
    | (.error e, d) => (.error e, d)
    | (.ok _, d) =>
      if hd : d.current = .comma then
        have h₂ := remaining_advance (c := d) (by simp [hd])
        match h' : d.advance with
        | (.error e, d') => (.error e, d')
        | (.ok _, d') =>
          have : d'.remaining < c.remaining := by
            rw [h] at h₁; rw [h'] at h₂; exact Nat.lt_trans h₂ h₁
          components (xs ++ [x]) d'
      else (.ok (xs ++ [x]), d)
  | .comma =>
    have h₁ := remaining_advance (c := c) (by simp [hc])
    match h : c.advance with
    | (.error e, d) => (.error e, d)
    | (.ok _, d) =>
      have : d.remaining < c.remaining := by rw [h] at h₁; exact h₁
      components xs d
  | _ => (.ok xs, c)
termination_by c.remaining

/-- The rest of a vector after its opening parenthesis. -/
def vector (c : Cursor) : Except SceneError SceneValue × Cursor :=
  match c.components [] with
  | (.error e, d) => (.error e, d)
  | (.ok xs, d) =>
    match d.expect .rightParen with
    | (.error e, d') => (.error e, d')
    | (.ok _, d') =>
      match vectorOf? xs with
      | some v => (.ok v, d')
      | none => (.error (.invalidVector d.line xs.length), d')

/-- The value of a variable, after the `@`. -/
def variableUse (vars : Variables) (c : Cursor) : Except SceneError SceneValue × Cursor :=
  match c.ident with
  | (.error e, d) => (.error e, d)
  | (.ok name, d) =>
    match vars.get? name with
    | some v => (.ok v, d)
    | none => (.error (.unknownVariable c.line name), d)

/-- Moves past the current token and on to `next`. -/
def passTo (c : Cursor) (next : Cursor → Except SceneError SceneValue × Cursor) :
    Except SceneError SceneValue × Cursor :=
  match c.advance with
  | (.error e, d) => (.error e, d)
  | (.ok _, d) => next d

/-- Reads a value, with `vars` for the variables in it. -/
def value (vars : Variables) (c : Cursor) : Except SceneError SceneValue × Cursor :=
  match c.current with
  | .number x => c.passTo fun d => (.ok (.number x), d)
  | .string s => c.passTo fun d => (.ok (.string s), d)
  | .ident name => c.passTo fun d => (.ok (wordValue name), d)
  | .at => c.passTo (variableUse vars)
  | .leftParen => c.passTo vector
  | _ => (.error (c.unexpected "value"), c)

theorem remaining_components_le (xs : List Binary) (c : Cursor) :
    (c.components xs).2.remaining ≤ c.remaining := by
  fun_induction components xs c <;> simp_all <;> omega

theorem remaining_vector_le (c : Cursor) : c.vector.2.remaining ≤ c.remaining := by
  have hc := remaining_components_le [] c
  unfold vector
  split
  · next h => rw [h] at hc; exact hc
  · next xs d h =>
    rw [h] at hc
    have he := remaining_expect_le .rightParen d
    simp only at hc
    split
    · next h' => rw [h'] at he; simp at he ⊢; omega
    · next h' => rw [h'] at he; split <;> (simp at he ⊢; omega)

theorem remaining_variableUse_le (vars : Variables) (c : Cursor) :
    (c.variableUse vars).2.remaining ≤ c.remaining := by
  have hi := remaining_ident_le c
  unfold variableUse
  split
  · next h => rw [h] at hi; exact hi
  · next h => rw [h] at hi; split <;> exact hi

theorem remaining_passTo {c : Cursor} {next : Cursor → Except SceneError SceneValue × Cursor}
    (hc : c.current ≠ .endOfFile) (hn : ∀ d, (next d).2.remaining ≤ d.remaining) :
    (c.passTo next).2.remaining < c.remaining := by
  have ha := remaining_advance hc
  unfold passTo
  split
  · next h => rw [h] at ha; exact ha
  · next h => rw [h] at ha; exact Nat.lt_of_le_of_lt (hn _) ha

theorem remaining_value_le (vars : Variables) (c : Cursor) :
    (c.value vars).2.remaining ≤ c.remaining := by
  unfold value
  split
  · next h => exact Nat.le_of_lt (remaining_passTo (by simp [h]) fun _ => Nat.le_refl _)
  · next h => exact Nat.le_of_lt (remaining_passTo (by simp [h]) fun _ => Nat.le_refl _)
  · next h => exact Nat.le_of_lt (remaining_passTo (by simp [h]) fun _ => Nat.le_refl _)
  · next h =>
    exact Nat.le_of_lt (remaining_passTo (by simp [h]) (remaining_variableUse_le vars))
  · next h => exact Nat.le_of_lt (remaining_passTo (by simp [h]) remaining_vector_le)
  · exact Nat.le_refl _

theorem remaining_value {vars : Variables} {c d : Cursor} {v : SceneValue}
    (h : c.value vars = (.ok v, d)) : d.remaining < c.remaining := by
  have hd : d = (c.value vars).2 := by rw [h]
  subst hd
  unfold value at h ⊢
  split at h
  · next hc => exact remaining_passTo (by simp [hc]) fun _ => Nat.le_refl _
  · next hc => exact remaining_passTo (by simp [hc]) fun _ => Nat.le_refl _
  · next hc => exact remaining_passTo (by simp [hc]) fun _ => Nat.le_refl _
  · next hc => exact remaining_passTo (by simp [hc]) (remaining_variableUse_le vars)
  · next hc => exact remaining_passTo (by simp [hc]) remaining_vector_le
  · simp at h

end Cursor

end NetSchema
