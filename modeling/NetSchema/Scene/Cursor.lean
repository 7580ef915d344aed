import NetSchema.Scene.Value

/-!
# Moving over tokens

A cursor holds the token to be looked at, the line on which it ends, and the tokens behind it.
Moving past a token fails where the next one cannot be read; the cursor is then behind that fault
with the old token still current.  Every move uses up some of what `remaining` counts.
-/

namespace NetSchema

structure Cursor where
  current : Token
  line : Nat
  rest : TokenStream
  deriving DecidableEq, Repr

/-- Values of variables by name. -/
abbrev Variables := OrderedMap String SceneValue

namespace Cursor

/-- Before the first token of a stream. -/
def start (tokens : TokenStream) : Cursor := ⟨.endOfFile, 1, tokens⟩

/-- What is left to move over, the current token included. -/
def remaining (c : Cursor) : Nat := c.rest.size + if c.current = .endOfFile then 0 else 1

/-- Moves to the next token. -/
def advance (c : Cursor) : Except SceneError Unit × Cursor :=
  match c.rest with
  | .finish line => (.ok (), ⟨.endOfFile, line, .finish line⟩)
  | .token t line rest => (.ok (), ⟨t, line, rest⟩)
  | .failure e _ rest => (.error e, { c with rest := rest })

/-- The complaint about the current token. -/
def unexpected (c : Cursor) (expected : String) : SceneError :=
  .unexpected c.line expected c.current.describe

/-- Moves past `t`. -/
def expect (t : Token) (c : Cursor) : Except SceneError Unit × Cursor :=
  if c.current = t then c.advance else (.error (c.unexpected t.describe), c)

/-- Moves past an identifier.  Where the token behind it cannot be read, the identifier is gone and
the file looks ended. -/
def ident (c : Cursor) : Except SceneError String × Cursor :=
  match c.current with
  | .ident name =>
    match { c with current := .endOfFile }.advance with
    | (.ok _, d) => (.ok name, d)
    | (.error e, d) => (.error e, d)
  | _ => (.error (c.unexpected "identifier"), c)

theorem remaining_advance {c : Cursor} (h : c.current ≠ .endOfFile) :
    c.advance.2.remaining < c.remaining := by
  unfold advance remaining
  split <;> simp_all [TokenStream.size]
  split <;> omega

theorem remaining_advance_le (c : Cursor) : c.advance.2.remaining ≤ c.rest.size +
    if c.current = .endOfFile then 0 else 1 := by
  unfold advance remaining
  split <;> simp_all [TokenStream.size]
  repeat' split
  all_goals omega

theorem remaining_expect_le (t : Token) (c : Cursor) :
    (c.expect t).2.remaining ≤ c.remaining := by
  unfold expect
  split
  · exact remaining_advance_le c
  · exact Nat.le_refl _

theorem remaining_ident_le (c : Cursor) : c.ident.2.remaining ≤ c.remaining := by
  unfold ident
  split
  · next name hc =>
    have h := remaining_advance_le { c with current := .endOfFile }
    have : c.remaining = c.rest.size + 1 := by simp [remaining, hc]
    simp at h
    split <;> simp_all <;> omega
  · exact Nat.le_refl _

theorem remaining_expect {t : Token} {c d : Cursor} {u : Unit} (ht : t ≠ .endOfFile)
    (h : c.expect t = (.ok u, d)) : d.remaining < c.remaining := by
  unfold expect at h
  split at h
  · next hc =>
    have := remaining_advance (c := c) (by rw [hc]; exact ht)
    rwa [h] at this
  · simp at h

theorem remaining_ident {c d : Cursor} {name : String} (h : c.ident = (.ok name, d)) :
    d.remaining < c.remaining := by
  unfold ident at h
  split at h
  · next n hc =>
    have hr : c.remaining = c.rest.size + 1 := by simp [remaining, hc]
    have hl := remaining_advance_le { c with current := .endOfFile }
    simp at hl
    split at h
    · next ha => simp at h; rw [ha] at hl; rw [← h.2]; simp at hl; omega
    · simp at h
  · simp at h

end Cursor

end NetSchema
