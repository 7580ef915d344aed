import NetSchema.Proofs.Scene.Positions
import NetSchema.Proofs.Scene.Turns

/-!
# Cursors in a text

A cursor moves over the calls of the lexer, and its line is that on which its token ends.  A move
that fails leaves both as they were, apart from a name, which gives way to the end of the file.  So
each fault that a reader returns has the line of what it is about.

* `Placed`: the line of a fault is right;
* `Located`, `Strays`: cursors of a text, in general and behind a fault;
* `Located.advance`, `Located.value`: moves and values;
* `Located.readField`, `Located.readClose`, `Located.readDefinition`: readers.
-/

namespace NetSchema

/-- The fault has the line of the literal or of the token that it is about. -/
def SceneError.Placed (text : String) : SceneError → Prop
  | .unexpected line _ found => ∃ t, EndsOn text t line ∧ found = t.describe
  | .invalidNumber line literal => LiesOn text (.invalidNumber line literal)
  | .unterminatedString line => LiesOn text (.unterminatedString line)
  | _ => True

variable {text : String} {p q : Position} {e : SceneError} {t : Token} {n : Nat}

theorem LiesOn.placed (h : LiesOn text e) : e.Placed text := by
  cases h with
  | number hne hline hnone hreads => exact .number hne hline hnone hreads
  | string hbody hreads => exact .string hbody hreads

/-! ## Streams -/

namespace TokenStream

theorem ofPosition_failure (h : nextToken p = (.error e, q)) :
    ofPosition p = .failure e q.line (ofPosition q) := by
  rw [ofPosition]
  split
  · next h' =>
    obtain ⟨rfl, rfl⟩ : e = _ ∧ q = _ := by simpa [h] using h'
    rfl
  · next h' => simp [h] at h'

/-- Behind the end of the file there is nothing but the end of the file. -/
theorem ofPosition_finish (h : nextToken p = (.ok .endOfFile, q)) :
    ofPosition p = .finish q.line ∧ ofPosition q = .finish q.line := by
  constructor
  · rw [ofPosition]
    split
    · next h' => simp [h] at h'
    · next h' =>
      obtain ⟨rfl, rfl⟩ : Token.endOfFile = _ ∧ q = _ := by simpa [h] using h'
      rfl
  · obtain ⟨rest, line⟩ := q
    obtain rfl : rest = [] := rest_eq_nil_of_nextToken h
    exact ofPosition_end line

theorem size_ofPosition_le (p : Position) : (ofPosition p).size ≤ p.rest.length := by
  fun_induction ofPosition p with
  | case1 p e q h hlt ih => exact Nat.lt_of_le_of_lt ih hlt
  | case2 p q h => exact Nat.zero_le _
  | case3 p t q h ht hlt ih => exact Nat.lt_of_le_of_lt ih hlt

end TokenStream

namespace Cursor

/-- What is in front of the cursor is what the calls after some of them give. -/
def Tracks (text : String) (c : Cursor) : Prop :=
  ∃ n, c.rest = TokenStream.ofPosition (Position.after text n)

/-- The cursor is at a token of the text, and has the line on which the token ends. -/
structure Located (text : String) (c : Cursor) : Prop where
  tracks : c.Tracks text
  ends : EndsOn text c.current c.line

/-- A fault may have taken the token of a cursor that was located. -/
structure Strays (text : String) (c : Cursor) : Prop where
  tracks : c.Tracks text
  ends : c.current ≠ .endOfFile → EndsOn text c.current c.line

/-- The cursor of a result is located, and a fault is placed. -/
def Lands (text : String) {α : Type} : Except SceneError α × Cursor → Prop
  | (.ok _, d) => d.Located text
  | (.error e, d) => e.Placed text ∧ d.Strays text

variable {c d : Cursor} {vars : Variables}

theorem Located.strays (h : c.Located text) : c.Strays text :=
  ⟨h.tracks, fun _ => h.ends⟩

theorem Strays.located (h : c.Strays text) (hc : c.current ≠ .endOfFile) : c.Located text :=
  ⟨h.tracks, h.ends hc⟩

section

variable {α : Type} {x : Except SceneError α × Cursor}

theorem Lands.located {a : α} (h : Lands text x) (hx : x = (.ok a, d)) : d.Located text := by
  rw [hx] at h
  exact h

theorem Lands.fault (h : Lands text x) (hx : x = (.error e, d)) :
    e.Placed text ∧ d.Strays text := by
  rw [hx] at h
  exact h

end

/-! ## Moves -/

/-- A move leads to the token of the next call, or past its fault. -/
theorem Tracks.advance (h : c.Tracks text) :
    (∃ d, c.advance = (.ok (), d) ∧ d.Located text) ∨
      ∃ e rest, c.advance = (.error e, { c with rest }) ∧ LiesOn text e ∧
        Tracks text { c with rest } := by
  obtain ⟨n, hrest⟩ := h
  rcases hnext : nextToken (Position.after text n) with ⟨r, q⟩
  have hafter : Position.after text (n + 1) = q := by rw [Position.after, hnext]
  cases r with
  | error e =>
    rw [TokenStream.ofPosition_failure hnext] at hrest
    refine Or.inr ⟨e, TokenStream.ofPosition q, ?_, nextToken_liesOn hnext, n + 1, ?_⟩
    · rw [Cursor.advance, hrest]
    · rw [hafter]
  | ok t =>
    refine Or.inl ?_
    by_cases ht : t = .endOfFile
    · subst ht
      obtain ⟨hfinish, hbehind⟩ := TokenStream.ofPosition_finish hnext
      rw [hfinish] at hrest
      refine ⟨⟨.endOfFile, q.line, .finish q.line⟩, ?_, ⟨n + 1, ?_⟩, nextToken_endsOn hnext⟩
      · rw [Cursor.advance, hrest]
      · rw [hafter, hbehind]
    · rw [TokenStream.ofPosition_token hnext ht] at hrest
      refine ⟨⟨t, q.line, TokenStream.ofPosition q⟩, ?_, ⟨n + 1, ?_⟩, nextToken_endsOn hnext⟩
      · rw [Cursor.advance, hrest]
      · rw [hafter]

theorem Located.advance (h : c.Located text) : Lands text c.advance := by
  rcases h.tracks.advance with ⟨d, ha, hd⟩ | ⟨e, rest, ha, he, hrest⟩
  · rw [ha]
    exact hd
  · rw [ha]
    exact ⟨he.placed, hrest, fun _ => h.ends⟩

theorem Located.unexpected (h : c.Located text) (expected : String) :
    (c.unexpected expected).Placed text :=
  ⟨c.current, h.ends, rfl⟩

theorem Located.expect (h : c.Located text) (t : Token) : Lands text (c.expect t) := by
  unfold Cursor.expect
  split
  · exact h.advance
  · exact ⟨h.unexpected _, h.strays⟩

theorem Located.ident (h : c.Located text) : Lands text c.ident := by
  unfold Cursor.ident
  split
  · next name hc =>
    have htracks : Tracks text { c with current := .endOfFile } := h.tracks
    rcases htracks.advance with ⟨d, ha, hd⟩ | ⟨e, rest, ha, he, hrest⟩
    · rw [ha]
      exact hd
    · -- the name is gone
      rw [ha]
      exact ⟨he.placed, hrest, fun hne => absurd rfl hne⟩
  · exact ⟨h.unexpected _, h.strays⟩

/-! ## Values -/

theorem commaTurn_lands (h : c.Located text) (xs : List Binary) :
    (commaTurn xs c).elim (Lands text) fun s => s.2.Located text := by
  unfold commaTurn
  split
  · split
    · next ha => exact h.advance.fault ha
    · next ha => exact h.advance.located ha
  · exact h

theorem componentsTurn_lands (s : List Binary × Cursor) (h : s.2.Located text) :
    (componentsTurn s).elim (Lands text) fun s' => s'.2.Located text := by
  unfold componentsTurn
  split
  · split
    · next ha => exact h.advance.fault ha
    · next ha => exact commaTurn_lands (h.advance.located ha) _
  · exact commaTurn_lands h _

theorem Located.components (h : c.Located text) (xs : List Binary) :
    Lands text (c.components xs) := by
  obtain ⟨n, -, hends⟩ := components_endsAfter xs c
  exact hends.keeps componentsTurn_lands h

theorem Located.vector (h : c.Located text) : Lands text c.vector := by
  unfold Cursor.vector
  split
  · next hxs => exact (h.components []).fault hxs
  next xs d hxs =>
  have hd := (h.components []).located hxs
  split
  · next he => exact (hd.expect .rightParen).fault he
  next d' he =>
  have hd' := (hd.expect .rightParen).located he
  split
  · exact hd'
  · exact ⟨trivial, hd'.strays⟩

theorem Located.variableUse (h : c.Located text) (vars : Variables) :
    Lands text (c.variableUse vars) := by
  unfold Cursor.variableUse
  split
  · next hi => exact h.ident.fault hi
  next name d hi =>
  have hd := h.ident.located hi
  split
  · exact hd
  · exact ⟨trivial, hd.strays⟩

theorem Located.passTo {next : Cursor → Except SceneError SceneValue × Cursor}
    (h : c.Located text) (hnext : ∀ d, d.Located text → Lands text (next d)) :
    Lands text (c.passTo next) := by
  unfold Cursor.passTo
  split
  · next ha => exact h.advance.fault ha
  · next ha => exact hnext _ (h.advance.located ha)

theorem Located.value (h : c.Located text) (vars : Variables) : Lands text (c.value vars) := by
  unfold Cursor.value
  split
  · exact h.passTo fun d hd => hd
  · exact h.passTo fun d hd => hd
  · exact h.passTo fun d hd => hd
  · exact h.passTo fun d hd => hd.variableUse vars
  · exact h.passTo fun d hd => hd.vector
  · exact ⟨h.unexpected _, h.strays⟩

end Cursor

/-! ## Readers -/

/-- A fault is placed, and a result has the property `P`. -/
def Safe {α : Type} (text : String) (P : α → Prop) : Except SceneError α → Prop
  | .ok a => P a
  | .error e => e.Placed text

theorem Safe.bind {α β : Type} {P : α → Prop} {Q : β → Prop} {x : Except SceneError α}
    {f : α → Except SceneError β} (hx : Safe text P x) (hf : ∀ a, P a → Safe text Q (f a)) :
    Safe text Q (x >>= f) := by
  cases x with
  | error e => exact hx
  | ok a => exact hf a hx

namespace Cursor

variable {c : Cursor} {vars : Variables}

theorem Located.safe_unexpected {α : Type} {P : α → Prop} (h : c.Located text) (expected : String) :
    Safe text P (.error (c.unexpected expected)) :=
  h.unexpected expected

theorem Located.step (h : c.Located text) (hc : c.current ≠ .endOfFile) :
    Safe text (fun d => d.1.Located text) (c.step hc) := by
  unfold Cursor.step
  split
  · next ha => exact h.advance.located ha
  · next ha => exact (h.advance.fault ha).1

theorem Located.readToken (h : c.Located text) {t : Token} (ht : t ≠ .endOfFile) :
    Safe text (fun d => d.1.Located text) (c.readToken t ht) := by
  unfold Cursor.readToken
  split
  · next he => exact (h.expect t).located he
  · next he => exact ((h.expect t).fault he).1

theorem Located.readName (h : c.Located text) :
    Safe text (fun r => r.2.1.Located text) c.readName := by
  unfold Cursor.readName
  split
  · next hi => exact h.ident.located hi
  · next hi => exact (h.ident.fault hi).1

theorem Located.readValue (h : c.Located text) (vars : Variables) :
    Safe text (fun r => r.2.1.Located text) (c.readValue vars) := by
  unfold Cursor.readValue
  split
  · next hv => exact (h.value vars).located hv
  · next hv => exact ((h.value vars).fault hv).1

theorem Located.readField (h : c.Located text) (vars : Variables) :
    Safe text (fun r => r.2.2.2.1.Located text) (c.readField vars) := by
  refine h.readName.bind ?_
  rintro ⟨name, d, hlt⟩ hd
  refine (Located.readToken hd _).bind ?_
  rintro ⟨d', hlt'⟩ hd'
  refine (Located.readValue hd' vars).bind ?_
  rintro ⟨v, d'', hlt''⟩ hd''
  exact hd''

theorem Located.readClose (h : c.Located text) (opened : String) :
    Safe text (fun d => d.1.Located text) (c.readClose opened) := by
  refine h.readName.bind ?_
  rintro ⟨closed, d, hlt⟩ hd
  refine (Located.readToken hd _).bind ?_
  rintro ⟨d', hlt'⟩ hd'
  dsimp only
  split
  · trivial
  · exact hd'

theorem Located.readDefinition (h : c.Located text) (vars : Variables) (root : Option String) :
    Safe text (fun r => r.2.2.1.Located text) (c.readDefinition vars root) := by
  refine (h.readField vars).bind ?_
  rintro ⟨name, line, v, d⟩ hd
  dsimp only
  split
  · split
    · exact hd
    · trivial
  · exact hd

theorem setField_safe (line : Nat) (name : String) (v : SceneValue) (b : NodeBlock) :
    Safe text (fun _ => True) (setField line name v b) := by
  unfold setField
  repeat' split
  all_goals trivial

end Cursor

end NetSchema
