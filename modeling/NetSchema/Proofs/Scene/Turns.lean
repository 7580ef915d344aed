import NetSchema.Scene.File

/-!
# Loops over tokens

A loop is given by its single turn, which either ends it or leaves a state for the next turn.  The
turns over the numbers of a vector and those of the first pass use up what `remaining` counts.  So
both loops end, and they end with what the recursive readers return.

* `exists_endsAfter`, `EndsAfter.answer`, `EndsAfter.keeps`: what single turns say about a loop;
* `componentsTurn`, `components_endsAfter`: vectors;
* `gatherTurn`, `gather_endsAfter`: the first pass.
-/

namespace NetSchema

/-! ## Loops -/

/-- Taking turns from `s` on comes to an end with `r` after `n` of them. -/
inductive EndsAfter {σ ρ : Type} (turn : σ → ρ ⊕ σ) : (n : Nat) → σ → ρ → Prop
  | done {s r} : turn s = .inl r → EndsAfter turn 1 s r
  | again {n s s' r} : turn s = .inr s' → EndsAfter turn n s' r → EndsAfter turn (n + 1) s r

section

variable {σ ρ α : Type} {turn : σ → ρ ⊕ σ} {n : Nat} {s : σ} {r : ρ}

/-- A loop ends if each turn uses up something. -/
theorem exists_endsAfter (left : σ → Nat) (h : ∀ s s', turn s = .inr s' → left s' < left s)
    (s : σ) : ∃ n r, n ≤ left s + 1 ∧ EndsAfter turn n s r := by
  induction hn : left s using Nat.strongRecOn generalizing s with
  | ind k ih =>
    cases hturn : turn s with
    | inl r => exact ⟨1, r, Nat.le_add_left 1 k, .done hturn⟩
    | inr s' =>
      have hlt : left s' < k := hn ▸ h s s' hturn
      obtain ⟨n, r, hle, hends⟩ := ih (left s') hlt s' rfl
      exact ⟨n + 1, r, Nat.succ_le_succ (Nat.le_trans hle hlt), .again hturn hends⟩

/-- The answer that no turn changes is that of the end. -/
theorem EndsAfter.answer {final : ρ → α} {answer : σ → α}
    (h : ∀ s, answer s = (turn s).elim final answer) (hends : EndsAfter turn n s r) :
    answer s = final r := by
  induction hends with
  | done hturn => rw [h, hturn, Sum.elim_inl]
  | again hturn _ ih => rw [h, hturn, Sum.elim_inr, ih]

/-- What each turn keeps holds at the end. -/
theorem EndsAfter.keeps {Before : σ → Prop} {After : ρ → Prop}
    (h : ∀ s, Before s → (turn s).elim After Before) (hends : EndsAfter turn n s r)
    (hs : Before s) : After r := by
  induction hends with
  | done hturn => simpa [hturn] using h _ hs
  | again hturn _ ih => exact ih (by simpa [hturn] using h _ hs)

end

/-- A turn that can fail, and then ends its loop. -/
def orFail {ε σ ρ : Type} : Except ε (ρ ⊕ σ) → Except ε ρ ⊕ σ
  | .error e => .inl (.error e)
  | .ok (.inl r) => .inl (.ok r)
  | .ok (.inr s) => .inr s

theorem elim_orFail {ε σ ρ : Type} (x : Except ε (ρ ⊕ σ)) (f : σ → Except ε ρ) :
    (orFail x).elim id f = x >>= Sum.elim .ok f := by
  cases x with
  | error e => rfl
  | ok r => cases r <;> rfl

theorem orFail_eq_inr_iff {ε σ ρ : Type} {x : Except ε (ρ ⊕ σ)} {s : σ} :
    orFail x = .inr s ↔ x = .ok (.inr s) := by
  cases x with
  | error e => simp [orFail]
  | ok r => cases r <;> simp [orFail]

namespace Cursor

/-! ## The numbers of a vector -/

/-- The turn from its comma on. -/
def commaTurn (xs : List Binary) (c : Cursor) :
    (Except SceneError (List Binary) × Cursor) ⊕ (List Binary × Cursor) :=
  if c.current = .comma then
    match c.advance with
    | (.error e, d) => .inl (.error e, d)
    | (.ok _, d) => .inr (xs, d)
  else .inl (.ok xs, c)

/-- A number, if there is one, and a comma, without which the vector ends. -/
def componentsTurn (s : List Binary × Cursor) :
    (Except SceneError (List Binary) × Cursor) ⊕ (List Binary × Cursor) :=
  match s.2.current with
  | .number x =>
    match s.2.advance with
    | (.error e, d) => .inl (.error e, d)
    | (.ok _, d) => commaTurn (s.1 ++ [x]) d
  | _ => commaTurn s.1 s.2

theorem components_eq_turn (s : List Binary × Cursor) :
    s.2.components s.1 = (componentsTurn s).elim id fun s' => s'.2.components s'.1 := by
  obtain ⟨xs, c⟩ := s
  unfold componentsTurn
  change c.components xs = _
  rw [components]
  split
  · next x hc =>
    simp only [hc]
    split
    · next ha =>
      simp only [ha]
      rfl
    · next d ha =>
      simp only [ha, commaTurn]
      split
      · split <;> next ha' => simp [ha']
      · rfl
  · next hc =>
    simp only [hc, commaTurn]
    split <;> next ha => simp [ha]
  · next hnumber hcomma =>
    rw [commaTurn, if_neg hcomma]
    split
    · next x hc => exact absurd hc (hnumber x)
    · rfl

theorem remaining_commaTurn {xs : List Binary} {c : Cursor} {s : List Binary × Cursor}
    (h : commaTurn xs c = .inr s) : s.2.remaining < c.remaining := by
  unfold commaTurn at h
  split at h
  · next hc =>
    have hlt := remaining_advance (c := c) (by simp [hc])
    split at h
    · cases h
    · next ha =>
      cases h
      rwa [ha] at hlt
  · cases h

theorem remaining_componentsTurn (s s' : List Binary × Cursor) (h : componentsTurn s = .inr s') :
    s'.2.remaining < s.2.remaining := by
  unfold componentsTurn at h
  split at h
  · next hc =>
    have hlt := remaining_advance (c := s.2) (by simp [hc])
    split at h
    · cases h
    · next ha =>
      rw [ha] at hlt
      exact Nat.lt_trans (remaining_commaTurn h) hlt
  · exact remaining_commaTurn h

/-- **Vectors.** -/
theorem components_endsAfter (xs : List Binary) (c : Cursor) :
    ∃ n ≤ c.remaining + 1, EndsAfter componentsTurn n (xs, c) (c.components xs) := by
  obtain ⟨n, r, hn, hends⟩ :=
    exists_endsAfter (fun s => s.2.remaining) remaining_componentsTurn (xs, c)
  have hr : c.components xs = r := hends.answer components_eq_turn
  exact ⟨n, hn, hr ▸ hends⟩

/-! ## The first pass -/

/-- What the first pass has found, where it is, and the faults it has passed over. -/
structure Gathering where
  vars : Variables := {}
  cursor : Cursor
  missed : List SceneError := []

/-- The end of a turn at a fault. -/
def Gathering.fail (s : Gathering) (e : SceneError) :
    (Except SceneError Variables × List SceneError) ⊕ Gathering :=
  .inl (.error e, s.missed)

/-- The turn from a value on, which `name` gets if there is one. -/
def valueTurn (name : String) (s : Gathering) : Gathering :=
  match s.cursor.value s.vars with
  | (.ok v, d) => { s with vars := s.vars.insert name v, cursor := d }
  | (.error e, d) => { s with cursor := d, missed := s.missed ++ [e] }

/-- The turn from behind an `@` on, up to the end of a definition if there is one. -/
def definitionTurn (s : Gathering) :
    (Except SceneError Variables × List SceneError) ⊕ Gathering :=
  match s.cursor.current with
  | .ident _ =>
    match s.cursor.ident with
    | (.error e, _) => s.fail e
    | (.ok name, d) =>
      if d.current = .equals then
        match d.advance with
        | (.error e, _) => s.fail e
        | (.ok _, d') => .inr (valueTurn name { s with cursor := d' })
      else .inr { s with cursor := d }
  | _ => .inr s

/-- A definition, or one other token, until the file ends. -/
def gatherTurn (s : Gathering) : (Except SceneError Variables × List SceneError) ⊕ Gathering :=
  if s.cursor.current = .endOfFile then .inl (.ok s.vars, s.missed)
  else
    match s.cursor.advance with
    | (.error e, _) => s.fail e
    | (.ok _, d) =>
      if s.cursor.current = .at then definitionTurn { s with cursor := d }
      else .inr { s with cursor := d }

theorem definitionTurn_other {s : Gathering} (h : ∀ name, s.cursor.current ≠ .ident name) :
    definitionTurn s = .inr s := by
  unfold definitionTurn
  split
  · next hname => exact absurd hname (h _)
  · rfl

theorem collectVariables_eq_turn (s : Gathering) :
    s.cursor.collectVariables s.vars =
      (gatherTurn s).elim Prod.fst fun s' => s'.cursor.collectVariables s'.vars := by
  unfold gatherTurn
  rw [collectVariables]
  split
  · rfl
  split
  · next ha =>
    simp only [ha]
    rfl
  next d ha =>
  simp only [ha]
  by_cases hat : s.cursor.current = .at
  · rw [if_neg (by simp [hat]), if_pos hat]
    split
    · next hname =>
      simp only [definitionTurn, hname]
      split
      · next hi =>
        simp only [hi]
        rfl
      next hi =>
      simp only [hi]
      split
      · split
        · next ha' =>
          simp only [ha']
          rfl
        next ha' =>
        simp only [ha', valueTurn]
        split <;> next hv => simp [hv]
      · rfl
    · next hname =>
      rw [definitionTurn_other hname]
      rfl
  · rw [if_pos hat, if_neg hat]
    rfl

theorem remaining_valueTurn_le (name : String) (s : Gathering) :
    (valueTurn name s).cursor.remaining ≤ s.cursor.remaining := by
  have hle := remaining_value_le s.vars s.cursor
  unfold valueTurn
  split <;> next hv => rwa [hv] at hle

theorem remaining_definitionTurn_le {s s' : Gathering} (h : definitionTurn s = .inr s') :
    s'.cursor.remaining ≤ s.cursor.remaining := by
  unfold definitionTurn at h
  split at h
  · split at h
    · cases h
    next name d hi =>
    have hlt := remaining_ident hi
    split at h
    · next he =>
      have hlt' := remaining_advance (c := d) (by simp [he])
      split at h
      · cases h
      next d' ha =>
      rw [ha] at hlt'
      cases h
      have hle := remaining_valueTurn_le name { s with cursor := d' }
      exact Nat.le_trans hle (Nat.le_of_lt (Nat.lt_trans hlt' hlt))
    · cases h
      exact Nat.le_of_lt hlt
  · cases h
    exact Nat.le_refl _

theorem remaining_gatherTurn (s s' : Gathering) (h : gatherTurn s = .inr s') :
    s'.cursor.remaining < s.cursor.remaining := by
  unfold gatherTurn at h
  split at h
  · cases h
  next hc =>
  have hlt := remaining_advance hc
  split at h
  · cases h
  next d ha =>
  rw [ha] at hlt
  split at h
  · exact Nat.lt_of_le_of_lt (remaining_definitionTurn_le h) hlt
  · cases h
    exact hlt

/-- **The first pass.** -/
theorem gather_endsAfter (vars : Variables) (c : Cursor) :
    ∃ n missed, n ≤ c.remaining + 1 ∧
      EndsAfter gatherTurn n { vars, cursor := c } (c.collectVariables vars, missed) := by
  obtain ⟨n, ⟨r, missed⟩, hn, hends⟩ :=
    exists_endsAfter (fun s : Gathering => s.cursor.remaining) remaining_gatherTurn
      { vars, cursor := c }
  have hr : c.collectVariables vars = r := hends.answer collectVariables_eq_turn
  exact ⟨n, missed, hn, hr ▸ hends⟩

end Cursor

end NetSchema
