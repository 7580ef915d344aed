import NetSchema.Proofs.Compile.Traversal

/-!
# What earlier calls leave behind

A compiler is used by a list of calls, each of which may fail.  `after calls` is the state they
leave, and what one compilation keeps is an `Invariant` of all such states.

* `compile_traverses`: compiling follows the rules of `Traverses` whenever nothing is under way;
* `after_pending`: nothing is under way between calls;
* `Invariant.after`: an invariant holds after every list of calls.
-/

namespace NetSchema.Compiler

inductive Call where
  | run (roots : List String)
  | compile (path : String)
  | reset
  deriving DecidableEq, Repr

/-- The state after a call, whether it fails or not. -/
def perform (c : Compiler) (s : CompileState) : Call → CompileState
  | .run roots => (c.run roots s).2
  | .compile path => (c.compile path s).2
  | .reset => s.reset

/-- The state after a list of calls to a new compiler. -/
def after (c : Compiler) (calls : List Call) : CompileState := calls.foldl c.perform {}

variable {c : Compiler}

theorem after_compile (calls : List Call) (path : String) :
    c.after (calls ++ [.compile path]) = (c.compile path (c.after calls)).2 := by
  rw [after, List.foldl_append]
  rfl

theorem compile_traverses {s : CompileState} (hs : s.PendingIs []) (path : String) :
    c.Traverses (.enter [] none path) s (c.compile path s).1 (c.compile path s).2 :=
  enter_traverses (territory c.source path) [] none path (List.mem_cons_self ..) s hs

theorem pendingIs_empty (log : List LogRecord) : ({ log } : CompileState).PendingIs [] := by
  refine ⟨rfl, ?_⟩
  intro q
  constructor
  · intro h
    cases h
  · intro h
    cases h

/-- The state after a root has compiled to `d` in `s`: any scene that is no network scene is
complained about. -/
def rooted (c : Compiler) (root : String) (d : SceneData) (s : CompileState) : CompileState :=
  if d.isNetworkScene then s else s.absorb [.diagnostic (c.notNetworkScene root)]

theorem compileRoots_cons (root : String) (roots : List String) (s : CompileState) :
    c.compileRoots (root :: roots) s =
      match c.compile root s with
      | (.error e, s) => (.error e, s)
      | (.ok d, s) => c.compileRoots roots (c.rooted root d s) := by
  rw [compileRoots]
  rfl

theorem compileRoots_ok_cases {root : String} {roots : List String} {s s' : CompileState}
    (h : c.compileRoots (root :: roots) s = (.ok (), s')) :
    ∃ d s₁, c.compile root s = (.ok d, s₁) ∧
      c.compileRoots roots (c.rooted root d s₁) = (.ok (), s') := by
  rw [compileRoots_cons] at h
  rcases hres : c.compile root s with ⟨e | d, s₁⟩
  · rw [hres] at h
    cases h
  · rw [hres] at h
    exact ⟨d, s₁, rfl, h⟩

theorem compileRoots_append (roots more : List String) (s : CompileState) :
    c.compileRoots (roots ++ more) s =
      match c.compileRoots roots s with
      | (.error e, s) => (.error e, s)
      | (.ok (), s) => c.compileRoots more s := by
  induction roots generalizing s with
  | nil => rfl
  | cons root roots ih =>
    rw [List.cons_append, compileRoots_cons, compileRoots_cons]
    rcases c.compile root s with ⟨_ | d, s₁⟩
    · rfl
    · exact ih _

theorem rooted_keeps {P : CompileState → Prop} {s : CompileState} (hs : P s)
    (htold : ∀ fs, P (s.absorb fs)) (root : String) (d : SceneData) : P (c.rooted root d s) := by
  unfold rooted
  split
  · exact hs
  · exact htold _

/-! ## What calls keep -/

/-- An empty compiler has the property, and neither notes nor a compilation take it away. -/
structure Invariant (c : Compiler) (P : CompileState → Prop) : Prop where
  empty : ∀ log, P { log }
  noted : ∀ {s} rs, P s → P (s.note rs)
  told : ∀ {s} fs, P s → P (s.absorb fs)
  compiled : ∀ {path s r s'}, s.PendingIs [] → P s → c.Traverses (.enter [] none path) s r s' →
    P s'

section Kept

variable {P : CompileState → Prop}

theorem Invariant.compileRoots (h : c.Invariant P) (roots : List String) {s : CompileState}
    (hs : s.PendingIs []) (hP : P s) :
    (c.compileRoots roots s).2.PendingIs [] ∧ P (c.compileRoots roots s).2 := by
  induction roots generalizing s with
  | nil => exact ⟨hs, hP⟩
  | cons root roots ih =>
    have ht := compile_traverses (c := c) hs root
    rw [compileRoots_cons]
    cases hr : c.compile root s with
    | mk r s₁ =>
      rw [hr] at ht
      have hs₁ : s₁.PendingIs [] := ht.pending hs
      have hP₁ : P s₁ := h.compiled hs hP ht
      cases r with
      | error e => exact ⟨hs₁, hP₁⟩
      | ok d =>
        exact ih (rooted_keeps (P := fun s => s.PendingIs []) hs₁ (fun _ => hs₁) root d)
          (rooted_keeps hP₁ (fun _ => h.told _ hP₁) root d)

theorem Invariant.run (h : c.Invariant P) (roots : List String) (s : CompileState) :
    (c.run roots s).2.PendingIs [] ∧ P (c.run roots s).2 := by
  have hroots := h.compileRoots roots (pendingIs_empty s.log) (h.empty s.log)
  rw [Compiler.run]
  cases hr : c.compileRoots roots s.reset with
  | mk r s₁ =>
    rw [show c.compileRoots roots { log := s.log } = (r, s₁) from hr] at hroots
    cases r with
    | error e => exact hroots
    | ok u => exact ⟨hroots.1, h.noted _ hroots.2⟩

/-- An invariant holds after all lists of calls. -/
theorem Invariant.after (h : c.Invariant P) (calls : List Call) :
    (c.after calls).PendingIs [] ∧ P (c.after calls) := by
  unfold Compiler.after
  suffices hall : ∀ s : CompileState, s.PendingIs [] ∧ P s →
      (calls.foldl c.perform s).PendingIs [] ∧ P (calls.foldl c.perform s) from
    hall {} ⟨pendingIs_empty [], h.empty []⟩
  induction calls with
  | nil => exact fun _ hs => hs
  | cons call calls ih =>
    intro s hs
    apply ih
    cases call with
    | run roots => exact h.run roots s
    | compile path =>
      have ht := compile_traverses (c := c) hs.1 path
      exact ⟨ht.pending hs.1, h.compiled hs.1 hs.2 ht⟩
    | reset => exact ⟨pendingIs_empty s.log, h.empty s.log⟩

end Kept

/-- Nothing is under way between calls. -/
theorem after_pending (calls : List Call) : (c.after calls).PendingIs [] := by
  have h : c.Invariant fun _ => True :=
    ⟨fun _ => trivial, fun _ _ => trivial, fun _ _ => trivial, fun _ _ _ => trivial⟩
  exact (h.after calls).1

end NetSchema.Compiler
