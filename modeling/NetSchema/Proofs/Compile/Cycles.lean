import NetSchema.Proofs.Compile.Soundness

/-!
# Cycles of instances

* `compile_finds_cycles`: compiling ends whatever was called before, fails where instances lead
  round in a cycle, and reports only cycles that are there.
-/

namespace NetSchema.Compiler

variable {c : Compiler} {path : String}

theorem Settled.of_reaches {q : String} (h : c.Settled path)
    (hq : Relation.ReflTransGen c.Instances path q) : c.Settled q := by
  induction hq with
  | refl => exact h
  | tail _ hi ih =>
    cases ih with
    | intro _ _ hinst => exact hinst _ hi

/-- A settled descriptor does not lead back to itself. -/
theorem Settled.acyclic (h : c.Settled path) : ¬ Relation.TransGen c.Instances path path := by
  induction h with
  | intro _ _ _ ih =>
    intro hcycle
    obtain ⟨inst, hi, hback⟩ := Relation.TransGen.head'_iff.mp hcycle
    exact ih inst hi (.tail' hback hi)

/-- **Cycles are found, and only cycles.**  After any calls, compiling has the one outcome that the
rules of `Traverses` give, which tell a cycle by the memo alone and bound no depth.  It does not
succeed where instances lead to a descriptor that leads back to itself, the chain of an error is
such a cycle, and no descriptor is left under way. -/
theorem compile_finds_cycles (c : Compiler) (calls : List Call) (path : String) :
    (∀ r s', c.compile path (c.after calls) = (r, s') ↔
      c.Traverses (.enter [] none path) (c.after calls) r s') ∧
    (∀ q, Relation.ReflTransGen c.Instances path q → Relation.TransGen c.Instances q q →
      ∀ data, (c.compile path (c.after calls)).1 ≠ .ok data) ∧
    (∀ q chain, (c.compile path (c.after calls)).1 = .error (.circularInstancing q chain) →
      Relation.ReflTransGen c.Instances path q ∧ c.IsCycle q chain) ∧
    (∀ q, (c.compile path (c.after calls)).2.memo.isPending q = false) := by
  have hpending := after_pending (c := c) calls
  have ht := compile_traverses (c := c) hpending path
  refine ⟨?_, ?_, ?_, ?_⟩
  · intro r s'
    constructor
    · intro h
      rw [h] at ht
      exact ht
    · intro h
      obtain ⟨hr, hs⟩ := ht.unique h
      exact Prod.ext hr hs
  · intro q hq hcycle data h
    exact ((compiled_of_ok h).settled.of_reaches hq).acyclic hcycle
  · intro q chain h
    have hends := compile_ends hpending (after_sound calls) path
    rw [h] at hends
    obtain ⟨q', hq', hfault⟩ := hends
    cases hfault with
    | cyclic hcycle => exact ⟨hq', hcycle⟩
    | blamed _ _ _ hblames => exact hblames.elim
  · intro q
    rw [← Bool.not_eq_true, Memo.isPending_iff, (ht.pending hpending).get?_iff]
    exact List.not_mem_nil

/-! ## Two scenes in a ring -/

namespace Ring

def compiler : Compiler where
  source := .ofFiles ((OrderedMap.empty.insert "x"
    "[r]\n[/r] [n]\nparent=r\ninstance=\"y\"\n[/n]").insert "y"
    "[r]\n[/r] [n]\nparent=r\ninstance=\"x\"\n[/n]")
  rules := { classes := {} }

def root : SceneNode where
  key := "r"
  name := "r"
  parent := none

/-- The node that instances the other scene. -/
def link (inst : String) : SceneNode where
  key := "n"
  name := "n"
  parent := some "."
  instance? := some inst

def scene (inst : String) : Descriptor := ⟨"r", [root, link inst]⟩

/-- The state in which a scene that was met in `s` gets to its link. -/
def linked (path inst : String) (s : CompileState) : CompileState :=
  ((compiler.opened path (scene inst) s).note (compiler.rules.networkClassNotes root)).note
    (compiler.rules.networkClassNotes (link inst))

theorem scene_fails (referrer : Option String) {stack : List String} {path inst : String}
    {s s' : CompileState} {e : SchemaError} (hn : s.memo.get? path = none)
    (hd : compiler.descriptor? path = some (scene inst))
    (he : compiler.Traverses
      (.enter (stack ++ [path]) (some (path ++ ":" ++ (link inst).path)) inst)
      (linked path inst s) (.error e) s') :
    compiler.Traverses (.enter stack referrer path) s (.error e) (s'.abandon path) :=
  .failed hn hd rfl (.next (.bare rfl rfl) (.stops (.instanceFails rfl rfl he)))

theorem compile_ring :
    (compiler.compile "x" (compiler.after [])).1 =
      .error (.circularInstancing "x" ["x", "y", "x"]) := by
  have hx : compiler.Traverses
      (.enter ([] ++ ["x"] ++ ["y"]) (some ("y" ++ ":" ++ (link "x").path)) "x")
      (linked "y" "x" (linked "x" "y" {})) _ _ := .cyclic rfl
  have hy := scene_fails (some ("x" ++ ":" ++ (link "y").path)) rfl (by with_unfolding_all rfl) hx
  have hring := scene_fails none rfl (by with_unfolding_all rfl) hy
  exact ((compile_traverses (pendingIs_empty []) "x").unique hring).1

/-- The ring is reported as it is. -/
theorem ring_is_found :
    (compiler.compile "x" (compiler.after [])).1 =
        .error (.circularInstancing "x" ["x", "y", "x"]) ∧
      compiler.IsCycle "x" ["x", "y", "x"] :=
  ⟨compile_ring, ((compile_finds_cycles compiler [] "x").2.2.1 _ _ compile_ring).2⟩

end Ring

end NetSchema.Compiler
