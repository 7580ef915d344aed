import NetSchema.Proofs.Compile.Cycles

/-!
# Failing again

A task that fails leaves compiled scenes and given numbers behind.  When it is done again it finds
these in the memo and in the registry, so it takes another way, but to the same fault.

* `Traverses.again`: a task that has failed fails with the same error in every state that has the
  same scenes compiled, the same ones under way and the same registry as the state it has left;
* `compile_fails_again`: so does a call, and it leaves memo and registry as it found them.
-/

namespace NetSchema

namespace CompileState

variable {s s₁ s' t t' t₁ t₂ : CompileState} {path : String}

/-- Both states have the same scenes compiled, the same ones under way and the same registry. -/
structure Like (s t : CompileState) : Prop where
  memo : ∀ q, t.memo.get? q = s.memo.get? q
  stack : t.stack = s.stack
  registry : t.registry = s.registry

/-- From `t` to `t'`, descriptors may have been parsed again and diagnostics told again, but nothing
else has happened. -/
structure Repeats (t t' : CompileState) : Prop where
  entries : t'.memo.entries = t.memo.entries
  stack : t'.stack = t.stack
  registry : t'.registry = t.registry
  parses : t.memo.parses ≤ t'.memo.parses
  diagnostics : t.diagnostics <+: t'.diagnostics

theorem Repeats.refl (t : CompileState) : t.Repeats t := ⟨rfl, rfl, rfl, le_rfl, List.prefix_rfl⟩

theorem Repeats.trans (h : t.Repeats t₁) (h' : t₁.Repeats t₂) : t.Repeats t₂ :=
  ⟨h'.entries.trans h.entries, h'.stack.trans h.stack, h'.registry.trans h.registry,
    h.parses.trans h'.parses, h.diagnostics.trans h'.diagnostics⟩

theorem repeats_note (t : CompileState) (rs : List LogRecord) : t.Repeats (t.note rs) :=
  ⟨rfl, rfl, rfl, le_rfl, List.prefix_rfl⟩

theorem repeats_absorb (t : CompileState) (fs : List Finding) : t.Repeats (t.absorb fs) :=
  ⟨rfl, rfl, rfl, le_rfl, List.prefix_append _ _⟩

/-- What has been done in between is undone, but for what `Repeats` allows. -/
theorem Repeats.abandon (h : t₁.Repeats t₂) (hn : t.memo.get? path = none)
    (hentries : t₁.memo.entries = t.memo.entries.insert path .pending)
    (hstack : t₁.stack = t.stack ++ [path])
    (hregistry : t₁.registry = t.registry) (hparses : t.memo.parses ≤ t₁.memo.parses)
    (hdiagnostics : t₁.diagnostics = t.diagnostics) : t.Repeats (t₂.abandon path) := by
  have hmemo : t₂.memo.get? path = some .pending := by
    rw [Memo.get?, h.entries, hentries, OrderedMap.get?_insert, if_pos rfl]
  have hmemo' : (t₂.abandon path).memo =
      { t₂.memo with entries := t₂.memo.entries.erase path } := by
    rw [memo_abandon, Memo.abandon, if_pos (Memo.isPending_iff.mpr hmemo)]
  refine ⟨?_, ?_, h.registry.trans hregistry, ?_, hdiagnostics ▸ h.diagnostics⟩
  · rw [hmemo']
    dsimp only
    rw [h.entries, hentries, OrderedMap.erase_insert (OrderedMap.get?_eq_none_iff.mp hn)]
  · rw [stack_abandon, h.stack, hstack, List.dropLast_concat]
  · rw [hmemo']
    exact hparses.trans h.parses

theorem Repeats.get? (h : t.Repeats t') (q : String) : t'.memo.get? q = t.memo.get? q := by
  rw [Memo.get?, h.entries]
  rfl

theorem Like.repeats (h : s.Like t) (h' : t.Repeats t') : s.Like t' :=
  ⟨fun q => (h'.get? q).trans (h.memo q), h'.stack.trans h.stack, h'.registry.trans h.registry⟩

theorem Like.chainTo (h : s.Like t) (path : String) : t.chainTo path = s.chainTo path := by
  rw [CompileState.chainTo, h.stack, CompileState.chainTo]

theorem Like.get?_none (h : (s.abandon path).Like t) (hp : s.memo.get? path = some .pending) :
    t.memo.get? path = none := by
  rw [h.memo, memo_abandon, Memo.get?_abandon hp, if_pos rfl]

/-- A scene that has got its number gets the same one from any registry that has grown since, and
nothing is done but to note it. -/
theorem number_again {b : Bool} {id : Option SceneId} (h : s.number path b = (.ok id, s₁))
    (hg : s₁.registry.scenes <+: t.registry.scenes) :
    ∃ rs, t.number path b = (.ok id, t.note rs) := by
  cases b with
  | false =>
    cases h
    exact ⟨[], by rw [note, List.append_nil]; rfl⟩
  | true =>
    obtain ⟨id, rfl⟩ := Option.isSome_iff_exists.mp (isSome_of_number h)
    have hid := Registry.sceneId?_of_prefix (sceneId?_of_number h) hg
    have hregister : t.registry.register path = .ok (id, t.registry) := by
      rw [Registry.register, hid]
    refine ⟨t.registry.registerNotes path, ?_⟩
    rw [number, if_pos rfl, hregister]
    rfl

/-- A scene for which there is no number gets none from the same registry. -/
theorem number_fails_again {b : Bool} {e : SchemaError} (h : s.number path b = (.error e, s₁))
    (hregistry : t.registry = s.registry) :
    s₁ = s ∧ t.number path b = (.error e, t) := by
  rcases number_cases h with ⟨-, hr, -⟩ | ⟨-, id, registry, -, hr, -, -⟩ | ⟨rfl, e', hreg, hr, hs⟩
  · cases hr
  · cases hr
  · cases hr
    refine ⟨hs, ?_⟩
    rw [number, if_pos rfl, hregistry, hreg]

end CompileState

namespace Compiler

variable {c : Compiler} {s s' t : CompileState}

open CompileState

/-- A descriptor that has compiled is found in the memo. -/
theorem Traverses.complete {stack : List String} {referrer : Option String} {path : String}
    {d : SceneData} (h : c.Traverses (.enter stack referrer path) s (.ok d) s') :
    s'.memo.get? path = some (.complete d) := by
  cases h with
  | known hk => exact hk
  | finished _ _ _ _ => rw [memo_finish, Memo.get?_finish, if_pos rfl]

/-- A descriptor that has compiled is taken from the memo the next time. -/
theorem Traverses.again_known {stack : List String} {referrer : Option String} {path : String}
    {d : SceneData} (h : c.Traverses (.enter stack referrer path) s (.ok d) s')
    (hg : ∀ {q d}, s'.memo.get? q = some (.complete d) → t.memo.get? q = some (.complete d)) :
    ∃ t', c.Traverses (.enter stack referrer path) t (.ok d) t' ∧ t.Repeats t' :=
  ⟨_, .known (hg h.complete), repeats_note _ _⟩

/-- A node that has been added gives the same draft the next time. -/
theorem Traverses.again_node {stack : List String} {path : String} {n : SceneNode} {draft : Draft}
    {r : Except SchemaError Draft} (h : c.Traverses (.node stack path n draft) s r s')
    (hr : ∀ e, r ≠ .error e)
    (hg : ∀ {q d}, s'.memo.get? q = some (.complete d) → t.memo.get? q = some (.complete d)) :
    ∃ t', c.Traverses (.node stack path n draft) t r t' ∧ t.Repeats t' := by
  have hnoted := repeats_note t (c.rules.networkClassNotes n)
  cases h with
  | network hn => exact ⟨_, .network hn, hnoted.trans (repeats_absorb _ _)⟩
  | bare hn hi => exact ⟨_, .bare hn hi, hnoted⟩
  | instanceFails _ _ _ => exact absurd rfl (hr _)
  | boundary hn hi he hnet =>
    obtain ⟨t', he', ht'⟩ := he.again_known (t := t.note (c.rules.networkClassNotes n)) hg
    exact ⟨_, .boundary hn hi he' hnet, hnoted.trans (ht'.trans (repeats_note _ _))⟩
  | merged hn hi he hnet =>
    obtain ⟨t', he', ht'⟩ := he.again_known (t := t.note (c.rules.networkClassNotes n)) hg
    exact ⟨_, .merged hn hi he' hnet, hnoted.trans ht'⟩

/-- **Failing again.**  The second time, scenes that were compiled are taken from the memo, and
numbers that were given are found in the registry. -/
theorem Traverses.again {task : Task} {r : Except SchemaError task.Value}
    (h : c.Traverses task s r s') (hpending : s.PendingIs task.stack) (hr : ∀ a, r ≠ .ok a)
    (ht : s'.Like t) : ∃ t', c.Traverses task t r t' ∧ t.Repeats t' := by
  induction h generalizing t with
  | known _ => exact absurd rfl (hr _)
  | cyclic hk =>
    rw [← ht.chainTo]
    exact ⟨t, .cyclic ((ht.memo _).trans hk), .refl t⟩
  | @missing _ _ path s hn hl =>
    have hn' := ht.get?_none (loaded_pending hpending path).get?_self
    exact ⟨_, .missing hn' hl, (Repeats.refl _).abandon hn' rfl rfl rfl le_rfl rfl⟩
  | @unreadable _ _ path s _ _ hn hl hd =>
    have hn' := ht.get?_none (loaded_pending hpending path).countParse.get?_self
    exact ⟨_, .unreadable hn' hl hd, (Repeats.refl _).abandon hn' rfl rfl rfl (Nat.le_succ _) rfl⟩
  | @unnumbered _ _ path s d _ s₁ hn hd hi =>
    have hn' := ht.get?_none (opened_pending hpending hi).get?_self
    have hregistry : (c.opened path d t).registry = (c.opened path d s).registry := by
      rw [← (number_fails_again hi rfl).1]
      exact ht.registry
    have hi' := (number_fails_again hi hregistry).2
    exact ⟨_, .unnumbered hn' hd hi', (Repeats.refl _).abandon hn' rfl rfl rfl (Nat.le_succ _) rfl⟩
  | @failed stack _ path s d id _ s₁ s₂ hn hd hi hw ih =>
    have hs₁ := opened_pending hpending hi
    have hs₂ := hw.pending hs₁
    have hn' := ht.get?_none hs₂.get?_self
    have hgrown : s₁.registry.scenes <+: (c.opened path d t).registry.scenes := by
      rw [show (c.opened path d t).registry = s₂.registry from ht.registry]
      exact hw.grows.scenes
    obtain ⟨rs, hi'⟩ := number_again hi hgrown
    -- with `path` under way again, all is as it was when the walk had failed
    have hlike : s₂.Like ((c.opened path d t).note rs) := by
      refine ⟨?_, ?_, ht.registry⟩
      · intro q
        have hq := ht.memo q
        rw [memo_abandon, Memo.get?_abandon hs₂.get?_self] at hq
        show (t.memo.begin path).get? q = s₂.memo.get? q
        rw [Memo.get?_begin]
        by_cases he : q = path
        · rw [if_pos he, he, hs₂.get?_self]
        · rw [if_neg he, hq, if_neg he]
      · have hpushed : s₂.stack = s.stack ++ [path] := hw.stack_eq.trans (opened_stack hi)
        show t.stack ++ [path] = s₂.stack
        rw [ht.stack, stack_abandon, hpushed, List.dropLast_concat]
    obtain ⟨t₂, hw', ht₂⟩ := ih hs₁ (fun _ h => nomatch h) hlike
    exact ⟨_, .failed hn' hd hi' hw', ht₂.abandon hn' rfl rfl rfl (Nat.le_succ _) rfl⟩
  | finished _ _ _ _ _ => exact absurd rfl (hr _)
  | @network _ _ n _ _ _ hn =>
    exact ⟨_, .network hn, (repeats_note _ _).trans (repeats_absorb _ _)⟩
  | bare _ _ => exact absurd rfl (hr _)
  | @instanceFails _ _ n _ _ _ _ _ hn hi _ ih =>
    obtain ⟨t', he, ht'⟩ := ih hpending (fun _ h => nomatch h)
      (ht.repeats (repeats_note t (c.rules.networkClassNotes n)))
    exact ⟨t', .instanceFails hn hi he, (repeats_note _ _).trans ht'⟩
  | boundary _ _ _ _ _ => exact absurd rfl (hr _)
  | @merged _ _ n _ _ _ _ _ hn hi he hnet _ =>
    obtain ⟨t', he', ht'⟩ := he.again_known (t := t.note (c.rules.networkClassNotes n))
      (fun hq => (ht.memo _).trans hq)
    exact ⟨t', .merged hn hi he' hnet, (repeats_note _ _).trans ht'⟩
  | done => exact absurd rfl (hr _)
  | stops _ ih =>
    obtain ⟨t', hn, ht'⟩ := ih hpending (fun _ h => nomatch h) ht
    exact ⟨t', .stops hn, ht'⟩
  | next hn hw _ ihw =>
    obtain ⟨t₁, hn', ht₁⟩ := hn.again_node (fun _ he => nomatch he)
      (fun hq => (ht.memo _).trans (hw.grows.complete hq))
    obtain ⟨t', hw', ht'⟩ := ihw (hn.pending hpending) hr (ht.repeats ht₁)
    exact ⟨t', .next hn' hw', ht₁.trans ht'⟩

/-! ## Calls -/

/-- **A failed call fails again.**  After any calls, compiling a scene that has just failed gives the
same error, and leaves memo and registry as the first failure left them: descriptors are parsed
again and diagnostics told again, and that is all. -/
theorem compile_fails_again (c : Compiler) (calls : List Call) (path : String) (e : SchemaError)
    (h : (c.compile path (c.after calls)).1 = .error e) :
    (c.compile path (c.after (calls ++ [.compile path]))).1 = .error e ∧
      (c.after (calls ++ [.compile path])).Repeats
        (c.after (calls ++ [.compile path, .compile path])) := by
  have hpending := after_pending (c := c) calls
  have ht := compile_traverses (c := c) hpending path
  rw [h] at ht
  obtain ⟨t', ht', hrepeats⟩ := ht.again hpending (fun _ he => nomatch he) ⟨fun _ => rfl, rfl, rfl⟩
  have hsecond := compile_traverses (c := c) (ht.pending hpending) path
  obtain ⟨hr, hs⟩ := hsecond.unique ht'
  have hafter' : c.after (calls ++ [.compile path, .compile path]) =
      (c.compile path (c.compile path (c.after calls)).2).2 := by
    rw [List.append_cons, after_compile, after_compile]
  rw [after_compile, hafter', hs]
  exact ⟨hr, hrepeats⟩

/-- The ring fails in the same way twice. -/
theorem ring_fails_again :
    (Ring.compiler.compile "x" (Ring.compiler.after [])).1 =
        .error (.circularInstancing "x" ["x", "y", "x"]) ∧
      (Ring.compiler.compile "x" (Ring.compiler.after [.compile "x"])).1 =
        .error (.circularInstancing "x" ["x", "y", "x"]) :=
  ⟨Ring.compile_ring, (compile_fails_again Ring.compiler [] "x" _ Ring.compile_ring).1⟩

end Compiler

end NetSchema
