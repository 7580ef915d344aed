import NetSchema.Proofs.Compile.Success

/-!
# The registry follows the memo

The parts of a network scene are recorded when it has been compiled, and nothing else is.  So the
registry tells of every scene what the memo tells, whichever calls have failed in between.

* `Traverses.inStep`: every task keeps the registry in step with the memo;
* `InStep.keeps`: while both only grow, nothing that was recorded changes;
* `after_consistent`: what holds of memo, registry and stack between calls, and what stays between
  two resets.
-/

namespace NetSchema

/-! ## Records of a scene -/

namespace Registry

variable {r : Registry} {path q : String} {d : SceneData}

/-- The registry has the parts of `d` under `path`, the empty ones left out. -/
structure Records (r : Registry) (path : String) (d : SceneData) : Prop where
  staticNodes : r.staticNodes.get? path =
    if d.staticNodes.isEmpty then none else some d.staticNodes
  properties : r.properties.get? path = if d.properties.isEmpty then none else some d.properties
  functions : r.functions.get? path = if d.functions.isEmpty then none else some d.functions

theorem records_empty (path : String) : ({} : Registry).Records path {} := ⟨rfl, rfl, rfl⟩

theorem Records.withScenes (h : r.Records path d) (scenes : List (SceneId × String)) :
    ({ r with scenes } : Registry).Records path d :=
  ⟨h.staticNodes, h.properties, h.functions⟩

theorem Records.propertiesOf (h : r.Records path d) : r.propertiesOf path = d.properties := by
  rw [Registry.propertiesOf, h.properties, OrderedMap.getD_ite_isEmpty]

theorem Records.functionsOf (h : r.Records path d) : r.functionsOf path = d.functions := by
  rw [Registry.functionsOf, h.functions, OrderedMap.getD_ite_isEmpty]

/-- A part that is put in unless it is empty, read back where nothing was before. -/
theorem get?_insertUnless {α : Type} {m : OrderedMap String α} (h : m.get? path = none)
    (empty : Bool) (a : α) :
    (if empty = true then m else m.insert path a).get? path =
      if empty = true then none else some a := by
  cases empty
  · simp [OrderedMap.get?_insert]
  · simpa using h

theorem get?_insertUnless_of_ne {α : Type} (m : OrderedMap String α) (h : q ≠ path)
    (empty : Bool) (a : α) :
    (if empty = true then m else m.insert path a).get? q = m.get? q := by
  cases empty
  · simp [OrderedMap.get?_insert, h]
  · rfl

theorem Records.record (h : r.Records path {}) (d : SceneData) :
    (r.record path d).Records path d where
  staticNodes := get?_insertUnless h.staticNodes ..
  properties := get?_insertUnless h.properties ..
  functions := get?_insertUnless h.functions ..

/-- Recording one scene leaves the others alone. -/
theorem Records.record_of_ne {d' : SceneData} (h : r.Records q d') (hne : q ≠ path)
    (d : SceneData) : (r.record path d).Records q d' where
  staticNodes := (get?_insertUnless_of_ne _ hne ..).trans h.staticNodes
  properties := (get?_insertUnless_of_ne _ hne ..).trans h.properties
  functions := (get?_insertUnless_of_ne _ hne ..).trans h.functions

end Registry

/-! ## Registry and memo in step -/

namespace Memo

variable {m : Memo} {path : String}

theorem completed?_congr {m' : Memo} {q : String} (h : m.get? q = m'.get? q) :
    m.completed? q = m'.completed? q := by
  rw [completed?, completed?, h]

theorem completed?_begin (h : m.get? path = none) (q : String) :
    (m.begin path).completed? q = m.completed? q := by
  by_cases hq : q = path
  · subst hq
    simp [completed?, get?_begin, h]
  · exact completed?_congr (by rw [get?_begin, if_neg hq])

theorem completed?_abandon (h : m.get? path = some .pending) (q : String) :
    (m.abandon path).completed? q = m.completed? q := by
  by_cases hq : q = path
  · subst hq
    simp [completed?, get?_abandon h, h]
  · exact completed?_congr (by rw [get?_abandon h, if_neg hq])

theorem completed?_finish (m : Memo) (path q : String) (d : SceneData) :
    (m.finish path d).completed? q = if q = path then some d else m.completed? q := by
  by_cases hq : q = path
  · simp [completed?, get?_finish, hq]
  · rw [if_neg hq]
    exact completed?_congr (by rw [get?_finish, if_neg hq])

end Memo

namespace CompileState

variable {s s' : CompileState} {path : String}

/-- What of the scene at `path` is to be found in the registry: all of a network scene that has been
compiled, and nothing of any other. -/
def published (s : CompileState) (path : String) : SceneData :=
  match s.memo.completed? path with
  | some d => if d.isNetworkScene then d else {}
  | none => {}

/-- The registry tells of every scene what the memo tells. -/
def InStep (s : CompileState) : Prop := ∀ path, s.registry.Records path (s.published path)

theorem inStep_empty (log : List LogRecord) : ({ log } : CompileState).InStep :=
  fun path => Registry.records_empty path

theorem published_of_complete {d : SceneData} (h : s.memo.get? path = some (.complete d)) :
    s.published path = if d.isNetworkScene then d else {} := by
  rw [published, Memo.completed?_eq_some_iff.mpr h]

/-- Only compiled network scenes are published. -/
theorem published_cases (s : CompileState) (path : String) :
    (∃ d, s.memo.get? path = some (.complete d) ∧ d.isNetworkScene = true ∧
      s.published path = d) ∨ s.published path = {} := by
  unfold published
  split
  · next d hd =>
    split
    · next hnet => exact Or.inl ⟨d, Memo.completed?_eq_some_iff.mp hd, hnet, rfl⟩
    · exact Or.inr rfl
  · exact Or.inr rfl

/-- Steps that complete nothing and record nothing. -/
theorem InStep.keep (h : s.InStep) (hmemo : ∀ q, s'.memo.completed? q = s.memo.completed? q)
    (hregistry : s'.registry = { s.registry with scenes := s'.registry.scenes }) : s'.InStep := by
  intro q
  rw [published, hmemo q, hregistry]
  exact (h q).withScenes _

theorem InStep.begin (h : s.InStep) (hn : s.memo.get? path = none) : (s.begin path).InStep :=
  h.keep (Memo.completed?_begin hn) rfl

theorem InStep.abandon (h : s.InStep) (hp : s.memo.get? path = some .pending) :
    (s.abandon path).InStep :=
  h.keep (Memo.completed?_abandon hp) rfl

theorem InStep.number {b : Bool} {r : Except SchemaError (Option SceneId)} (h : s.InStep)
    (hn : s.number path b = (r, s')) : s'.InStep := by
  refine h.keep (fun q => by rw [memo_of_number hn]) ?_
  rcases number_cases hn with ⟨-, -, rfl⟩ | ⟨-, id, registry, hr, -, hreg, -⟩ | ⟨-, e, -, -, rfl⟩
  · rfl
  · rw [hreg]
    rcases Registry.register_cases hr with ⟨id', -, heq⟩ | ⟨-, -, heq⟩ | ⟨-, -, heq⟩
    · cases heq
      rfl
    · cases heq
      rfl
    · cases heq
  · rfl

/-- A scene that is finished has nothing recorded yet, and gets exactly what is published of it. -/
theorem InStep.finish (h : s.InStep) (hp : s.memo.get? path = some .pending) (d : SceneData) :
    (s.finish path d).InStep := by
  have hnew : s.registry.Records path {} := by
    have hpath := h path
    rwa [published, Memo.completed?, hp] at hpath
  intro q
  rw [published, memo_finish, Memo.completed?_finish]
  unfold CompileState.finish
  dsimp only
  by_cases hq : q = path
  · subst hq
    rw [if_pos rfl]
    dsimp only
    split
    · exact hnew.record d
    · exact hnew
  · rw [if_neg hq]
    split
    · exact (h q).record_of_ne hq d
    · exact h q

/-! ## Nothing recorded changes -/

/-- What has been compiled, numbered or recorded in `s` stands as it is in `s'`. -/
structure Keeps (s s' : CompileState) : Prop extends Grows s s' where
  staticNodes : ∀ {path nodes}, s.registry.staticNodes.get? path = some nodes →
    s'.registry.staticNodes.get? path = some nodes
  properties : ∀ {path members}, s.registry.properties.get? path = some members →
    s'.registry.properties.get? path = some members
  functions : ∀ {path members}, s.registry.functions.get? path = some members →
    s'.registry.functions.get? path = some members

/-- A scene of which anything is published stays compiled. -/
theorem Grows.published (h : s.Grows s') (path : String) :
    s.published path = {} ∨ s'.published path = s.published path := by
  rcases published_cases s path with ⟨d, hd, -, -⟩ | hnone
  · right
    rw [published_of_complete hd, published_of_complete (h.complete hd)]
  · exact Or.inl hnone

theorem InStep.keeps (h : s.InStep) (h' : s'.InStep) (hg : s.Grows s') : s.Keeps s' := by
  refine ⟨hg, ?_, ?_, ?_⟩
  · intro path nodes hnodes
    rcases hg.published path with he | he
    · have hnone := (he ▸ h path).staticNodes.symm.trans hnodes
      cases hnone
    · rw [(h' path).staticNodes, he, ← (h path).staticNodes, hnodes]
  · intro path members hmembers
    rcases hg.published path with he | he
    · have hnone := (he ▸ h path).properties.symm.trans hmembers
      cases hnone
    · rw [(h' path).properties, he, ← (h path).properties, hmembers]
  · intro path members hmembers
    rcases hg.published path with he | he
    · have hnone := (he ▸ h path).functions.symm.trans hmembers
      cases hnone
    · rw [(h' path).functions, he, ← (h path).functions, hmembers]

end CompileState

namespace Compiler

variable {c : Compiler} {s s' : CompileState}

open CompileState

theorem loaded_inStep {path : String} (h : s.InStep) (hn : s.memo.get? path = none) :
    (c.loaded path s).InStep :=
  h.begin hn

theorem opened_inStep {path : String} {d : Descriptor} {r : Except SchemaError (Option SceneId)}
    (h : s.InStep) (hn : s.memo.get? path = none)
    (hi : (c.opened path d s).number path (c.isNetwork d) = (r, s')) : s'.InStep := by
  have hopened : (c.opened path d s).InStep := loaded_inStep (c := c) h hn
  exact hopened.number hi

/-- **The registry follows the memo.**  Every task keeps them in step. -/
theorem Traverses.inStep {task : Task} {r : Except SchemaError task.Value}
    (h : c.Traverses task s r s') (hpending : s.PendingIs task.stack) (hs : s.InStep) :
    s'.InStep := by
  induction h with
  | known _ => exact hs
  | cyclic _ => exact hs
  | missing hn _ => exact (loaded_inStep hs hn).abandon (loaded_pending hpending _).get?_self
  | unreadable hn _ _ =>
    have hloaded : (c.loaded _ _).countParse.InStep := loaded_inStep (c := c) hs hn
    exact hloaded.abandon (loaded_pending hpending _).countParse.get?_self
  | unnumbered hn _ hi =>
    exact (opened_inStep hs hn hi).abandon (opened_pending hpending hi).get?_self
  | failed hn _ hi hw ih =>
    have hs₁ := opened_pending hpending hi
    exact (ih hs₁ (opened_inStep hs hn hi)).abandon (hw.pending hs₁).get?_self
  | @finished _ _ path _ _ _ draft _ s₂ hn _ hi hw ih =>
    have hs₁ := opened_pending hpending hi
    have hnoted : (s₂.note [compiledNote path draft.data]).InStep :=
      ih hs₁ (opened_inStep hs hn hi)
    exact hnoted.finish (hw.pending hs₁).get?_self _
  | network _ => exact hs
  | bare _ _ => exact hs
  | instanceFails _ _ _ ih => exact ih hpending hs
  | boundary _ _ _ _ ih => exact ih hpending hs
  | merged _ _ _ _ ih => exact ih hpending hs
  | done => exact hs
  | stops _ ih => exact ih hpending hs
  | next hn _ ihn ihw => exact ihw (hn.pending hpending) (ihn hpending hs)

theorem inStep_invariant : c.Invariant InStep where
  empty := inStep_empty
  noted _ h := h
  told _ h := h
  compiled hpending hs h := h.inStep hpending hs

/-! ## Between calls -/

/-- What a compiler is like between calls.  The stack is empty and nothing is under way.  Scenes are
registered once each and numbered from zero on.  A compiled scene has a number exactly if it is a
network scene, and then the registry has it under that number with all of its parts; of anything
else the registry has none. -/
structure Consistent (s : CompileState) : Prop where
  stack : s.stack = []
  idle : ∀ path, s.memo.isPending path = false
  ids : s.registry.scenes.map (fun x => x.1.toNat) = List.range s.registry.sceneCount
  capacity : s.registry.sceneCount ≤ 255
  distinct : (s.registry.scenes.map Prod.snd).Nodup
  network : ∀ {path d}, s.memo.get? path = some (.complete d) →
    (d.isNetworkScene = true ↔ d.sceneId.isSome = true)
  number : ∀ {path d}, s.memo.get? path = some (.complete d) → d.isNetworkScene = true →
    s.registry.sceneId? path = d.sceneId
  recorded : ∀ {path d}, s.memo.get? path = some (.complete d) → d.isNetworkScene = true →
    s.registry.Records path d
  unrecorded : ∀ {path}, (∀ d, s.memo.get? path = some (.complete d) →
    d.isNetworkScene = false) → s.registry.Records path {}

theorem registered_invariant : c.Invariant fun s => c.Registered (fun _ => True) s.registry where
  empty _ := registered_empty _
  noted _ h := h
  told _ h := h
  compiled _ hs h := h.registered (fun _ _ => trivial) trivial hs

theorem consistent_of_ready (h : c.Ready (fun _ => True) s) (hstep : s.InStep) :
    Consistent s where
  stack := h.pending.1
  idle := by
    intro q
    rw [← Bool.not_eq_true, Memo.isPending_iff, h.pending.get?_iff]
    exact List.not_mem_nil
  ids := by
    have hlength : s.registry.sceneCount = s.registry.paths.length := (List.length_map _).symm
    rw [hlength, ← @ByteId.enumerate_map_fst .scene _ h.registered.numbered.length,
      ← h.registered.numbered.scenes]
  capacity := by
    have hlength := h.registered.numbered.length
    rwa [Registry.paths, List.length_map] at hlength
  distinct := h.registered.numbered.nodup
  network := by
    intro path d hd
    obtain ⟨draft, ns, -, rfl, -, hholds⟩ := (h.sound.compiled hd).held
    rw [hholds.isNetworkScene]
  number := by
    intro path d hd hnet
    obtain ⟨draft, ns, -, rfl, -, hholds⟩ := (h.sound.compiled hd).held
    rw [hholds.isNetworkScene] at hnet
    obtain ⟨id, hid⟩ := Option.isSome_iff_exists.mp hnet
    rw [hid]
    exact h.sound.registered hd hid
  recorded := by
    intro path d hd hnet
    have hpath := hstep path
    rwa [published_of_complete hd, if_pos hnet] at hpath
  unrecorded := by
    intro path hnone
    have hpath := hstep path
    rcases published_cases s path with ⟨d, hd, hnet, -⟩ | he
    · rw [hnone d hd] at hnet
      cases hnet
    · rwa [he] at hpath

theorem after_ready (calls : List Call) : c.Ready (fun _ => True) (c.after calls) :=
  ⟨after_pending calls, after_sound calls, (registered_invariant.after calls).2⟩

theorem after_inStep (calls : List Call) : (c.after calls).InStep :=
  (inStep_invariant.after calls).2

/-! ## Between two resets -/

theorem after_grows (calls : List Call) (paths : List String) :
    (c.after calls).Grows (c.after (calls ++ paths.map .compile)) := by
  induction paths generalizing calls with
  | nil =>
    rw [List.map_nil, List.append_nil]
    exact .refl _
  | cons path paths ih =>
    have hpath : (c.after calls).Grows (c.after (calls ++ [.compile path])) := by
      rw [after_compile]
      exact (compile_traverses (after_pending calls) path).grows
    have hrest := ih (calls ++ [.compile path])
    rw [List.append_assoc] at hrest
    exact hpath.trans hrest

theorem compileRoots_ready {Q : String → Prop}
    (hQ : ∀ {outer inner}, Q outer → c.Instances outer inner → Q inner) {roots : List String}
    (hroots : ∀ root ∈ roots, Q root) (h : c.Ready Q s) :
    s.Grows (c.compileRoots roots s).2 ∧ c.Ready Q (c.compileRoots roots s).2 :=
  ⟨(compileRoots_ends hQ hroots h).1, (compileRoots_ends hQ hroots h).2.1⟩

/-- Further roots change nothing about what the first ones have left. -/
theorem compileRoots_keeps (roots more : List String) (log : List LogRecord) :
    (c.compileRoots roots { log }).2.Keeps (c.compileRoots (roots ++ more) { log }).2 := by
  have hstep : ∀ roots, (c.compileRoots roots { log }).2.InStep := fun roots =>
    (inStep_invariant.compileRoots roots (pendingIs_empty log) (inStep_empty log)).2
  have hready := (compileRoots_ready (c := c) (Q := fun _ => True) (fun _ _ => trivial)
    (fun _ (_ : _ ∈ roots) => trivial) (ready_empty _ log)).2
  refine (hstep roots).keeps (hstep _) ?_
  rw [compileRoots_append]
  rcases hres : c.compileRoots roots { log } with ⟨_ | ⟨⟩, s₁⟩
  · exact .refl _
  · rw [hres] at hready
    exact (compileRoots_ready (fun _ _ => trivial) (fun _ _ => trivial) hready).1

/-- **States between calls are consistent.**  A task leaves the stack as it was, and under way what
was under way, whether it fails or not.  Compiling more, in calls of its own or as further roots of
a run, changes no number and no record. -/
theorem after_consistent (c : Compiler) (calls : List Call) :
    Consistent (c.after calls) ∧
    (∀ (task : Task) (s s' : CompileState) (r : Except SchemaError task.Value),
      c.Traverses task s r s' → s'.stack = s.stack ∧ s'.memo.underWay = s.memo.underWay) ∧
    (∀ paths : List String,
      (c.after calls).Keeps (c.after (calls ++ paths.map .compile))) ∧
    (∀ roots more : List String,
      (c.compileRoots roots (c.after calls).reset).2.Keeps
        (c.compileRoots (roots ++ more) (c.after calls).reset).2) := by
  refine ⟨consistent_of_ready (after_ready calls) (after_inStep calls), ?_, ?_, ?_⟩
  · intro task s s' r h
    exact ⟨h.stack_eq, h.underWay_eq⟩
  · intro paths
    exact (after_inStep calls).keeps (after_inStep _) (after_grows calls paths)
  · intro roots more
    exact compileRoots_keeps roots more (c.after calls).log

end Compiler

end NetSchema
