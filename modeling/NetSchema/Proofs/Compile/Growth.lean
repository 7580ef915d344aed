import Mathlib.Data.List.Nodup
import NetSchema.Proofs.ByteId
import NetSchema.Proofs.Compile.History

/-!
# What a compilation adds

A compilation forgets no compiled scene and takes no number back.

* `Traverses.grows`: what was compiled or numbered before a task still is after it;
* `Traverses.registry_keeps`: what registering and recording scenes keeps, every task keeps;
* `Traverses.registered`: scenes are registered once each and numbered from zero on.
-/

namespace NetSchema

/-! ## The registry -/

namespace Registry

variable {r r' : Registry} {path : String}

/-- The registered scenes in order. -/
def paths (r : Registry) : List String := r.scenes.map Prod.snd

theorem sceneId?_eq_none_iff : r.sceneId? path = none ↔ path ∉ r.paths := by
  rw [sceneId?, Option.map_eq_none_iff, List.find?_eq_none]
  simp only [paths, List.mem_map, beq_iff_eq, not_exists, not_and]

theorem mem_paths_of_sceneId? {id : SceneId} (h : r.sceneId? path = some id) : path ∈ r.paths := by
  by_cases hn : path ∈ r.paths
  · exact hn
  · rw [sceneId?_eq_none_iff.mpr hn] at h
    cases h

/-- A registered scene keeps its number when scenes are added. -/
theorem sceneId?_of_prefix {id : SceneId} (h : r.sceneId? path = some id)
    (hp : r.scenes <+: r'.scenes) : r'.sceneId? path = some id := by
  obtain ⟨rest, hrest⟩ := hp
  obtain ⟨x, hx, rfl⟩ := Option.map_eq_some_iff.mp h
  rw [sceneId?, ← hrest, List.find?_append, hx]
  rfl

/-- Registering a scene finds it, appends it or fails for want of a number. -/
theorem register_cases {result : Except SchemaError (SceneId × Registry)}
    (h : r.register path = result) :
    (∃ id, r.sceneId? path = some id ∧ result = .ok (id, r)) ∨
      (path ∉ r.paths ∧ r.paths.length < 255 ∧
        result = .ok (⟨UInt8.ofNat r.paths.length⟩,
          { r with scenes := r.scenes ++ [(⟨UInt8.ofNat r.paths.length⟩, path)] })) ∨
      (path ∉ r.paths ∧ 255 ≤ r.paths.length ∧ result = .error (.sceneCapacity path)) := by
  have hlength : r.paths.length = r.scenes.length := List.length_map _
  rw [hlength]
  unfold register at h
  cases hid : r.sceneId? path with
  | some id =>
    rw [hid] at h
    exact Or.inl ⟨id, rfl, h.symm⟩
  | none =>
    have hnot := sceneId?_eq_none_iff.mp hid
    rw [hid, ByteId.ofCount?] at h
    by_cases hlt : r.scenes.length < 255
    · rw [if_pos (show r.scenes.length < IdKind.scene.limit from hlt)] at h
      exact Or.inr (Or.inl ⟨hnot, hlt, h.symm⟩)
    · rw [if_neg (show ¬ r.scenes.length < IdKind.scene.limit from hlt)] at h
      exact Or.inr (Or.inr ⟨hnot, by omega, h.symm⟩)

theorem sceneId?_of_register {id : SceneId} (h : r.register path = .ok (id, r')) :
    r'.sceneId? path = some id := by
  rcases register_cases h with ⟨id', hid, heq⟩ | ⟨hnot, -, heq⟩ | ⟨-, -, heq⟩
  · cases heq
    exact hid
  · cases heq
    have hfind : r.scenes.find? (fun s => s.2 == path) = none :=
      Option.map_eq_none_iff.mp (sceneId?_eq_none_iff.mpr hnot)
    simp [sceneId?, List.find?_append, hfind]
  · cases heq

theorem prefix_of_register {id : SceneId} (h : r.register path = .ok (id, r')) :
    r.scenes <+: r'.scenes := by
  rcases register_cases h with ⟨id', -, heq⟩ | ⟨-, -, heq⟩ | ⟨-, -, heq⟩
  · cases heq
    exact List.prefix_rfl
  · cases heq
    exact List.prefix_append _ _
  · cases heq

theorem mem_paths_of_register {id : SceneId} {q : String} (h : r.register path = .ok (id, r'))
    (hq : q ∈ r'.paths) : q ∈ r.paths ∨ q = path := by
  rcases register_cases h with ⟨id', -, heq⟩ | ⟨-, -, heq⟩ | ⟨-, -, heq⟩
  · cases heq
    exact Or.inl hq
  · cases heq
    simpa [paths] using hq
  · cases heq

/-- Different scenes, numbered from zero on, and no more of them than there are numbers. -/
structure Numbered (r : Registry) : Prop where
  scenes : r.scenes = ByteId.enumerate r.paths
  nodup : r.paths.Nodup
  length : r.paths.length ≤ 255

theorem Numbered.register {id : SceneId} (hr : r.Numbered) (h : r.register path = .ok (id, r')) :
    r'.Numbered := by
  rcases register_cases h with ⟨id', -, heq⟩ | ⟨hnot, hlt, heq⟩ | ⟨-, -, heq⟩
  · cases heq
    exact hr
  · cases heq
    have hpaths : paths { r with scenes := r.scenes ++ [(⟨UInt8.ofNat r.paths.length⟩, path)] } =
        r.paths ++ [path] := by
      simp [paths]
    refine ⟨?_, ?_, ?_⟩
    · rw [hpaths, ByteId.enumerate_append, ← hr.scenes]
    · rw [hpaths, ← List.concat_eq_append]
      exact List.Nodup.concat hnot hr.nodup
    · rw [hpaths, List.length_append, List.length_singleton]
      omega
  · cases heq

theorem Numbered.record (hr : r.Numbered) (path : String) (d : SceneData) :
    (r.record path d).Numbered :=
  ⟨hr.scenes, hr.nodup, hr.length⟩

end Registry

/-! ## Numbers of scenes -/

namespace CompileState

/-- A scene that is no network scene gets no number, any other is registered. -/
theorem number_cases {s s' : CompileState} {path : String} {isNetworkScene : Bool}
    {r : Except SchemaError (Option SceneId)} (h : s.number path isNetworkScene = (r, s')) :
    (isNetworkScene = false ∧ r = .ok none ∧ s' = s) ∨
      (isNetworkScene = true ∧ ∃ id registry, s.registry.register path = .ok (id, registry) ∧
        r = .ok (some id) ∧ s'.registry = registry ∧ s'.memo = s.memo) ∨
      (isNetworkScene = true ∧ ∃ e, s.registry.register path = .error e ∧ r = .error e ∧
        s' = s) := by
  unfold number at h
  cases isNetworkScene with
  | false =>
    cases h
    exact Or.inl ⟨rfl, rfl, rfl⟩
  | true =>
    cases hr : s.registry.register path with
    | ok x =>
      simp only [if_true, hr] at h
      cases h
      exact Or.inr (Or.inl ⟨rfl, x.1, x.2, rfl, rfl, rfl, rfl⟩)
    | error e =>
      simp only [if_true, hr] at h
      cases h
      exact Or.inr (Or.inr ⟨rfl, e, rfl, rfl, rfl⟩)

/-- Exactly the network scenes get a number. -/
theorem isSome_of_number {s s' : CompileState} {path : String} {isNetworkScene : Bool}
    {id : Option SceneId} (h : s.number path isNetworkScene = (.ok id, s')) :
    id.isSome = isNetworkScene := by
  rcases number_cases h with ⟨hb, hr, -⟩ | ⟨hb, id', registry, -, hr, -, -⟩ | ⟨-, e, -, hr, -⟩
  · cases hr
    exact hb.symm
  · cases hr
    exact hb.symm
  · cases hr

theorem sceneId?_of_number {s s' : CompileState} {path : String} {isNetworkScene : Bool}
    {id : SceneId} (h : s.number path isNetworkScene = (.ok (some id), s')) :
    s'.registry.sceneId? path = some id := by
  rcases number_cases h with ⟨-, hr, -⟩ | ⟨-, id', registry, hreg, hr, hreg', -⟩ |
    ⟨-, e, -, hr, -⟩
  · cases hr
  · cases hr
    exact hreg' ▸ Registry.sceneId?_of_register hreg
  · cases hr

/-! ## Growing states -/

/-- Nothing that has been compiled or numbered in `s` is lost in `s'`. -/
structure Grows (s s' : CompileState) : Prop where
  complete : ∀ {q d}, s.memo.get? q = some (.complete d) → s'.memo.get? q = some (.complete d)
  scenes : s.registry.scenes <+: s'.registry.scenes

variable {s s' s'' : CompileState} {path : String}

theorem Grows.refl (s : CompileState) : s.Grows s := ⟨id, List.prefix_rfl⟩

theorem Grows.trans (h : s.Grows s') (h' : s'.Grows s'') : s.Grows s'' :=
  ⟨fun hq => h'.complete (h.complete hq), h.scenes.trans h'.scenes⟩

theorem grows_note (s : CompileState) (rs : List LogRecord) : s.Grows (s.note rs) :=
  ⟨id, List.prefix_rfl⟩

theorem grows_absorb (s : CompileState) (fs : List Finding) : s.Grows (s.absorb fs) :=
  ⟨id, List.prefix_rfl⟩

theorem grows_countParse (s : CompileState) : s.Grows s.countParse :=
  ⟨id, List.prefix_rfl⟩

theorem grows_begin (hn : s.memo.get? path = none) : s.Grows (s.begin path) := by
  refine ⟨?_, List.prefix_rfl⟩
  intro q d hq
  have hne : q ≠ path := by
    rintro rfl
    rw [hn] at hq
    cases hq
  rw [memo_begin, Memo.get?_begin, if_neg hne, hq]

theorem grows_abandon (s : CompileState) (path : String) : s.Grows (s.abandon path) := by
  refine ⟨?_, List.prefix_rfl⟩
  intro q d hq
  rw [memo_abandon]
  by_cases hp : s.memo.get? path = some .pending
  · have hne : q ≠ path := by
      rintro rfl
      rw [hp] at hq
      cases hq
    rw [Memo.get?_abandon hp, if_neg hne, hq]
  · rw [Memo.abandon, if_neg (fun h => hp (Memo.isPending_iff.mp h)), hq]

theorem grows_number {b : Bool} {r : Except SchemaError (Option SceneId)}
    (h : s.number path b = (r, s')) : s.Grows s' := by
  rcases number_cases h with ⟨-, -, rfl⟩ | ⟨-, id, registry, hr, -, hreg, hm⟩ | ⟨-, e, -, -, rfl⟩
  · exact .refl _
  · exact ⟨fun hq => hm ▸ hq, hreg ▸ Registry.prefix_of_register hr⟩
  · exact .refl _

/-- What was compiled before the descriptor at `path` was begun is not `path` itself. -/
theorem Grows.finish (h : s.Grows s') (hn : s.memo.get? path = none) (d : SceneData) :
    s.Grows (s'.finish path d) := by
  constructor
  · intro q d' hq
    have hne : q ≠ path := by
      rintro rfl
      rw [hn] at hq
      cases hq
    rw [memo_finish, Memo.get?_finish, if_neg hne]
    exact h.complete hq
  · have hs : (s'.finish path d).registry.scenes = s'.registry.scenes := by
      unfold CompileState.finish
      split <;> rfl
    rw [hs]
    exact h.scenes

end CompileState

namespace Compiler

variable {c : Compiler} {task : Task} {s s' : CompileState}

open CompileState

theorem loaded_grows {path : String} (hn : s.memo.get? path = none) :
    s.Grows (c.loaded path s) :=
  (grows_begin hn).trans (grows_note _ _)

theorem opened_grows {path : String} {d : Descriptor} {r : Except SchemaError (Option SceneId)}
    (hn : s.memo.get? path = none)
    (hi : (c.opened path d s).number path (c.isNetwork d) = (r, s')) : s.Grows s' :=
  (loaded_grows hn).trans
    ((grows_countParse _).trans ((grows_note _ _).trans (grows_number hi)))

theorem Traverses.grows {r : Except SchemaError task.Value} (h : c.Traverses task s r s') :
    s.Grows s' := by
  induction h with
  | known _ => exact grows_note _ _
  | cyclic _ => exact .refl _
  | missing hn _ => exact (loaded_grows hn).trans (grows_abandon _ _)
  | unreadable hn _ _ =>
    exact (loaded_grows hn).trans ((grows_countParse _).trans (grows_abandon _ _))
  | unnumbered hn _ hi => exact (opened_grows hn hi).trans (grows_abandon _ _)
  | failed hn _ hi _ ih => exact (opened_grows hn hi).trans (ih.trans (grows_abandon _ _))
  | finished hn _ hi _ ih =>
    exact ((opened_grows hn hi).trans (ih.trans (grows_note _ _))).finish hn _
  | network _ => exact (grows_note _ _).trans (grows_absorb _ _)
  | bare _ _ => exact grows_note _ _
  | instanceFails _ _ _ ih => exact (grows_note _ _).trans ih
  | boundary _ _ _ _ ih => exact (grows_note _ _).trans (ih.trans (grows_note _ _))
  | merged _ _ _ _ ih => exact (grows_note _ _).trans ih
  | done => exact .refl _
  | stops _ ih => exact ih
  | next _ _ ihn ihw => exact ihn.trans ihw

/-! ## What the registry keeps -/

/-- The descriptors that a task can lead to first of all are among `Q`. -/
def Task.Within (c : Compiler) (Q : String → Prop) : Task → Prop
  | .enter _ _ path => Q path
  | .node _ _ n _ => ∀ inst, c.Follows n inst → Q inst
  | .walk _ _ nodes _ => ∀ n ∈ nodes, ∀ inst, c.Follows n inst → Q inst

/-- Whatever registering the network scenes among `Q` and recording scenes keep, tasks that stay
within `Q` keep. -/
theorem Traverses.registry_keeps {Q : String → Prop} {P : Registry → Prop}
    (hQ : ∀ {outer inner}, Q outer → c.Instances outer inner → Q inner)
    (hregister : ∀ {path id r r'}, Q path → c.IsNetworkScene path → P r →
      r.register path = .ok (id, r') → P r')
    (hrecord : ∀ {r} path d, P r → P (r.record path d))
    {r : Except SchemaError task.Value} (h : c.Traverses task s r s') (hw : task.Within c Q)
    (hs : P s.registry) : P s'.registry := by
  have hopened : ∀ {path d s s₁ r}, Q path → c.descriptor? path = some d → P s.registry →
      (c.opened path d s).number path (c.isNetwork d) = (r, s₁) → P s₁.registry := by
    intro path d s s₁ r hq hd hs hi
    rcases number_cases hi with ⟨-, -, rfl⟩ | ⟨hnet, id, registry, hr, -, hreg, -⟩ |
      ⟨-, e, -, -, rfl⟩
    · exact hs
    · exact hreg ▸ hregister hq ⟨d, hd, hnet⟩ hs hr
    · exact hs
  have hnodes : ∀ {path d}, Q path → c.descriptor? path = some d →
      ∀ n ∈ d.nodes, ∀ inst, c.Follows n inst → Q inst :=
    fun hq hd n hn inst hf => hQ hq ⟨_, hd, n, hn, hf⟩
  induction h with
  | known _ => exact hs
  | cyclic _ => exact hs
  | missing _ _ => exact hs
  | unreadable _ _ _ => exact hs
  | unnumbered _ hd hi =>
    have hnumber := hopened hw hd hs hi
    exact hnumber
  | failed _ hd hi _ ih => exact ih (hnodes hw hd) (hopened hw hd hs hi)
  | finished _ hd hi _ ih =>
    have hwalk := ih (hnodes hw hd) (hopened hw hd hs hi)
    unfold CompileState.finish
    dsimp only
    split
    · exact hrecord _ _ hwalk
    · exact hwalk
  | network _ => exact hs
  | bare _ _ => exact hs
  | instanceFails hn hi _ ih => exact ih (hw _ ⟨hn, hi⟩) hs
  | boundary hn hi _ _ ih => exact ih (hw _ ⟨hn, hi⟩) hs
  | merged hn hi _ _ ih => exact ih (hw _ ⟨hn, hi⟩) hs
  | done => exact hs
  | stops _ ih => exact ih (hw _ (List.mem_cons_self ..)) hs
  | next _ _ ihn ihw =>
    exact ihw (fun n hn => hw n (List.mem_cons_of_mem _ hn))
      (ihn (hw _ (List.mem_cons_self ..)) hs)

/-- The registry numbers network scenes among `Q`. -/
structure Registered (c : Compiler) (Q : String → Prop) (r : Registry) : Prop where
  numbered : r.Numbered
  scenes : ∀ q ∈ r.paths, Q q ∧ c.IsNetworkScene q

theorem registered_empty (Q : String → Prop) : c.Registered Q {} :=
  ⟨⟨rfl, List.nodup_nil, Nat.zero_le _⟩, fun _ hq => nomatch hq⟩

theorem Registered.register {Q : String → Prop} {path : String} {id : SceneId} {r r' : Registry}
    (h : c.Registered Q r) (hq : Q path) (hnet : c.IsNetworkScene path)
    (hr : r.register path = .ok (id, r')) : c.Registered Q r' := by
  refine ⟨h.numbered.register hr, ?_⟩
  intro q hmem
  rcases Registry.mem_paths_of_register hr hmem with hmem | rfl
  · exact h.scenes q hmem
  · exact ⟨hq, hnet⟩

/-- Tasks that stay within `Q` register scenes among `Q`, and number them in order. -/
theorem Traverses.registered {Q : String → Prop} {r : Except SchemaError task.Value}
    (h : c.Traverses task s r s')
    (hQ : ∀ {outer inner}, Q outer → c.Instances outer inner → Q inner) (hw : task.Within c Q)
    (hs : c.Registered Q s.registry) : c.Registered Q s'.registry :=
  h.registry_keeps hQ (fun hq hnet hr hid => hr.register hq hnet hid)
    (fun path d hr => ⟨hr.numbered.record path d, hr.scenes⟩) hw hs

end Compiler

end NetSchema
