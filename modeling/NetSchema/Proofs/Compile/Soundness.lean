import NetSchema.Proofs.Compile.Growth
import NetSchema.Proofs.Compile.Merging
import NetSchema.Proofs.Compile.Stack

/-!
# The memo is sound

What is kept of a compiled scene is what its plain expansion says, so it does not matter whether a
scene was compiled just now or taken from the memo.

* `Sound`: the invariant of the memo, which holds after all calls (`after_sound`);
* `Traverses.sound`: every task keeps it, and ends with what the task should produce or with a fault
  of a descriptor that instances lead to;
* `compile_ends`: so does every compilation.
-/

namespace NetSchema.Compiler

/-! ## What is to be shown -/

/-- The descriptor at `path` and all that instances lead to from there can be read, do not lead
back and have expansions that fit. -/
inductive Settled (c : Compiler) : String → Prop
  | intro {path ns} : c.Expansion path ns → c.rules.Fits ns →
      (∀ inst, c.Instances path inst → Settled c inst) → Settled c path

/-- A walk over the nodes of the descriptor at `path` has ended with `draft`. -/
def Drafts (c : Compiler) (path : String) (draft : Draft) : Prop :=
  ∃ d, c.descriptor? path = some d ∧ ∃ stack id s s', s.PendingIs (stack ++ [path]) ∧
    c.Traverses (.walk (stack ++ [path]) path d.nodes (.start path id)) s (.ok draft) s'

/-- `data` is what compiling the descriptor at `path` should give. -/
structure Compiled (c : Compiler) (path : String) (data : SceneData) : Prop where
  settled : c.Settled path
  network : data.isNetworkScene = true ↔ c.IsNetworkScene path
  held : ∃ draft ns, c.Drafts path draft ∧ draft.data = data ∧ c.Expansion path ns ∧
    draft.Holds c.rules path data.sceneId ns

/-- The descriptor at `path` has been compiled, and the network scenes that it leads to have been
registered. -/
structure Done (c : Compiler) (registry : Registry) (path : String) : Prop where
  settled : c.Settled path
  scenes : ∀ q, Relation.ReflTransGen c.Instances path q → c.IsNetworkScene q → q ∈ registry.paths

/-- All that the nodes instance has been compiled. -/
def InstancesDone (c : Compiler) (registry : Registry) (nodes : List SceneNode) : Prop :=
  ∀ n ∈ nodes, ∀ inst, c.Follows n inst → c.Done registry inst

/-- The error tells what is wrong with the descriptor at `path` itself. -/
inductive FaultAt (c : Compiler) (registry : Registry) (path : String) : SchemaError → Prop
  | missing {referrer} : c.source.load path = none →
      FaultAt c registry path (.missingDescriptor path referrer)
  | unreadable {text e} : c.source.load path = some text → Descriptor.parse text = .error e →
      FaultAt c registry path (.parse path e)
  | unnumbered : c.IsNetworkScene path → path ∉ registry.paths → 255 ≤ registry.paths.length →
      FaultAt c registry path (.sceneCapacity path)
  | cyclic {chain} : c.IsCycle path chain →
      FaultAt c registry path (.circularInstancing path chain)
  | blamed {d seen ns e} : c.descriptor? path = some d → seen <+: d.nodes → c.ExpandsTo seen ns →
      e.Blames c.rules path ns → c.InstancesDone registry seen → FaultAt c registry path e

/-- The error tells what is wrong with a descriptor that instances lead to from `path`. -/
def Fault (c : Compiler) (registry : Registry) (path : String) (e : SchemaError) : Prop :=
  ∃ q, Relation.ReflTransGen c.Instances path q ∧ c.FaultAt registry q e

/-- What the memo tells is right. -/
structure Sound (c : Compiler) (s : CompileState) : Prop where
  compiled : ∀ {q d}, s.memo.get? q = some (.complete d) → c.Compiled q d
  closed : ∀ {q d inst}, s.memo.get? q = some (.complete d) → c.Instances q inst →
    ∃ child, s.memo.get? inst = some (.complete child)
  registered : ∀ {q d id}, s.memo.get? q = some (.complete d) → d.sceneId = some id →
    s.registry.sceneId? q = some id

/-- The draft holds what the nodes `seen` stand for, and what they instance has been compiled. -/
structure Progress (c : Compiler) (s : CompileState) (path : String) (id : Option SceneId)
    (seen : List SceneNode) (draft : Draft) : Prop where
  holds : ∃ ns, c.ExpandsTo seen ns ∧ draft.Holds c.rules path id ns
  complete : ∀ n ∈ seen, ∀ inst, c.Follows n inst →
    ∃ child, s.memo.get? inst = some (.complete child)

/-- What adding node `n` to a draft should produce, or how it may fail. -/
def NodePost (c : Compiler) (path : String) (n : SceneNode) (draft : Draft) (s : CompileState)
    (r : Except SchemaError Draft) (s' : CompileState) : Prop :=
  ∀ {id seen rest d}, c.descriptor? path = some d → d.nodes = seen ++ n :: rest →
    c.Progress s path id seen draft →
    Ends (c.Progress s' path id (seen ++ [n])) (c.Fault s'.registry path) r

/-- What a task should produce, or how it may fail. -/
def Task.Post (c : Compiler) :
    (task : Task) → CompileState → Except SchemaError task.Value → CompileState → Prop
  | .enter _ _ path, _, r, s' =>
    Ends (fun data : SceneData => s'.memo.get? path = some (.complete data))
      (c.Fault s'.registry path) r
  | .node _ path n draft, s, r, s' => c.NodePost path n draft s r s'
  | .walk _ path nodes draft, s, r, s' =>
    ∀ {id seen d}, c.descriptor? path = some d → d.nodes = seen ++ nodes →
      c.Progress s path id seen draft →
      Ends (c.Progress s' path id (seen ++ nodes)) (c.Fault s'.registry path) r

variable {c : Compiler} {s s' : CompileState} {path : String}

/-! ## Keeping the memo sound -/

/-- Steps that compile nothing keep the memo sound. -/
theorem Sound.keep (h : c.Sound s) (hg : s.Grows s')
    (hold : ∀ {q d}, s'.memo.get? q = some (.complete d) → s.memo.get? q = some (.complete d)) :
    c.Sound s' where
  compiled hq := h.compiled (hold hq)
  closed hq hi := by
    obtain ⟨child, hchild⟩ := h.closed (hold hq) hi
    exact ⟨child, hg.complete hchild⟩
  registered hq hid := Registry.sceneId?_of_prefix (h.registered (hold hq) hid) hg.scenes

theorem Sound.note (h : c.Sound s) (rs : List LogRecord) : c.Sound (s.note rs) :=
  h.keep (CompileState.grows_note s rs) id

theorem Sound.absorb (h : c.Sound s) (fs : List Finding) : c.Sound (s.absorb fs) :=
  h.keep (CompileState.grows_absorb s fs) id

theorem Sound.countParse (h : c.Sound s) : c.Sound s.countParse :=
  h.keep (CompileState.grows_countParse s) id

theorem Sound.loaded (h : c.Sound s) (hn : s.memo.get? path = none) :
    c.Sound (c.loaded path s) := by
  refine h.keep (loaded_grows hn) ?_
  intro q d hq
  rw [Compiler.loaded, CompileState.memo_note, CompileState.memo_begin, Memo.get?_begin] at hq
  split at hq
  · cases hq
  · exact hq

theorem Sound.abandon (h : c.Sound s) (hp : s.memo.get? path = some .pending) :
    c.Sound (s.abandon path) := by
  refine h.keep (CompileState.grows_abandon s path) ?_
  intro q d hq
  rw [CompileState.memo_abandon, Memo.get?_abandon hp] at hq
  split at hq
  · cases hq
  · exact hq

theorem Sound.opened {d : Descriptor} {r : Except SchemaError (Option SceneId)} (h : c.Sound s)
    (hn : s.memo.get? path = none)
    (hi : (c.opened path d s).number path (c.isNetwork d) = (r, s')) : c.Sound s' := by
  refine ((h.loaded hn).countParse.note _).keep (CompileState.grows_number hi) ?_
  intro q data hq
  rw [CompileState.memo_of_number hi] at hq
  exact hq

theorem Sound.finish {data : SceneData} (h : c.Sound s) (hp : s.memo.get? path = some .pending)
    (hc : c.Compiled path data)
    (hchild : ∀ inst, c.Instances path inst → ∃ child, s.memo.get? inst = some (.complete child))
    (hid : ∀ id, data.sceneId = some id → s.registry.sceneId? path = some id) :
    c.Sound (s.finish path data) := by
  have hregistry : ∀ q, (s.finish path data).registry.sceneId? q = s.registry.sceneId? q := by
    intro q
    unfold CompileState.finish
    dsimp only
    split <;> rfl
  have hkeep : ∀ {q child}, s.memo.get? q = some (.complete child) →
      (s.finish path data).memo.get? q = some (.complete child) := by
    intro q child hq
    have hne : q ≠ path := by
      rintro rfl
      rw [hp] at hq
      cases hq
    rw [CompileState.memo_finish, Memo.get?_finish, if_neg hne, hq]
  -- the finished scene is the only new one
  have hcases : ∀ {q d}, (s.finish path data).memo.get? q = some (.complete d) →
      (q = path ∧ d = data) ∨ s.memo.get? q = some (.complete d) := by
    intro q d hq
    rw [CompileState.memo_finish, Memo.get?_finish] at hq
    split at hq
    · next he =>
      cases hq
      exact Or.inl ⟨he, rfl⟩
    · exact Or.inr hq
  constructor
  · intro q d hq
    rcases hcases hq with ⟨rfl, rfl⟩ | hq
    · exact hc
    · exact h.compiled hq
  · intro q d inst hq hi
    rcases hcases hq with ⟨rfl, rfl⟩ | hq
    · obtain ⟨child, hchild⟩ := hchild inst hi
      exact ⟨child, hkeep hchild⟩
    · obtain ⟨child, hchild⟩ := h.closed hq hi
      exact ⟨child, hkeep hchild⟩
  · intro q d id hq hdid
    rw [hregistry]
    rcases hcases hq with ⟨rfl, rfl⟩ | hq
    · exact hid id hdid
    · exact h.registered hq hdid

/-- All that instances lead to from a compiled descriptor has been compiled. -/
theorem Sound.complete_of_reaches (h : c.Sound s) {data : SceneData} {q : String}
    (hpath : s.memo.get? path = some (.complete data))
    (hq : Relation.ReflTransGen c.Instances path q) : ∃ d, s.memo.get? q = some (.complete d) := by
  induction hq with
  | refl => exact ⟨data, hpath⟩
  | tail _ hi ih =>
    obtain ⟨d, hd⟩ := ih
    exact h.closed hd hi

/-- Compiled network scenes are registered. -/
theorem Sound.mem_paths (h : c.Sound s) {q : String} {data : SceneData}
    (hq : s.memo.get? q = some (.complete data)) (hnet : c.IsNetworkScene q) :
    q ∈ s.registry.paths := by
  obtain ⟨draft, _, -, rfl, -, hholds⟩ := (h.compiled hq).held
  have hsome : draft.data.sceneId.isSome = true := by
    rw [← hholds.isNetworkScene]
    exact (h.compiled hq).network.mpr hnet
  obtain ⟨id, hid⟩ := Option.isSome_iff_exists.mp hsome
  exact Registry.mem_paths_of_sceneId? (h.registered hq hid)

theorem Sound.done (h : c.Sound s) {data : SceneData}
    (hpath : s.memo.get? path = some (.complete data)) : c.Done s.registry path where
  settled := (h.compiled hpath).settled
  scenes := by
    intro q hq hnet
    obtain ⟨d, hd⟩ := h.complete_of_reaches hpath hq
    exact h.mem_paths hd hnet

/-! ## Progress of a walk -/

theorem start_progress (s : CompileState) (path : String) (id : Option SceneId) :
    c.Progress s path id [] (.start path id) :=
  ⟨⟨[], .nil, Draft.start_holds _ _ _⟩, fun _ hn => nomatch hn⟩

/-- A further node that stands for `ms` and has been dealt with. -/
theorem Progress.snoc {id : Option SceneId} {seen : List SceneNode} {n : SceneNode}
    {draft draft' : Draft} {ns ms : List NetworkNode} (h : c.Progress s path id seen draft)
    (hg : s.Grows s') (hseen : c.ExpandsTo seen ns) (hn : c.ExpandsTo [n] ms)
    (hholds : draft'.Holds c.rules path id (ns ++ ms))
    (hinst : ∀ inst, c.Follows n inst → ∃ child, s'.memo.get? inst = some (.complete child)) :
    c.Progress s' path id (seen ++ [n]) draft' := by
  refine ⟨⟨ns ++ ms, hseen.append hn, hholds⟩, ?_⟩
  intro m hm inst hf
  rcases List.mem_append.mp hm with hm | hm
  · obtain ⟨child, hchild⟩ := h.complete m hm inst hf
    exact ⟨child, hg.complete hchild⟩
  · rw [List.mem_singleton] at hm
    exact hinst inst (hm ▸ hf)

/-- A further node that stands for nothing. -/
theorem Progress.skip {id : Option SceneId} {seen : List SceneNode} {n : SceneNode}
    {draft : Draft} (h : c.Progress s path id seen draft) (hg : s.Grows s')
    (hn : c.ExpandsTo [n] [])
    (hinst : ∀ inst, c.Follows n inst → ∃ child, s'.memo.get? inst = some (.complete child)) :
    c.Progress s' path id (seen ++ [n]) draft := by
  obtain ⟨ns, hseen, hns⟩ := h.holds
  exact h.snoc hg hseen hn (by simpa using hns) hinst

/-! ## Faults -/

theorem Fault.here {registry : Registry} {e : SchemaError} (h : c.FaultAt registry path e) :
    c.Fault registry path e :=
  ⟨path, .refl, h⟩

/-- A fault of an instanced scene. -/
theorem Fault.below {registry : Registry} {inst : String} {e : SchemaError}
    (hi : c.Instances path inst) (h : c.Fault registry inst e) : c.Fault registry path e := by
  obtain ⟨q, hq, hf⟩ := h
  exact ⟨q, .head hi hq, hf⟩

/-- What the nodes of a walk and a further node instance has been compiled. -/
theorem Progress.instancesDone {id : Option SceneId} {seen : List SceneNode} {n : SceneNode}
    {draft : Draft} (h : c.Progress s path id seen draft) (hg : s.Grows s') (hs : c.Sound s')
    (hinst : ∀ inst, c.Follows n inst → ∃ child, s'.memo.get? inst = some (.complete child)) :
    c.InstancesDone s'.registry (seen ++ [n]) := by
  intro m hm inst hf
  rcases List.mem_append.mp hm with hm | hm
  · obtain ⟨child, hchild⟩ := h.complete m hm inst hf
    exact hs.done (hg.complete hchild)
  · rw [List.mem_singleton] at hm
    obtain ⟨child, hchild⟩ := hinst inst (hm ▸ hf)
    exact hs.done hchild

/-- Nodes that a draft has no room for. -/
theorem fault_of_blames {registry : Registry} {seen rest : List SceneNode} {n : SceneNode}
    {d : Descriptor} {ns ms : List NetworkNode} {e : SchemaError}
    (hd : c.descriptor? path = some d) (hnodes : d.nodes = seen ++ n :: rest)
    (hseen : c.ExpandsTo seen ns) (hn : c.ExpandsTo [n] ms)
    (hdone : c.InstancesDone registry (seen ++ [n])) (he : e.Blames c.rules path (ns ++ ms)) :
    c.Fault registry path e := by
  have hprefix : seen ++ [n] <+: d.nodes := ⟨rest, by simp [hnodes]⟩
  exact .here (.blamed hd hprefix (hseen.append hn) he hdone)

/-! ## Nodes -/

section Nodes

variable {n : SceneNode} {draft : Draft}

theorem network_post {cls : String} (hcls : c.rules.networkClass? n = some cls)
    (hs : c.Sound s') (hg : s.Grows s') :
    c.NodePost path n draft s (draft.addNode c.rules n cls).result s' := by
  intro id seen rest d hd hnodes hp
  obtain ⟨ns, hseen, hns⟩ := hp.holds
  have hn : c.ExpandsTo [n] [⟨n.path, cls, n.isRoot⟩] := .network hcls .nil
  have hinst : ∀ inst, c.Follows n inst →
      ∃ child, s'.memo.get? inst = some (.complete child) := by
    intro inst hf
    rw [hf.1] at hcls
    cases hcls
  exact (Draft.addNode_ends hns n cls).imp (fun draft' hns' => hp.snoc hg hseen hn hns' hinst)
    (fun e he => fault_of_blames hd hnodes hseen hn (hp.instancesDone hg hs hinst) he)

theorem bare_post (hcls : c.rules.networkClass? n = none) (hi : n.instance? = none)
    (hg : s.Grows s') :
    c.NodePost path n draft s (.ok draft) s' := by
  intro id seen rest d hd hnodes hp
  refine hp.skip hg (.bare hcls hi .nil) ?_
  intro inst hf
  rw [hf.2] at hi
  cases hi

variable {inst : String} {child : SceneData}

theorem instanceFails_post {e : SchemaError} (hf : c.Follows n inst)
    (he : c.Fault s'.registry inst e) :
    c.NodePost path n draft s (.error e) s' := by
  intro id seen rest d hd hnodes hp
  exact he.below ⟨d, hd, n, by simp [hnodes], hf⟩

theorem follows_complete (hf : c.Follows n inst)
    (hchild : s.memo.get? inst = some (.complete child)) :
    ∀ inst', c.Follows n inst' → ∃ child, s.memo.get? inst' = some (.complete child) := by
  intro inst' hf'
  obtain rfl := Option.some.inj (hf.2.symm.trans hf'.2)
  exact ⟨child, hchild⟩

theorem boundary_post (hf : c.Follows n inst) (hs : c.Sound s')
    (hchild : s'.memo.get? inst = some (.complete child)) (hnet : child.isNetworkScene = true)
    (hg : s.Grows s') :
    c.NodePost path n draft s (.ok draft) s' := by
  intro id seen rest d hd hnodes hp
  obtain ⟨d', hd', hnet'⟩ := (hs.compiled hchild).network.mp hnet
  exact hp.skip hg (.boundary hf.1 hf.2 hd' hnet' .nil) (follows_complete hf hchild)

theorem merged_post (hf : c.Follows n inst) (hs : c.Sound s')
    (hchild : s'.memo.get? inst = some (.complete child)) (hnet : child.isNetworkScene = false)
    (hg : s.Grows s') :
    c.NodePost path n draft s (draft.merge n.path child) s' := by
  intro id seen rest d hd hnodes hp
  obtain ⟨ns, hseen, hns⟩ := hp.holds
  have hcompiled := hs.compiled hchild
  obtain ⟨draft', ms, -, rfl, ⟨d', hd', hms⟩, hholds⟩ := hcompiled.held
  have hnet' : c.isNetwork d' = false := by
    rw [← Bool.not_eq_true]
    intro h
    rw [hcompiled.network.mpr ⟨d', hd', h⟩] at hnet
    cases hnet
  have hn : c.ExpandsTo [n] (ms.map (NetworkNode.below n.path)) := by
    have hn := ExpandsTo.merged hf.1 hf.2 hd' hnet' hms .nil
    rwa [List.append_nil] at hn
  have hinst := follows_complete hf hchild
  exact (Draft.merge_ends hns hholds.lists n.path).imp
    (fun draft' hns' => hp.snoc hg hseen hn hns' hinst)
    (fun e he => fault_of_blames hd hnodes hseen hn (hp.instancesDone hg hs hinst) he)

end Nodes

/-! ## Descriptors -/

/-- A walk over all nodes of a descriptor gives what compiling it should give. -/
theorem compiled_of_walk {d : Descriptor} {stack : List String} {id : Option SceneId}
    {draft : Draft} {s₁ s₂ : CompileState} (hd : c.descriptor? path = some d)
    (hi : (c.opened path d s).number path (c.isNetwork d) = (.ok id, s₁))
    (hs₁ : s₁.PendingIs (stack ++ [path]))
    (hw : c.Traverses (.walk (stack ++ [path]) path d.nodes (.start path id)) s₁ (.ok draft) s₂)
    (hs₂ : c.Sound s₂) (hp : c.Progress s₂ path id d.nodes draft) :
    c.Compiled path draft.data := by
  obtain ⟨⟨ns, hns, hholds⟩, hcomplete⟩ := hp
  refine ⟨.intro ⟨d, hd, hns⟩ hholds.fits ?_, ?_, draft, ns, ?_, rfl, ⟨d, hd, hns⟩, ?_⟩
  · rintro inst ⟨d', hd', n, hn, hf⟩
    obtain rfl := Option.some.inj (hd.symm.trans hd')
    obtain ⟨child, hchild⟩ := hcomplete n hn inst hf
    exact (hs₂.compiled hchild).settled
  · rw [hholds.isNetworkScene, CompileState.isSome_of_number hi]
    constructor
    · exact fun h => ⟨d, hd, h⟩
    · rintro ⟨d', hd', h⟩
      obtain rfl := Option.some.inj (hd.symm.trans hd')
      exact h
  · exact ⟨d, hd, stack, id, s₁, s₂, hs₁, hw⟩
  · rw [hholds.sceneId]
    exact hholds

theorem unnumbered_fault {d : Descriptor} {e : SchemaError} {s₁ : CompileState}
    (hd : c.descriptor? path = some d)
    (hi : (c.opened path d s).number path (c.isNetwork d) = (.error e, s₁)) :
    c.Fault s₁.registry path e := by
  rcases CompileState.number_cases hi with ⟨-, hr, -⟩ | ⟨-, id, registry, -, hr, -, -⟩ |
    ⟨hb, e', hreg, hr, rfl⟩
  · cases hr
  · cases hr
  · cases hr
    rcases Registry.register_cases hreg with ⟨id, -, heq⟩ | ⟨-, -, heq⟩ | ⟨hnot, hfull, heq⟩
    · cases heq
    · cases heq
    · cases heq
      exact .here (.unnumbered ⟨d, hd, hb⟩ hnot hfull)

/-- **The memo stays sound.**  Every task keeps the memo sound, and produces what it should or fails
with a fault of a descriptor that instances lead to. -/
theorem Traverses.sound {task : Task} {r : Except SchemaError task.Value}
    (h : c.Traverses task s r s') (hpending : s.PendingIs task.stack) (hlegal : task.Legal c)
    (hs : c.Sound s) : c.Sound s' ∧ Task.Post c task s r s' := by
  induction h with
  | known hk => exact ⟨hs.note _, hk⟩
  | cyclic hk =>
    obtain ⟨rfl, hmemo⟩ := hpending
    exact ⟨hs, .here (.cyclic (isCycle_chainTo hlegal ((hmemo _).mp hk)))⟩
  | missing hn hl =>
    exact ⟨(hs.loaded hn).abandon (loaded_pending hpending _).get?_self, .here (.missing hl)⟩
  | unreadable hn hl hd =>
    exact ⟨(hs.loaded hn).countParse.abandon (loaded_pending hpending _).countParse.get?_self,
      .here (.unreadable hl hd)⟩
  | unnumbered hn hd hi =>
    have hfault := unnumbered_fault hd hi
    exact ⟨(hs.opened hn hi).abandon (opened_pending hpending hi).get?_self, hfault⟩
  | failed hn hd hi hw ih =>
    have hs₁ := opened_pending hpending hi
    obtain ⟨hs₂, hpost⟩ := ih hs₁ (hlegal.walk (hpending.not_mem hn) hd) (hs.opened hn hi)
    exact ⟨hs₂.abandon (hw.pending hs₁).get?_self, hpost hd rfl (start_progress ..)⟩
  | @finished stack _ path s d id draft s₁ s₂ hn hd hi hw ih =>
    have hs₁ := opened_pending hpending hi
    obtain ⟨hs₂, hpost⟩ := ih hs₁ (hlegal.walk (hpending.not_mem hn) hd) (hs.opened hn hi)
    have hp : c.Progress s₂ path id d.nodes draft := hpost hd rfl (start_progress ..)
    refine ⟨(hs₂.note _).finish (hw.pending hs₁).get?_self
      (compiled_of_walk hd hi hs₁ hw hs₂ hp) ?_ ?_, ?_⟩
    · rintro inst ⟨d', hd', n, hn, hf⟩
      obtain rfl := Option.some.inj (hd.symm.trans hd')
      exact hp.complete n hn inst hf
    · intro i hdata
      obtain ⟨ns, -, hholds⟩ := hp.holds
      obtain rfl : id = some i := hholds.sceneId.symm.trans hdata
      exact Registry.sceneId?_of_prefix (CompileState.sceneId?_of_number hi) hw.grows.scenes
    · show ((s₂.note _).finish path draft.data).memo.get? path = _
      rw [CompileState.memo_finish, Memo.get?_finish, if_pos rfl]
  | network hcls =>
    exact ⟨(hs.note _).absorb _, network_post hcls ((hs.note _).absorb _)
      ((CompileState.grows_note _ _).trans (CompileState.grows_absorb _ _))⟩
  | bare hcls hi => exact ⟨hs.note _, bare_post hcls hi (CompileState.grows_note _ _)⟩
  | instanceFails hcls hi _ ih =>
    obtain ⟨hs₁, hpost⟩ := ih hpending (hlegal.enter ⟨hcls, hi⟩ _) (hs.note _)
    exact ⟨hs₁, instanceFails_post ⟨hcls, hi⟩ hpost⟩
  | boundary hcls hi he hnet ih =>
    obtain ⟨hs₁, hpost⟩ := ih hpending (hlegal.enter ⟨hcls, hi⟩ _) (hs.note _)
    exact ⟨hs₁.note _, boundary_post ⟨hcls, hi⟩ (hs₁.note _) hpost hnet
      ((CompileState.grows_note _ _).trans (he.grows.trans (CompileState.grows_note _ _)))⟩
  | merged hcls hi he hnet ih =>
    obtain ⟨hs₁, hpost⟩ := ih hpending (hlegal.enter ⟨hcls, hi⟩ _) (hs.note _)
    exact ⟨hs₁, merged_post ⟨hcls, hi⟩ hs₁ hpost hnet
      ((CompileState.grows_note _ _).trans he.grows)⟩
  | done =>
    refine ⟨hs, ?_⟩
    intro id seen d hd hnodes hp
    rw [List.append_nil]
    exact hp
  | stops _ ih =>
    obtain ⟨hs₁, hpost⟩ := ih hpending hlegal.node hs
    exact ⟨hs₁, fun hd hnodes hp => hpost hd hnodes hp⟩
  | @next _ _ n rest _ _ _ _ _ _ hn _ ihn ihw =>
    obtain ⟨hs₁, hnode⟩ := ihn hpending hlegal.node hs
    obtain ⟨hs₂, hwalk⟩ := ihw (hn.pending hpending) hlegal.rest hs₁
    refine ⟨hs₂, ?_⟩
    intro id seen d hd hnodes hp
    rw [show seen ++ n :: rest = (seen ++ [n]) ++ rest by simp] at hnodes ⊢
    exact hwalk hd hnodes (hnode hd (by simpa using hnodes) hp)

/-! ## Calls -/

theorem sound_invariant : c.Invariant c.Sound where
  empty _ := ⟨(fun h => nomatch h), (fun h => nomatch h), (fun h => nomatch h)⟩
  noted rs h := h.note rs
  told fs h := h.absorb fs
  compiled hpending hs h := (h.sound hpending (legal_enter ..) hs).1

theorem after_sound (calls : List Call) : c.Sound (c.after calls) :=
  (sound_invariant.after calls).2

/-- Compiling ends with a compiled scene, or with a fault of a descriptor that instances lead to. -/
theorem compile_ends (hpending : s.PendingIs []) (hs : c.Sound s) (path : String) :
    Ends (fun data => (c.compile path s).2.memo.get? path = some (.complete data) ∧
        c.Compiled path data)
      (c.Fault (c.compile path s).2.registry path) (c.compile path s).1 := by
  obtain ⟨hs', hpost⟩ := (compile_traverses hpending path).sound hpending (legal_enter ..) hs
  exact Ends.imp hpost (fun _ hd => ⟨hd, hs'.compiled hd⟩) (fun _ he => he)

theorem compiled_of_ok {calls : List Call} {data : SceneData}
    (h : (c.compile path (c.after calls)).1 = .ok data) : c.Compiled path data := by
  have hends := compile_ends (c := c) (after_pending calls) (after_sound calls) path
  rw [h] at hends
  exact hends.2

end NetSchema.Compiler
