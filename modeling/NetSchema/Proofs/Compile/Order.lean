import NetSchema.Proofs.DepthFirst
import NetSchema.Proofs.Compile.Records
import NetSchema.Proofs.Compile.Refinement

/-!
# The order of scenes

A run meets descriptors in depth-first order: a scene before the scenes that it instances, the nodes
of a scene in their order, and the roots one after the other.  Each descriptor is parsed when it is
met for the first time, and if it is a network scene it gets the next number then.

* `Traverses.ordered`: a task that succeeds walks on in depth-first order;
* `run_registers`: which scenes a successful run registers, under which numbers and with which
  parts, and how often it has parsed.
-/

namespace NetSchema

/-! ## Paths in the memo -/

namespace Memo

/-- The descriptors that have been met, in order. -/
def paths (m : Memo) : List String := m.entries.keys

variable {m : Memo} {path : String}

theorem get?_eq_none_iff : m.get? path = none ↔ path ∉ m.paths := OrderedMap.get?_eq_none_iff

theorem mem_paths_of_get? {e : MemoEntry} (h : m.get? path = some e) : path ∈ m.paths := by
  by_cases hp : path ∈ m.paths
  · exact hp
  · rw [get?_eq_none_iff.mpr hp] at h
    cases h

theorem paths_begin (h : m.get? path = none) : (m.begin path).paths = m.paths ++ [path] := by
  rw [paths, begin, OrderedMap.keys_insert]
  exact if_neg (get?_eq_none_iff.mp h)

theorem paths_finish (h : path ∈ m.paths) (d : SceneData) : (m.finish path d).paths = m.paths := by
  rw [paths, finish, OrderedMap.keys_insert]
  exact if_pos h

theorem size_eq_length (m : Memo) : m.size = m.paths.length := (List.length_map _).symm

end Memo

/-- A scene that is new to the registry is the last one there. -/
theorem Registry.paths_of_register {r r' : Registry} {path : String} {id : SceneId}
    (hnew : path ∉ r.paths) (h : r.register path = .ok (id, r')) : r'.paths = r.paths ++ [path] := by
  rcases register_cases h with ⟨id', hid, -⟩ | ⟨-, -, heq⟩ | ⟨-, -, heq⟩
  · exact absurd (mem_paths_of_sceneId? hid) hnew
  · cases heq
    rw [paths, List.map_append]
    rfl
  · cases heq

namespace Compiler

variable {c : Compiler} {s s₁ s' : CompileState}

open CompileState

/-! ## Links -/

/-- The scene that a node is followed to. -/
def link? (c : Compiler) (n : SceneNode) : Option String :=
  match c.rules.networkClass? n with
  | some _ => none
  | none => n.instance?

/-- The scenes that the nodes of the descriptor at `path` are followed to, in order. -/
def links (c : Compiler) (path : String) : List String :=
  match c.descriptor? path with
  | some d => d.nodes.filterMap c.link?
  | none => []

/-- Whether there is a network scene at `path`. -/
def networkAt (c : Compiler) (path : String) : Bool := (c.descriptor? path).any c.isNetwork

theorem links_of_descriptor? {path : String} {d : Descriptor} (hd : c.descriptor? path = some d) :
    c.links path = d.nodes.filterMap c.link? := by
  rw [links, hd]

theorem networkAt_of_descriptor? {path : String} {d : Descriptor}
    (hd : c.descriptor? path = some d) : c.networkAt path = c.isNetwork d := by
  rw [networkAt, hd]
  rfl

theorem link?_eq_some_iff {n : SceneNode} {inst : String} :
    c.link? n = some inst ↔ c.Follows n inst := by
  unfold link? Follows
  split
  · next h => simp [h]
  · next h => simp [h]

theorem mem_links_iff {outer inner : String} : inner ∈ c.links outer ↔ c.Instances outer inner := by
  unfold links Instances
  split
  · next d hd => simp [hd, link?_eq_some_iff]
  · next hd => simp [hd]

theorem reaches_iff {roots : List String} {path : String} :
    c.Reaches roots path ↔
      ∃ root ∈ roots, Relation.ReflTransGen (fun a b => b ∈ c.links a) root path := by
  have hedges : (fun a b => b ∈ c.links a) = c.Instances := by
    funext a b
    exact propext mem_links_iff
  rw [hedges, Reaches]

theorem networkAt_iff {path : String} : c.networkAt path = true ↔ c.IsNetworkScene path := by
  rw [networkAt, Option.any_eq_true_iff_get]
  constructor
  · rintro ⟨hd, hnet⟩
    exact ⟨_, (Option.some_get hd).symm, hnet⟩
  · rintro ⟨d, hd, hnet⟩
    simp [hd, hnet]

/-- A descriptor that is not met on a walk from its links does not lead back to itself. -/
theorem acyclic_of_depthFirst {path : String} {inner out : List String}
    (hlinks : c.links path = inner) (h : DepthFirst c.links [] inner out) (hpath : path ∉ out) :
    ¬ Relation.TransGen c.Instances path path := by
  intro hcycle
  subst hlinks
  obtain ⟨inst, hi, hback⟩ := Relation.TransGen.head'_iff.mp hcycle
  exact hpath ((h.mem_iff path).mpr (reaches_iff.mp ⟨inst, mem_links_iff.mpr hi, hback⟩))

/-! ## Tasks in depth-first order -/

/-- The descriptors that a task leads to first of all, in order. -/
def Task.targets (c : Compiler) : Task → List String
  | .enter _ _ path => [path]
  | .node _ _ n _ => (c.link? n).toList
  | .walk _ _ nodes _ => nodes.filterMap c.link?

theorem Task.targets_walk (stack : List String) (path : String) (n : SceneNode)
    (rest : List SceneNode) (draft draft' : Draft) :
    (Task.walk stack path (n :: rest) draft).targets c =
      (Task.node stack path n draft).targets c ++ (Task.walk stack path rest draft').targets c := by
  rw [targets, targets, targets, List.filterMap_cons]
  cases c.link? n <;> rfl

/-- The network scenes that have been met are registered in that order, and each descriptor that has
been met was parsed once. -/
structure Ordered (c : Compiler) (s : CompileState) : Prop where
  scenes : s.registry.paths = s.memo.paths.filter c.networkAt
  parses : s.memo.parses = s.memo.paths.length

theorem ordered_empty (log : List LogRecord) : c.Ordered { log } := ⟨rfl, rfl⟩

theorem paths_of_opened {path : String} {d : Descriptor}
    {r : Except SchemaError (Option SceneId)} (hn : s.memo.get? path = none)
    (hi : (c.opened path d s).number path (c.isNetwork d) = (r, s₁)) :
    s₁.memo.paths = s.memo.paths ++ [path] := by
  rw [memo_of_number hi]
  exact Memo.paths_begin hn

/-- A descriptor that is met for the first time is the last one met. -/
theorem Ordered.opened {path : String} {d : Descriptor} {id : Option SceneId} (hs : c.Ordered s)
    (hn : s.memo.get? path = none) (hd : c.descriptor? path = some d)
    (hi : (c.opened path d s).number path (c.isNetwork d) = (.ok id, s₁)) : c.Ordered s₁ := by
  have hpaths := paths_of_opened hn hi
  have hnet := networkAt_of_descriptor? hd
  have hnew : path ∉ s.registry.paths := by
    rw [hs.scenes]
    intro hmem
    exact Memo.get?_eq_none_iff.mp hn (List.mem_filter.mp hmem).1
  constructor
  · rw [hpaths, List.filter_append, ← hs.scenes]
    rcases number_cases hi with ⟨hb, -, rfl⟩ | ⟨hb, id', registry, hr, -, hreg, -⟩ |
      ⟨-, e, -, hr, -⟩
    · rw [List.filter_cons_of_neg (by simp [hnet, hb]), List.filter_nil, List.append_nil]
      rfl
    · rw [List.filter_cons_of_pos (hnet.trans hb), List.filter_nil, hreg]
      exact Registry.paths_of_register hnew hr
    · cases hr
  · rw [hpaths, List.length_append, List.length_singleton, ← hs.parses, memo_of_number hi]
    rfl

/-- **Depth-first order.**  A task that succeeds goes on from what has been met. -/
theorem Traverses.ordered {task : Task} {r : Except SchemaError task.Value}
    (h : c.Traverses task s r s') (hr : ∀ e, r ≠ .error e) (hs : c.Ordered s) :
    c.Ordered s' ∧ DepthFirst c.links s.memo.paths (task.targets c) s'.memo.paths := by
  induction h with
  | known hk => exact ⟨⟨hs.scenes, hs.parses⟩, .again (Memo.mem_paths_of_get? hk) .done⟩
  | cyclic _ => exact absurd rfl (hr _)
  | missing _ _ => exact absurd rfl (hr _)
  | unreadable _ _ _ => exact absurd rfl (hr _)
  | unnumbered _ _ _ => exact absurd rfl (hr _)
  | failed _ _ _ _ _ => exact absurd rfl (hr _)
  | @finished _ _ path s d _ draft s₁ s₂ hn hd hi _ ih =>
    obtain ⟨hs₂, hwalk⟩ := ih (fun _ h => nomatch h) (hs.opened hn hd hi)
    rw [paths_of_opened hn hi] at hwalk
    have hmem : path ∈ s₂.memo.paths := hwalk.seen_prefix.subset (by simp)
    have hpaths : (s₂.memo.finish path draft.data).paths = s₂.memo.paths :=
      Memo.paths_finish hmem _
    refine ⟨⟨?_, ?_⟩, ?_⟩
    · show ((s₂.note [compiledNote path draft.data]).finish path draft.data).registry.paths =
        (s₂.memo.finish path draft.data).paths.filter c.networkAt
      rw [hpaths, ← hs₂.scenes]
      unfold CompileState.finish
      dsimp only
      split <;> rfl
    · show s₂.memo.parses = (s₂.memo.finish path draft.data).paths.length
      rw [hpaths, hs₂.parses]
    · show DepthFirst c.links s.memo.paths [path] (s₂.memo.finish path draft.data).paths
      rw [hpaths]
      exact .first (Memo.get?_eq_none_iff.mp hn) (links_of_descriptor? hd ▸ hwalk) .done
  | network hn =>
    refine ⟨⟨hs.scenes, hs.parses⟩, ?_⟩
    rw [Task.targets, link?, hn]
    exact .done
  | bare hn hi =>
    refine ⟨⟨hs.scenes, hs.parses⟩, ?_⟩
    rw [Task.targets, link?, hn, hi]
    exact .done
  | instanceFails _ _ _ _ => exact absurd rfl (hr _)
  | boundary hn hi _ _ ih =>
    obtain ⟨hs₁, hinst⟩ := ih (fun _ h => nomatch h) ⟨hs.scenes, hs.parses⟩
    refine ⟨⟨hs₁.scenes, hs₁.parses⟩, ?_⟩
    rw [Task.targets, link?_eq_some_iff.mpr ⟨hn, hi⟩]
    exact hinst
  | merged hn hi _ _ ih =>
    obtain ⟨hs₁, hinst⟩ := ih (fun _ h => nomatch h) ⟨hs.scenes, hs.parses⟩
    refine ⟨hs₁, ?_⟩
    rw [Task.targets, link?_eq_some_iff.mpr ⟨hn, hi⟩]
    exact hinst
  | done => exact ⟨hs, .done⟩
  | stops _ _ => exact absurd rfl (hr _)
  | next _ _ ihn ihw =>
    obtain ⟨hs₁, hnode⟩ := ihn (fun _ h => nomatch h) hs
    obtain ⟨hs₂, hrest⟩ := ihw hr hs₁
    refine ⟨hs₂, ?_⟩
    rw [Task.targets_walk]
    exact hnode.append hrest

/-! ## Runs -/

theorem compileRoots_ordered {roots : List String} (hpending : s.PendingIs []) (hs : c.Ordered s)
    (h : c.compileRoots roots s = (.ok (), s')) :
    c.Ordered s' ∧ DepthFirst c.links s.memo.paths roots s'.memo.paths := by
  induction roots generalizing s with
  | nil =>
    cases h
    exact ⟨hs, .done⟩
  | cons root roots ih =>
    have ht := compile_traverses (c := c) hpending root
    obtain ⟨d, s₁, hres, hrest⟩ := compileRoots_ok_cases h
    rw [hres] at ht
    obtain ⟨hs₁, hroot⟩ := ht.ordered (fun _ h => nomatch h) hs
    have hrooted : c.Ordered (c.rooted root d s₁) :=
      rooted_keeps hs₁ (fun _ => ⟨hs₁.scenes, hs₁.parses⟩) root d
    have hmemo : (c.rooted root d s₁).memo = s₁.memo :=
      rooted_keeps (P := fun s => s.memo = s₁.memo) rfl (fun _ => rfl) root d
    have hended : s₁.PendingIs [] := ht.pending hpending
    have hpending₁ : (c.rooted root d s₁).PendingIs [] :=
      rooted_keeps (P := fun s => s.PendingIs []) hended (fun _ => hended) root d
    obtain ⟨hs', hvisits⟩ := ih hpending₁ hrooted hrest
    rw [hmemo] at hvisits
    exact ⟨hs', hroot.append hvisits⟩

/-- A run succeeds when its roots do. -/
theorem run_ok_cases {roots : List String} {out : CompileOutput}
    (h : c.run roots s = (.ok out, s')) :
    ∃ s₁, c.compileRoots roots s.reset = (.ok (), s₁) ∧
      out = ⟨s₁.registry, s₁.diagnostics⟩ ∧ s' = s₁.note [summaryNote roots s₁] := by
  rw [run] at h
  rcases hres : c.compileRoots roots s.reset with ⟨e | u, s₁⟩
  · rw [hres] at h
    cases h
  · rw [hres] at h
    cases h
    exact ⟨s₁, rfl, rfl, rfl⟩

/-- Compilable roots compile. -/
theorem exists_run_of_compilable {roots : List String} (h : c.Compilable roots)
    (s : CompileState) : ∃ out s', c.run roots s = (.ok out, s') := by
  obtain ⟨-, hready, hends⟩ := compileRoots_ends (c := c) (Q := c.Reaches roots) Reaches.step
    (fun root hroot => ⟨root, hroot, .refl⟩) (ready_empty _ s.log)
  rw [run]
  rcases hres : c.compileRoots roots s.reset with ⟨e | u, s₁⟩
  · rw [show c.compileRoots roots { log := s.log } = (.error e, s₁) from hres] at hready hends
    obtain ⟨root, hroot, hfault⟩ := hends
    exact absurd hfault (h.no_fault hready.registered hroot)
  · exact ⟨_, _, rfl⟩

/-- What is there when the descriptors in `order` have been compiled and nothing else.  The network
scenes among them are registered in that order, numbered from zero on, with all their parts, and
each of the descriptors was parsed once. -/
structure Registers (c : Compiler) (order : List String) (s : CompileState) : Prop where
  ids : s.registry.scenes.map (fun x => x.1.toNat) = List.range s.registry.sceneCount
  scenes : s.registry.scenes.map Prod.snd = order.filter c.networkAt
  compiled : ∀ q ∈ order, ∃ d, s.memo.completed? q = some d ∧ c.Compiled q d ∧
    (c.IsNetworkScene q → s.registry.sceneId? q = d.sceneId ∧ s.registry.Records q d)
  unrecorded : ∀ q, ¬ (q ∈ order ∧ c.IsNetworkScene q) → s.registry.Records q {}
  size : s.memo.size = order.length
  parses : s.memo.parses = order.length

/-- What compiling roots one after the other leaves, if all of them compile. -/
theorem compileRoots_registers {roots : List String} {log : List LogRecord}
    (h : c.compileRoots roots { log } = (.ok (), s')) :
    DepthFirst c.links [] roots s'.memo.paths ∧ c.Registers s'.memo.paths s' := by
  obtain ⟨hordered, hvisits⟩ :=
    compileRoots_ordered (c := c) (pendingIs_empty log) (ordered_empty log) h
  obtain ⟨-, hready, hends⟩ := compileRoots_ends (c := c) (Q := fun _ => True)
    (fun _ _ => trivial) (fun _ (_ : _ ∈ roots) => trivial) (ready_empty _ log)
  have hstep := (inStep_invariant.compileRoots (c := c) roots (pendingIs_empty log)
    (inStep_empty log)).2
  rw [h] at hready hends hstep
  have hconsistent := consistent_of_ready hready hstep
  refine ⟨hvisits, hconsistent.ids, hordered.scenes, ?_, ?_, s'.memo.size_eq_length,
    hordered.parses⟩
  · intro q hq
    obtain ⟨d, hd⟩ := hready.sound.reaches hends (reaches_iff.mpr ((hvisits.mem_iff q).mp hq))
    have hcompiled := hready.sound.compiled hd
    refine ⟨d, Memo.completed?_eq_some_iff.mpr hd, hcompiled, ?_⟩
    intro hnet
    have hdata := hcompiled.network.mpr hnet
    exact ⟨hconsistent.number hd hdata, hconsistent.recorded hd hdata⟩
  · intro q hq
    refine hconsistent.unrecorded ?_
    intro d hd
    rw [← Bool.not_eq_true]
    intro hnet
    exact hq ⟨Memo.mem_paths_of_get? hd, (hready.sound.compiled hd).network.mp hnet⟩

theorem run_meets {roots : List String} {out : CompileOutput}
    (h : c.run roots s = (.ok out, s')) :
    DepthFirst c.links [] roots s'.memo.paths ∧ c.Registers s'.memo.paths s' ∧
      out.registry = s'.registry := by
  obtain ⟨s₁, hroots, rfl, rfl⟩ := run_ok_cases h
  obtain ⟨hvisits, hregisters⟩ := compileRoots_registers hroots
  exact ⟨hvisits, ⟨hregisters.ids, hregisters.scenes, hregisters.compiled, hregisters.unrecorded,
    hregisters.size, hregisters.parses⟩, rfl⟩

theorem paths_of_run {roots order : List String} {out : CompileOutput}
    (h : c.run roots s = (.ok out, s')) (hvisits : DepthFirst c.links [] roots order) :
    out.registry.paths = order.filter c.networkAt := by
  obtain ⟨hvisits', hregisters, hregistry⟩ := run_meets h
  rw [hvisits.unique hvisits', hregistry]
  exact hregisters.scenes

/-- **What a run registers.**  A run that succeeds has met exactly the descriptors that instances
lead to from the roots, each of them once and in depth-first order. -/
theorem run_registers (c : Compiler) (roots : List String) (s s' : CompileState)
    (out : CompileOutput) (h : c.run roots s = (.ok out, s')) :
    ∃ order, DepthFirst c.links [] roots order ∧ order.Nodup ∧
      (∀ q, q ∈ order ↔ c.Reaches roots q) ∧ out.registry = s'.registry ∧
      c.Registers order s' := by
  obtain ⟨hvisits, hregisters, hregistry⟩ := run_meets h
  refine ⟨s'.memo.paths, hvisits, hvisits.nodup List.nodup_nil, ?_, hregistry, hregisters⟩
  intro q
  rw [reaches_iff]
  exact hvisits.mem_iff q

/-! ## A lobby with a squad and a unit

The squad and the unit are network scenes, and the squad instances the unit too. -/

namespace Lobby

def compiler : Compiler where
  source := .ofFiles (((OrderedMap.empty.insert "unit"
    "[r]\nscript=\"unit.x\"\n[/r]").insert "squad"
    "[r]\nscript=\"unit.x\"\n[/r] [a]\nparent=r\ninstance=\"unit\"\n[/a]").insert "lobby"
    "[r]\n[/r] [a]\nparent=r\ninstance=\"squad\"\n[/a] [b]\nparent=r\ninstance=\"unit\"\n[/b]")
  rules := Arena.rules

def unitRoot : SceneNode :=
  { Arena.root with properties := OrderedMap.empty.insert "script" (.string "unit.x") }

/-- A node that instances another scene. -/
def spot (name inst : String) : SceneNode where
  key := name
  name := name
  parent := some "."
  instance? := some inst

def unit : Descriptor := ⟨"r", [unitRoot]⟩

def squad : Descriptor := ⟨"r", [unitRoot, spot "a" "unit"]⟩

def lobby : Descriptor := ⟨"r", [Arena.root, spot "a" "squad", spot "b" "unit"]⟩

theorem unit_read : compiler.descriptor? "unit" = some unit := by with_unfolding_all rfl

theorem squad_read : compiler.descriptor? "squad" = some squad := by with_unfolding_all rfl

theorem lobby_read : compiler.descriptor? "lobby" = some lobby := by with_unfolding_all rfl

theorem unitRoot_class : compiler.rules.networkClass? unitRoot = some "Unit" := by decide +kernel

theorem unit_links : compiler.links "unit" = [] := by
  rw [links_of_descriptor? unit_read]
  simp [unit, link?, unitRoot_class]

theorem squad_links : compiler.links "squad" = ["unit"] := by
  rw [links_of_descriptor? squad_read]
  simp only [squad, List.filterMap_cons, link?, unitRoot_class]
  rfl

theorem lobby_links : compiler.links "lobby" = ["squad", "unit"] := by
  rw [links_of_descriptor? lobby_read]
  rfl

theorem unit_visits {seen : List String} (h : "unit" ∉ seen) :
    DepthFirst compiler.links seen ["unit"] (seen ++ ["unit"]) := by
  refine .first h ?_ .done
  rw [unit_links]
  exact .done

theorem squad_visits {seen : List String} (h : "squad" ∉ seen) (h' : "unit" ∉ seen) :
    DepthFirst compiler.links seen ["squad"] (seen ++ ["squad", "unit"]) := by
  have hunit := @unit_visits (seen ++ ["squad"]) (by simp [h'])
  rw [List.append_assoc] at hunit
  refine .first h ?_ .done
  rw [squad_links]
  exact hunit

theorem lobby_visits :
    DepthFirst compiler.links [] ["lobby", "unit"] ["lobby", "squad", "unit"] := by
  have hsquad := @squad_visits ["lobby"] (by simp) (by simp)
  have hagain : DepthFirst compiler.links ["lobby", "squad", "unit"] ["unit"]
      ["lobby", "squad", "unit"] := .again (by simp) .done
  refine .first (by simp) ?_ hagain
  rw [lobby_links]
  exact hsquad.append hagain

theorem isNetwork_unitRoot {rest : List SceneNode} :
    compiler.isNetwork ⟨"r", unitRoot :: rest⟩ = true := by
  show (compiler.rules.networkClass? unitRoot).isSome = true
  rw [unitRoot_class]
  rfl

theorem fits_unit : compiler.rules.Fits [⟨".", "Unit", true⟩] :=
  ⟨by decide, by decide, by decide +kernel, by decide +kernel⟩

theorem expansion_unit : compiler.Expansion "unit" [⟨".", "Unit", true⟩] :=
  ⟨unit, unit_read, .network unitRoot_class .nil⟩

theorem expansion_squad : compiler.Expansion "squad" [⟨".", "Unit", true⟩] :=
  ⟨squad, squad_read, .network unitRoot_class
    (.boundary rfl rfl unit_read isNetwork_unitRoot .nil)⟩

theorem expansion_lobby : compiler.Expansion "lobby" [] :=
  ⟨lobby, lobby_read, .bare rfl rfl
    (.boundary rfl rfl squad_read isNetwork_unitRoot
      (.boundary rfl rfl unit_read isNetwork_unitRoot .nil))⟩

theorem reaches_cases {q : String} (h : compiler.Reaches ["lobby", "unit"] q) :
    q = "lobby" ∨ q = "squad" ∨ q = "unit" := by
  simpa using (lobby_visits.mem_iff q).mpr (reaches_iff.mp h)

theorem compilable : compiler.Compilable ["lobby", "unit"] where
  readable q hq := by
    rcases reaches_cases hq with rfl | rfl | rfl
    · exact ⟨lobby, lobby_read⟩
    · exact ⟨squad, squad_read⟩
    · exact ⟨unit, unit_read⟩
  acyclic q hq := by
    have hunit := @unit_visits [] (by simp)
    have hsquad := @squad_visits [] (by simp) (by simp)
    rcases reaches_cases hq with rfl | rfl | rfl
    · have hagain : DepthFirst compiler.links ["squad", "unit"] ["unit"] ["squad", "unit"] :=
        .again (by simp) .done
      exact acyclic_of_depthFirst lobby_links (hsquad.append hagain) (by simp)
    · exact acyclic_of_depthFirst squad_links hunit (by simp)
    · exact acyclic_of_depthFirst unit_links .done (by simp)
  fits q hq ns hns := by
    rcases reaches_cases hq with rfl | rfl | rfl
    · rw [hns.unique expansion_lobby]
      exact ⟨by simp, by simp, by simp [Placement.total], by simp [Placement.total]⟩
    · exact hns.unique expansion_squad ▸ fits_unit
    · exact hns.unique expansion_unit ▸ fits_unit
  scenes paths hnodup hpaths := by
    have hsubset : paths ⊆ ["lobby", "squad", "unit"] := by
      intro q hq
      simpa using reaches_cases (hpaths q hq).1
    exact (hnodup.length_le_of_subset hsubset).trans (by simp)

theorem unit_network : compiler.networkAt "unit" = true :=
  (networkAt_of_descriptor? unit_read).trans isNetwork_unitRoot

theorem squad_network : compiler.networkAt "squad" = true :=
  (networkAt_of_descriptor? squad_read).trans isNetwork_unitRoot

theorem lobby_plain : compiler.networkAt "lobby" = false := networkAt_of_descriptor? lobby_read

/-- From the lobby, the squad is met before the unit. -/
theorem lobby_registers :
    ∃ out s', compiler.run ["lobby", "unit"] {} = (.ok out, s') ∧
      out.registry.scenes.map Prod.snd = ["squad", "unit"] ∧ s'.memo.parses = 3 := by
  obtain ⟨out, s', h⟩ := exists_run_of_compilable compilable {}
  obtain ⟨order, hvisits, -, -, hregistry, hregisters⟩ :=
    run_registers compiler ["lobby", "unit"] {} s' out h
  obtain rfl := hvisits.unique lobby_visits
  refine ⟨out, s', h, ?_, hregisters.parses⟩
  rw [hregistry, hregisters.scenes]
  simp [unit_network, squad_network, lobby_plain]

end Lobby

end Compiler

end NetSchema
