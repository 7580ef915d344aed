import Mathlib.Data.Fintype.Card
import Mathlib.Data.Set.Finite.Basic
import NetSchema.Proofs.Compile.Cycles

/-!
# When a run succeeds

* `exists_expansion`: a scene has an expansion if every descriptor that it leads to can be read and
  none leads back to itself;
* `compilable_of_done`: what has been compiled once can be compiled;
* `run_ok_iff`: a run succeeds exactly if all descriptors that the roots lead to can be read, do not
  lead back and fit, and the network scenes among them can be numbered.
-/

namespace NetSchema.Compiler

variable {c : Compiler} {roots : List String}

/-- What a run needs of the descriptors that its roots lead to. -/
structure Compilable (c : Compiler) (roots : List String) : Prop where
  readable : ∀ q, c.Reaches roots q → ∃ d, c.descriptor? q = some d
  acyclic : ∀ q, c.Reaches roots q → ¬ Relation.TransGen c.Instances q q
  fits : ∀ q, c.Reaches roots q → ∀ ns, c.Expansion q ns → c.rules.Fits ns
  scenes : ∀ paths : List String, paths.Nodup →
    (∀ q ∈ paths, c.Reaches roots q ∧ c.IsNetworkScene q) → paths.length ≤ 255

/-! ## Expansions exist -/

/-- Only finitely many descriptors are reached. -/
theorem finite_reaches (c : Compiler) (roots : List String) : Finite {q // c.Reaches roots q} := by
  refine Set.Finite.subset (List.finite_toSet (roots ++ c.source.mentions)) ?_
  rintro q ⟨root, hroot, hq⟩
  cases hq with
  | refl => exact List.mem_append_left _ hroot
  | tail _ hi =>
    obtain ⟨d, hd, n, hn, hf⟩ := hi
    obtain ⟨text, hl, hp⟩ := exists_text_of_descriptor? hd
    exact List.mem_append_right _ (Source.mem_mentions hl hp hn hf.2)

theorem exists_expansion (hreadable : ∀ q, c.Reaches roots q → ∃ d, c.descriptor? q = some d)
    (hacyclic : ∀ q, c.Reaches roots q → ¬ Relation.TransGen c.Instances q q) {q : String}
    (hq : c.Reaches roots q) : ∃ ns, c.Expansion q ns := by
  let Below (a b : {q // c.Reaches roots q}) : Prop := Relation.TransGen c.Instances b.1 a.1
  have hfinite := finite_reaches c roots
  have htrans : IsTrans _ Below := ⟨fun _ _ _ hab hbc => hbc.trans hab⟩
  have hirrefl : Std.Irrefl Below := ⟨fun a ha => hacyclic a.1 a.2 ha⟩
  have hwf : WellFounded Below := Finite.wellFounded_of_trans_of_irrefl Below
  suffices h : ∀ a : {q // c.Reaches roots q}, ∃ ns, c.Expansion a.1 ns from h ⟨q, hq⟩
  intro a
  induction a using hwf.induction with
  | _ a ih =>
    obtain ⟨d, hd⟩ := hreadable a.1 a.2
    obtain ⟨ns, hns⟩ : ∃ ns, c.ExpandsTo d.nodes ns := by
      refine exists_expandsTo ?_
      intro n hn inst hf
      have hi : c.Instances a.1 inst := ⟨d, hd, n, hn, hf⟩
      exact ih ⟨inst, a.2.step hi⟩ (.single hi)
    exact ⟨ns, d, hd, hns⟩

/-! ## Roots -/

/-- Nothing is under way, the memo is sound, and only network scenes among `Q` are registered. -/
structure Ready (c : Compiler) (Q : String → Prop) (s : CompileState) : Prop where
  pending : s.PendingIs []
  sound : c.Sound s
  registered : c.Registered Q s.registry

theorem ready_empty (Q : String → Prop) (log : List LogRecord) : c.Ready Q { log } :=
  ⟨pendingIs_empty log, sound_invariant.empty log, registered_empty Q⟩

theorem Ready.rooted {Q : String → Prop} {s : CompileState} (h : c.Ready Q s) (root : String)
    (d : SceneData) : c.Ready Q (c.rooted root d s) :=
  rooted_keeps h (fun fs => ⟨h.pending, h.sound.absorb fs, h.registered⟩) root d

theorem Ready.compile {Q : String → Prop} {s : CompileState} (h : c.Ready Q s)
    (hQ : ∀ {outer inner}, Q outer → c.Instances outer inner → Q inner) {path : String}
    (hq : Q path) : c.Ready Q (c.compile path s).2 := by
  have ht := compile_traverses (c := c) h.pending path
  exact ⟨ht.pending h.pending, (ht.sound h.pending (legal_enter ..) h.sound).1,
    ht.registered hQ hq h.registered⟩

/-- Compiling roots ends with all of them compiled, or with a fault that one of them leads to. -/
theorem compileRoots_ends {Q : String → Prop}
    (hQ : ∀ {outer inner}, Q outer → c.Instances outer inner → Q inner)
    (hroots : ∀ root ∈ roots, Q root) {s : CompileState} (h : c.Ready Q s) :
    s.Grows (c.compileRoots roots s).2 ∧ c.Ready Q (c.compileRoots roots s).2 ∧
      Ends
        (fun _ => ∀ root ∈ roots,
          ∃ d, (c.compileRoots roots s).2.memo.get? root = some (.complete d))
        (fun e => ∃ root ∈ roots, c.Fault (c.compileRoots roots s).2.registry root e)
        (c.compileRoots roots s).1 := by
  induction roots generalizing s with
  | nil => exact ⟨.refl s, h, fun _ hmem => nomatch hmem⟩
  | cons root roots ih =>
    have hgrows := (compile_traverses (c := c) h.pending root).grows
    have hready := h.compile hQ (hroots root (List.mem_cons_self ..))
    have hends := compile_ends h.pending h.sound root
    rw [compileRoots_cons]
    cases hres : c.compile root s with
    | mk r s₁ =>
      rw [hres] at hgrows hready hends
      cases r with
      | error e => exact ⟨hgrows, hready, root, List.mem_cons_self .., hends⟩
      | ok d =>
        have hrooted : s₁.Grows (c.rooted root d s₁) :=
          rooted_keeps (.refl s₁) (CompileState.grows_absorb s₁) root d
        obtain ⟨hrest, hready', hends'⟩ := ih (fun r hr => hroots r (List.mem_cons_of_mem _ hr))
          (hready.rooted root d)
        refine ⟨hgrows.trans (hrooted.trans hrest), hready', hends'.imp ?_ ?_⟩
        · intro _ hall r hr
          rcases List.mem_cons.mp hr with rfl | hr
          · exact ⟨d, (hrooted.trans hrest).complete hends.1⟩
          · exact hall r hr
        · rintro e ⟨r, hr, hfault⟩
          exact ⟨r, List.mem_cons_of_mem _ hr, hfault⟩

/-! ## What success and failure tell -/

/-- All that instances lead to from compiled roots has been compiled. -/
theorem Sound.reaches {s : CompileState} (h : c.Sound s)
    (hroots : ∀ root ∈ roots, ∃ d, s.memo.get? root = some (.complete d)) {q : String}
    (hq : c.Reaches roots q) : ∃ d, s.memo.get? q = some (.complete d) := by
  obtain ⟨root, hroot, hpath⟩ := hq
  obtain ⟨d, hd⟩ := hroots root hroot
  exact h.complete_of_reaches hd hpath

theorem Done.of_reaches {registry : Registry} {path q : String} (h : c.Done registry path)
    (hq : Relation.ReflTransGen c.Instances path q) : c.Done registry q :=
  ⟨h.settled.of_reaches hq, fun p hp => h.scenes p (hq.trans hp)⟩

/-- What has been compiled once can be compiled. -/
theorem compilable_of_done {registry : Registry} (hr : registry.Numbered)
    (h : ∀ root ∈ roots, c.Done registry root) : c.Compilable roots := by
  have hsettled : ∀ q, c.Reaches roots q → c.Settled q := by
    rintro q ⟨root, hroot, hq⟩
    exact (h root hroot).settled.of_reaches hq
  constructor
  · intro q hq
    obtain ⟨⟨d, hd, -⟩, -, -⟩ := hsettled q hq
    exact ⟨d, hd⟩
  · intro q hq
    exact (hsettled q hq).acyclic
  · intro q hq ns hns
    obtain ⟨hns', hfits, -⟩ := hsettled q hq
    exact hns'.unique hns ▸ hfits
  · intro paths hnodup hpaths
    refine (hnodup.length_le_of_subset ?_).trans hr.length
    intro q hq
    obtain ⟨⟨root, hroot, hpath⟩, hnet⟩ := hpaths q hq
    exact (h root hroot).scenes q hpath hnet

theorem compilable_of_complete {Q : String → Prop} {s : CompileState} (h : c.Ready Q s)
    (hroots : ∀ root ∈ roots, ∃ d, s.memo.get? root = some (.complete d)) :
    c.Compilable roots := by
  refine compilable_of_done h.registered.numbered ?_
  intro root hroot
  obtain ⟨d, hd⟩ := hroots root hroot
  exact h.sound.done hd

/-- Compilable roots lead to no fault. -/
theorem Compilable.no_fault (h : c.Compilable roots) {registry : Registry}
    (hr : c.Registered (c.Reaches roots) registry) {root : String} (hroot : root ∈ roots)
    {e : SchemaError} : ¬ c.Fault registry root e := by
  rintro ⟨q, hpath, hfault⟩
  have hq : c.Reaches roots q := ⟨root, hroot, hpath⟩
  obtain ⟨d, hd⟩ := h.readable q hq
  obtain ⟨text, hl, hp⟩ := exists_text_of_descriptor? hd
  cases hfault with
  | missing hl' =>
    rw [hl] at hl'
    cases hl'
  | unreadable hl' hp' =>
    obtain rfl := Option.some.inj (hl.symm.trans hl')
    rw [hp] at hp'
    cases hp'
  | unnumbered hnet hnot hfull =>
    -- the scene would be one more than there are numbers
    have hle := h.scenes (q :: registry.paths) (List.nodup_cons.mpr ⟨hnot, hr.numbered.nodup⟩) (by
      intro p hp
      rcases List.mem_cons.mp hp with rfl | hp
      · exact ⟨hq, hnet⟩
      · exact hr.scenes p hp)
    rw [List.length_cons] at hle
    omega
  | cyclic hcycle => exact h.acyclic q hq hcycle.transGen
  | blamed hd' hseen hns hblames =>
    obtain ⟨ms, d', hd'', hms⟩ := exists_expansion h.readable h.acyclic hq
    have hfits := h.fits q hq ms ⟨d', hd'', hms⟩
    obtain rfl := Option.some.inj (hd'.symm.trans hd'')
    obtain ⟨ms', rfl⟩ := hns.prefix_of hseen hms
    exact SchemaError.not_fits_of_blames hblames hfits.of_append

/-- A compilable descriptor compiles on its own. -/
theorem Compilable.compile {path : String} (h : c.Compilable [path]) :
    ∃ data, (c.compile path (c.after [])).1 = .ok data := by
  have hready : c.Ready (c.Reaches [path]) (c.after []) := ready_empty _ []
  have hroot : c.Reaches [path] path := ⟨path, List.mem_singleton_self path, .refl⟩
  have hends := compile_ends hready.pending hready.sound path
  have hready' := hready.compile Reaches.step hroot
  cases hres : (c.compile path (c.after [])).1 with
  | ok data => exact ⟨data, rfl⟩
  | error e =>
    rw [hres] at hends
    exact absurd hends (h.no_fault hready'.registered (List.mem_singleton_self path))

/-- **When a run succeeds.**  Whatever state it begins in. -/
theorem run_ok_iff (c : Compiler) (roots : List String) (s : CompileState) :
    (∃ out, (c.run roots s).1 = .ok out) ↔ c.Compilable roots := by
  have hready : c.Ready (c.Reaches roots) s.reset := ready_empty _ s.log
  obtain ⟨-, hready', hends⟩ := compileRoots_ends (Q := c.Reaches roots) Reaches.step
    (fun root hroot => ⟨root, hroot, .refl⟩) hready
  rw [run]
  cases hres : c.compileRoots roots s.reset with
  | mk r s' =>
    rw [hres] at hready' hends
    cases r with
    | ok u =>
      exact ⟨fun _ => compilable_of_complete hready' hends, fun _ => ⟨_, rfl⟩⟩
    | error e =>
      obtain ⟨root, hroot, hfault⟩ := hends
      constructor
      · rintro ⟨out, hout⟩
        cases hout
      · intro h
        exact absurd hfault (h.no_fault hready'.registered hroot)

end NetSchema.Compiler
