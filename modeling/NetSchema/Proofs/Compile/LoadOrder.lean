import NetSchema.Proofs.Class.Answers
import NetSchema.Proofs.Compile.History

/-!
# The order in which classes are loaded

A compilation learns about classes from a class table and from nothing else.  So tables that agree
on their look-ups lead to the same results, and the order in which classes were inserted is not to
be seen in a schema.

* `Rules.Agrees`: what the rules say of a node or member, when their tables agree;
* `Traverses.of_agrees`: each task ends in the same way;
* `run_of_agrees`: so does each run;
* `load_order`: class lists that are permutations of each other can be loaded or not together, and
  then give the same answers and the same schemas.
-/

namespace NetSchema

/-! ## Rules -/

namespace Rules

/-- The same names are singled out, and the tables agree. -/
structure Agrees (r r' : Rules) : Prop where
  classes : r.classes.Agrees r'.classes
  config : r.config = r'.config

variable {r r' : Rules}

namespace Agrees

theorem scriptClass? (h : r.Agrees r') (n : SceneNode) : r.scriptClass? n = r'.scriptClass? n := by
  rw [Rules.scriptClass?, Rules.scriptClass?, funext h.classes.ofScript?]

theorem networkClass? (h : r.Agrees r') (n : SceneNode) :
    r.networkClass? n = r'.networkClass? n := by
  simp only [Rules.networkClass?, h.scriptClass?, h.config, h.classes.isSubclassOf]

theorem networkClassNotes (h : r.Agrees r') (n : SceneNode) :
    r.networkClassNotes n = r'.networkClassNotes n := by
  simp only [Rules.networkClassNotes, h.config, h.classes.ofScript?, h.classes.ancestryNotes,
    h.classes.isSubclassOf]

theorem memberWire (h : r.Agrees r') (site : Site) (member : String) (type : DeclaredType)
    (subtype : Option WireSubtype) :
    r.memberWire site member type subtype = r'.memberWire site member type subtype := by
  rw [Rules.memberWire, Rules.memberWire, h.config]

theorem serializer? (h : r.Agrees r') (wire : Wire) (type : DeclaredType) (interface : String) :
    r.serializer? wire type interface = r'.serializer? wire type interface := by
  rw [Rules.serializer?, Rules.serializer?, h.classes.implementer?]

theorem serializerNotes (h : r.Agrees r') (wire : Wire) (type : DeclaredType) :
    r.serializerNotes wire type = r'.serializerNotes wire type := by
  rw [Rules.serializerNotes, Rules.serializerNotes, h.classes.ancestryNotes]

theorem propertyEntry (h : r.Agrees r') (site : Site) (p : AnnotatedProperty)
    (numbering : Numbering) :
    r.propertyEntry site p numbering = r'.propertyEntry site p numbering := by
  simp only [Rules.propertyEntry, h.memberWire, h.serializerNotes, h.serializer?, h.config,
    h.classes.interestMask]

theorem parameterWires (h : r.Agrees r') (site : Site) (function : String)
    (ps : List AnnotatedParameter) :
    r.parameterWires site function ps = r'.parameterWires site function ps := by
  induction ps with
  | nil => rfl
  | cons p ps ih => rw [Rules.parameterWires, Rules.parameterWires, h.memberWire, ih]

theorem functionEntry (h : r.Agrees r') (site : Site) (f : AnnotatedFunction)
    (numbering : Numbering) :
    r.functionEntry site f numbering = r'.functionEntry site f numbering := by
  rw [Rules.functionEntry, Rules.functionEntry, h.parameterWires]

end Agrees

end Rules

/-! ## Drafts -/

namespace Draft

variable {r r' : Rules}

theorem addProperties_of_agrees (h : r.Agrees r') (site : Rules.Site) (isRoot : Bool)
    (ps : List AnnotatedProperty) (d : Draft) :
    addProperties r site isRoot ps d = addProperties r' site isRoot ps d := by
  induction ps generalizing d with
  | nil => rfl
  | cons p ps ih =>
    rw [addProperties, addProperties, h.config, h.propertyEntry]
    simp only [ih]

theorem addFunctions_of_agrees (h : r.Agrees r') (site : Rules.Site) (fs : List AnnotatedFunction)
    (d : Draft) : addFunctions r site fs d = addFunctions r' site fs d := by
  induction fs generalizing d with
  | nil => rfl
  | cons f fs ih =>
    rw [addFunctions, addFunctions, h.functionEntry]
    simp only [ih]

theorem addNode_of_agrees (h : r.Agrees r') (n : SceneNode) (cls : String) (d : Draft) :
    d.addNode r n cls = d.addNode r' n cls := by
  simp only [addNode, h.classes.annotatedMembers, h.classes.memberNotes,
    addProperties_of_agrees h, addFunctions_of_agrees h]

end Draft

/-! ## Compilations -/

namespace Compiler

variable {source : Source} {r r' : Rules} {s s' : CompileState}

theorem isNetwork_of_agrees (h : r.Agrees r') (d : Descriptor) :
    isNetwork ⟨source, r⟩ d = isNetwork ⟨source, r'⟩ d := by
  rw [isNetwork, isNetwork, funext h.networkClass?]

theorem opened_of_agrees (h : r.Agrees r') (path : String) (d : Descriptor) (s : CompileState) :
    opened ⟨source, r⟩ path d s = opened ⟨source, r'⟩ path d s := by
  rw [opened, opened, funext h.networkClassNotes]
  rfl

/-- **Steps.**  A task takes the same steps wherever the classes come from. -/
theorem Traverses.of_agrees (h : r.Agrees r') {task : Task} {x : Except SchemaError task.Value}
    (ht : Traverses ⟨source, r⟩ task s x s') : Traverses ⟨source, r'⟩ task s x s' := by
  induction ht with
  | known hk => exact .known hk
  | cyclic hk => exact .cyclic hk
  | missing hn hl => exact .missing hn hl
  | unreadable hn hl hd => exact .unreadable hn hl hd
  | unnumbered hn hd hi =>
    rw [opened_of_agrees h, isNetwork_of_agrees h] at hi
    exact .unnumbered hn hd hi
  | failed hn hd hi _ ih =>
    rw [opened_of_agrees h, isNetwork_of_agrees h] at hi
    exact .failed hn hd hi ih
  | finished hn hd hi _ ih =>
    rw [opened_of_agrees h, isNetwork_of_agrees h] at hi
    exact .finished hn hd hi ih
  | network hn =>
    rw [h.networkClass?] at hn
    rw [h.networkClassNotes, Draft.addNode_of_agrees h]
    exact .network hn
  | bare hn hi =>
    rw [h.networkClass?] at hn
    rw [h.networkClassNotes]
    exact .bare hn hi
  | instanceFails hn hi _ ih =>
    rw [h.networkClass?] at hn
    rw [h.networkClassNotes] at ih
    exact .instanceFails hn hi ih
  | boundary hn hi _ hnet ih =>
    rw [h.networkClass?] at hn
    rw [h.networkClassNotes] at ih
    exact .boundary hn hi ih hnet
  | merged hn hi _ hnet ih =>
    rw [h.networkClass?] at hn
    rw [h.networkClassNotes] at ih
    exact .merged hn hi ih hnet
  | done => exact .done
  | stops _ ih => exact .stops ih
  | next _ _ ihn ihw => exact .next ihn ihw

theorem compile_of_agrees (h : r.Agrees r') (hs : s.PendingIs []) (path : String) :
    compile ⟨source, r⟩ path s = compile ⟨source, r'⟩ path s := by
  have ht := (compile_traverses (c := ⟨source, r⟩) hs path).of_agrees h
  obtain ⟨hx, hs'⟩ := ht.unique (compile_traverses (c := ⟨source, r'⟩) hs path)
  exact Prod.ext hx hs'

theorem rooted_of_agrees (h : r.Agrees r') (root : String) (d : SceneData) (s : CompileState) :
    rooted ⟨source, r⟩ root d s = rooted ⟨source, r'⟩ root d s := by
  rw [rooted, rooted, notNetworkScene, notNetworkScene, h.config]

theorem compileRoots_of_agrees (h : r.Agrees r') (roots : List String) (hs : s.PendingIs []) :
    compileRoots ⟨source, r⟩ roots s = compileRoots ⟨source, r'⟩ roots s := by
  induction roots generalizing s with
  | nil => rfl
  | cons root roots ih =>
    have ht := compile_traverses (c := ⟨source, r'⟩) hs root
    rw [compileRoots_cons, compileRoots_cons, compile_of_agrees h hs]
    rcases hc : compile ⟨source, r'⟩ root s with ⟨e | d, s₁⟩
    · rfl
    · rw [hc] at ht
      have hs₁ : s₁.PendingIs [] := ht.pending hs
      simp only [rooted_of_agrees h]
      apply ih
      exact rooted_keeps (P := fun s => s.PendingIs []) hs₁ (fun _ => hs₁) root d

/-- **Runs.**  A run comes to the same schema, diagnostics and log. -/
theorem run_of_agrees (h : r.Agrees r') (roots : List String) (s : CompileState) :
    run ⟨source, r⟩ roots s = run ⟨source, r'⟩ roots s := by
  have hroots : compileRoots ⟨source, r⟩ roots { log := s.log } =
      compileRoots ⟨source, r'⟩ roots { log := s.log } :=
    compileRoots_of_agrees h roots (pendingIs_empty s.log)
  rw [run, run, show s.reset = { log := s.log } from rfl, hroots]

/-! ## Loading -/

/-- **The order of classes.**  Classes can be loaded in one order exactly if they can be loaded in
any other; all questions about them then have the same answer, and all runs end in the same way. -/
theorem load_order {cs cs' : List ClassDecl} (hp : cs.Perm cs') :
    ((ClassTable.insertAll {} cs).1 = .ok () ↔ (ClassTable.insertAll {} cs').1 = .ok ()) ∧
      ((ClassTable.insertAll {} cs).1 = .ok () →
        (ClassTable.insertAll {} cs).2.SameAnswers (ClassTable.insertAll {} cs').2 ∧
        ∀ (source : Source) (config : CompilerConfig) (roots : List String) (s : CompileState),
          run ⟨source, (ClassTable.insertAll {} cs).2, config⟩ roots s =
            run ⟨source, (ClassTable.insertAll {} cs').2, config⟩ roots s) := by
  have hiff : (ClassTable.insertAll {} cs).1 = .ok () ↔
      (ClassTable.insertAll {} cs').1 = .ok () := by
    rw [ClassTable.insertAll_ok_iff, ClassTable.insertAll_ok_iff, ClassTable.distinct_perm hp]
  refine ⟨hiff, ?_⟩
  intro hok
  have hagrees := ClassTable.agrees_of_perm (ClassTable.holds_of_insertAll hok)
    (ClassTable.holds_of_insertAll (hiff.mp hok)) hp
  exact ⟨hagrees.sameAnswers, fun source config => run_of_agrees ⟨hagrees, rfl⟩⟩

/-- A base class and a class with a script below it, in either order. -/
theorem load_order_of_two :
    (ClassTable.insertAll {} [{ name := "Base" },
        { name := "Hero", base := some "Base", script := some "hero.x" }]).2.SameAnswers
      (ClassTable.insertAll {} [{ name := "Hero", base := some "Base", script := some "hero.x" },
        { name := "Base" }]).2 :=
  ((load_order (.swap ..)).2 (by with_unfolding_all rfl)).1

end Compiler

end NetSchema
