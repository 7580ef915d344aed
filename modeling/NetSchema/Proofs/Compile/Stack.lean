import Mathlib.Data.List.Chain
import Mathlib.Data.List.Nodup
import NetSchema.Proofs.Compile.Traversal

/-!
# The stack of a compilation

The descriptors under way lead from one to the next by instances and are all different.  So what is
cut out of the stack when one of them is met again is a cycle.

* `Traverses.underWay_eq`: what the memo has under way after a task is what it had before, in the
  same order, whether the task fails or not;
* `isCycle_chainTo`: the chain that is reported is a cycle of instances;
* `IsCycle.transGen`: a descriptor with such a chain leads back to itself.
-/

namespace NetSchema

/-! ## What the memo has under way -/

namespace Memo

/-- The descriptors under way in the order in which they were begun. -/
def underWay (m : Memo) : List String :=
  (m.entries.entries.filter fun e => e.2 == .pending).map Prod.fst

variable {m : Memo} {path : String}

theorem mem_underWay {q : String} : q ∈ m.underWay ↔ m.get? q = some .pending := by
  rw [get?, OrderedMap.get?_eq_some_iff]
  simp [underWay]

theorem underWay_begin (h : m.get? path = none) :
    (m.begin path).underWay = m.underWay ++ [path] := by
  rw [underWay, begin, OrderedMap.entries_insert_new (OrderedMap.get?_eq_none_iff.mp h)]
  simp [underWay]

/-- A completed entry is under way no more than an erased one. -/
theorem filter_insertEntry_complete (d : SceneData) {es : List (String × MemoEntry)}
    (hes : (es.map Prod.fst).Nodup) :
    ((OrderedMap.insertEntry path (.complete d) es).filter fun e => e.2 == .pending) =
      (es.filter fun e => e.1 ≠ path).filter fun e => e.2 == .pending := by
  induction es with
  | nil => rfl
  | cons e es ih =>
    obtain ⟨hne, hes'⟩ := List.nodup_cons.mp hes
    by_cases he : e.1 = path
    · have hrest : es.filter (fun e => e.1 ≠ path) = es := by
        rw [List.filter_eq_self]
        intro a ha
        have hne' : a.1 ≠ path := fun h => hne (he ▸ h ▸ List.mem_map_of_mem ha)
        simpa using hne'
      rw [OrderedMap.insertEntry, if_pos he, List.filter_cons_of_neg (by simp),
        List.filter_cons_of_neg (by simpa using he), hrest]
    · rw [OrderedMap.insertEntry, if_neg he, List.filter_cons, ih hes',
        List.filter_cons_of_pos (by simpa using he), List.filter_cons]

theorem underWay_erased (m : Memo) (path : String) :
    (((m.entries.erase path).entries.filter fun e => e.2 == .pending).map Prod.fst) =
      m.underWay.filter (· ≠ path) := by
  rw [underWay, OrderedMap.erase, List.filter_map, List.filter_filter, List.filter_filter]
  simp [Bool.and_comm]

theorem underWay_finish (m : Memo) (path : String) (d : SceneData) :
    (m.finish path d).underWay = m.underWay.filter (· ≠ path) := by
  rw [← underWay_erased, underWay, finish, OrderedMap.insert,
    filter_insertEntry_complete d m.entries.keys_nodup, OrderedMap.erase]

theorem underWay_abandon (h : m.get? path = some .pending) :
    (m.abandon path).underWay = m.underWay.filter (· ≠ path) := by
  rw [← underWay_erased, underWay, abandon, if_pos (isPending_iff.mpr h)]

end Memo

namespace Compiler

variable {c : Compiler}

theorem not_mem_underWay {path : String} {s : CompileState} (hn : s.memo.get? path = none) :
    path ∉ s.memo.underWay := by
  intro hmem
  rw [Memo.mem_underWay, hn] at hmem
  cases hmem

theorem underWay_loaded {path : String} {s : CompileState} (hn : s.memo.get? path = none) :
    (c.loaded path s).memo.underWay = s.memo.underWay ++ [path] :=
  Memo.underWay_begin hn

theorem underWay_opened {path : String} {d : Descriptor} {s s₁ : CompileState}
    {r : Except SchemaError (Option SceneId)} (hn : s.memo.get? path = none)
    (hi : (c.opened path d s).number path (c.isNetwork d) = (r, s₁)) :
    s₁.memo.underWay = s.memo.underWay ++ [path] := by
  rw [CompileState.memo_of_number hi]
  exact underWay_loaded (c := c) hn

/-- What was begun last is taken away. -/
theorem filter_concat {paths : List String} {path : String} (hp : path ∉ paths) :
    (paths ++ [path]).filter (· ≠ path) = paths := by
  rw [List.filter_append, List.filter_cons_of_neg (by simp), List.filter_nil, List.append_nil,
    List.filter_eq_self]
  intro q hq
  have hne : q ≠ path := fun h => hp (h ▸ hq)
  simpa using hne

theorem underWay_abandoned {paths : List String} {path : String} {s : CompileState}
    (hs : s.memo.underWay = paths ++ [path]) (hp : path ∉ paths) :
    (s.abandon path).memo.underWay = paths := by
  have hpending : s.memo.get? path = some .pending := Memo.mem_underWay.mp (by simp [hs])
  rw [CompileState.memo_abandon, Memo.underWay_abandon hpending, hs, filter_concat hp]

theorem underWay_finished {paths : List String} {path : String} {s : CompileState}
    (hs : s.memo.underWay = paths ++ [path]) (hp : path ∉ paths) (d : SceneData) :
    (s.finish path d).memo.underWay = paths := by
  rw [CompileState.memo_finish, Memo.underWay_finish, hs, filter_concat hp]

/-- **The memo follows the stack.**  What is begun with a push is ended with the pop. -/
theorem Traverses.underWay_eq {task : Task} {s s' : CompileState}
    {r : Except SchemaError task.Value} (h : c.Traverses task s r s') :
    s'.memo.underWay = s.memo.underWay := by
  induction h with
  | known _ => rfl
  | cyclic _ => rfl
  | missing hn _ => exact underWay_abandoned (underWay_loaded (c := c) hn) (not_mem_underWay hn)
  | unreadable hn _ _ =>
    exact underWay_abandoned (s := (c.loaded _ _).countParse) (underWay_loaded (c := c) hn)
      (not_mem_underWay hn)
  | unnumbered hn _ hi => exact underWay_abandoned (underWay_opened hn hi) (not_mem_underWay hn)
  | failed hn _ hi _ ih =>
    exact underWay_abandoned (ih.trans (underWay_opened hn hi)) (not_mem_underWay hn)
  | @finished _ _ path _ _ _ draft _ s₂ hn _ hi _ ih =>
    exact underWay_finished (s := s₂.note [compiledNote path draft.data])
      (ih.trans (underWay_opened hn hi)) (not_mem_underWay hn) _
  | network _ => rfl
  | bare _ _ => rfl
  | instanceFails _ _ _ ih => exact ih
  | boundary _ _ _ _ ih => exact ih
  | merged _ _ _ _ ih => exact ih
  | done => rfl
  | stops _ ih => exact ih
  | next _ _ ihn ihw => exact ihw.trans ihn

/-- `chain` leads from `path` along instances back to it, and passes no other descriptor twice. -/
structure IsCycle (c : Compiler) (path : String) (chain : List String) : Prop where
  first : chain.head? = some path
  last : chain.getLast? = some path
  length : 2 ≤ chain.length
  nodup : chain.dropLast.Nodup
  instances : chain.IsChain c.Instances

/-- A task may begin: the descriptors of its stack are different, and each leads to the next and
the last one to what the task may begin with. -/
def Task.Legal (c : Compiler) : Task → Prop
  | .enter stack _ path => stack.Nodup ∧ (stack ++ [path]).IsChain c.Instances
  | .node stack _ n _ =>
    stack.Nodup ∧ ∀ inst, c.Follows n inst → (stack ++ [inst]).IsChain c.Instances
  | .walk stack _ nodes _ =>
    stack.Nodup ∧ ∀ n ∈ nodes, ∀ inst, c.Follows n inst → (stack ++ [inst]).IsChain c.Instances

theorem legal_enter (referrer : Option String) (path : String) :
    (Task.enter [] referrer path).Legal c :=
  ⟨List.nodup_nil, List.isChain_singleton path⟩

/-- The nodes of a descriptor that is put on the stack. -/
theorem Task.Legal.walk {stack : List String} {referrer : Option String} {path : String}
    {d : Descriptor} {draft : Draft} (h : (Task.enter stack referrer path).Legal c)
    (hp : path ∉ stack) (hd : c.descriptor? path = some d) :
    (Task.walk (stack ++ [path]) path d.nodes draft).Legal c := by
  obtain ⟨hnodup, hchain⟩ := h
  constructor
  · rw [← List.concat_eq_append]
    exact List.Nodup.concat hp hnodup
  · intro n hn inst hf
    rw [List.isChain_append]
    refine ⟨hchain, List.isChain_singleton inst, ?_⟩
    intro x hx y hy
    obtain rfl : path = x := by simpa using hx
    obtain rfl : inst = y := by simpa using hy
    exact ⟨d, hd, n, hn, hf⟩

theorem Task.Legal.enter {stack : List String} {path inst : String} {n : SceneNode} {draft : Draft}
    (h : (Task.node stack path n draft).Legal c) (hf : c.Follows n inst)
    (referrer : Option String) : (Task.enter stack referrer inst).Legal c :=
  ⟨h.1, h.2 inst hf⟩

theorem Task.Legal.node {stack : List String} {path : String} {n : SceneNode}
    {rest : List SceneNode} {draft : Draft} (h : (Task.walk stack path (n :: rest) draft).Legal c) :
    (Task.node stack path n draft).Legal c :=
  ⟨h.1, h.2 n (List.mem_cons_self ..)⟩

theorem Task.Legal.rest {stack : List String} {path : String} {n : SceneNode}
    {rest : List SceneNode} {draft draft' : Draft}
    (h : (Task.walk stack path (n :: rest) draft).Legal c) :
    (Task.walk stack path rest draft').Legal c :=
  ⟨h.1, fun m hm => h.2 m (List.mem_cons_of_mem _ hm)⟩

/-- What is cut out of a stack that holds `path`. -/
theorem chainTo_of_stack {s : CompileState} {outer inner : List String} {path : String}
    (hs : s.stack = outer ++ path :: inner) (hout : path ∉ outer) :
    s.chainTo path = path :: inner ++ [path] := by
  have hindex : s.stack.idxOf? path = some outer.length := by
    have hnone : outer.findIdx? (· == path) = none := by
      rw [List.findIdx?_eq_none_iff]
      intro q hq
      have hne : q ≠ path := fun h => hout (h ▸ hq)
      simpa using hne
    rw [hs, List.idxOf?, List.findIdx?_append, hnone]
    simp [List.findIdx?_cons]
  rw [CompileState.chainTo, hindex, Option.getD_some, hs, List.drop_left]

/-- **Reported chains are cycles.**  What the stack holds from `path` on, and `path` again. -/
theorem isCycle_chainTo {s : CompileState} {referrer : Option String} {path : String}
    (h : (Task.enter s.stack referrer path).Legal c) (hp : path ∈ s.stack) :
    c.IsCycle path (s.chainTo path) := by
  obtain ⟨hnodup, hchain⟩ := h
  obtain ⟨outer, inner, hs, hout⟩ := List.eq_append_cons_of_mem hp
  rw [hs] at hnodup hchain
  rw [chainTo_of_stack hs hout]
  constructor
  · rfl
  · exact List.getLast?_concat
  · simp
  · rw [List.dropLast_concat]
    exact (List.nodup_append.mp hnodup).2.1
  · exact hchain.suffix ⟨outer, by rw [List.append_assoc]⟩

/-- A descriptor on a cycle leads back to itself. -/
theorem IsCycle.transGen {path : String} {chain : List String} (h : c.IsCycle path chain) :
    Relation.TransGen c.Instances path path := by
  obtain ⟨hfirst, hlast, hlength, -, hchain⟩ := h
  match chain, hlength with
  | first :: second :: rest, _ =>
    obtain rfl := Option.some.inj hfirst
    rw [List.isChain_cons_cons] at hchain
    have hend : (second :: rest).getLast (List.cons_ne_nil _ _) = first := by
      rw [List.getLast?_cons_cons,
        List.getLast?_eq_getLast_of_ne_nil (List.cons_ne_nil _ _)] at hlast
      exact Option.some.inj hlast
    exact .head' hchain.1 (List.relationReflTransGen_of_exists_isChain_cons rest hchain.2 hend)

end Compiler

end NetSchema
