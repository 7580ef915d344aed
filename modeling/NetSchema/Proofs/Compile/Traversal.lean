import NetSchema.Proofs.OrderedMap
import NetSchema.Proofs.Compile.Instances

/-!
# How a compilation proceeds

`Traverses` states the rules by which descriptors are compiled: what is done with a descriptor, with
a node of it and with a list of nodes, and in which state that leaves the compiler.  The rules tell
a cycle by the memo alone.

* `Traverses.stack_eq`: a task pops what it has pushed, whether it fails or not;
* `Traverses.pending`: what is under way after a task is what was under way before it;
* `Traverses.of_follows`, `Traverses.of_opened`: what following a node and reading a descriptor come
  to;
* `Traverses.unique`: a task has one result;
* `enter_traverses`: compiling follows the rules whenever the descriptors under way, in the memo and
  on the stack, are the ones it is compiled for, so that these never decide anything.
-/

namespace NetSchema

/-! ## The memo -/

namespace Memo

theorem completed?_eq_some_iff {m : Memo} {path : String} {d : SceneData} :
    m.completed? path = some d ↔ m.get? path = some (.complete d) := by
  unfold completed?
  split
  · next h => simp [h]
  · next h =>
    constructor
    · intro he
      simp at he
    · intro he
      exact absurd he (h d)

theorem isPending_iff {m : Memo} {path : String} :
    m.isPending path = true ↔ m.get? path = some .pending := by
  simp [isPending]

theorem get?_eq_none_of {m : Memo} {path : String} (hc : m.completed? path = none)
    (hp : ¬ m.isPending path = true) : m.get? path = none := by
  cases h : m.get? path with
  | none => rfl
  | some e =>
    cases e with
    | pending => exact absurd (isPending_iff.mpr h) hp
    | complete d => simp [completed?, h] at hc

theorem get?_begin (m : Memo) (path q : String) :
    (m.begin path).get? q = if q = path then some .pending else m.get? q :=
  OrderedMap.get?_insert ..

theorem get?_finish (m : Memo) (path q : String) (d : SceneData) :
    (m.finish path d).get? q = if q = path then some (.complete d) else m.get? q :=
  OrderedMap.get?_insert ..

theorem get?_abandon {m : Memo} {path : String} (h : m.get? path = some .pending) (q : String) :
    (m.abandon path).get? q = if q = path then none else m.get? q := by
  rw [abandon, if_pos (isPending_iff.mpr h)]
  exact OrderedMap.get?_erase ..

end Memo

/-! ## Steps on the state -/

namespace CompileState

@[simp] theorem memo_note (s : CompileState) (rs : List LogRecord) :
    (s.note rs).memo = s.memo := rfl

@[simp] theorem memo_begin (s : CompileState) (path : String) :
    (s.begin path).memo = s.memo.begin path := rfl

@[simp] theorem memo_abandon (s : CompileState) (path : String) :
    (s.abandon path).memo = s.memo.abandon path := rfl

@[simp] theorem memo_finish (s : CompileState) (path : String) (d : SceneData) :
    (s.finish path d).memo = s.memo.finish path d := rfl

@[simp] theorem stack_note (s : CompileState) (rs : List LogRecord) :
    (s.note rs).stack = s.stack := rfl

@[simp] theorem stack_begin (s : CompileState) (path : String) :
    (s.begin path).stack = s.stack ++ [path] := rfl

@[simp] theorem stack_abandon (s : CompileState) (path : String) :
    (s.abandon path).stack = s.stack.dropLast := rfl

@[simp] theorem stack_finish (s : CompileState) (path : String) (d : SceneData) :
    (s.finish path d).stack = s.stack.dropLast := rfl

theorem number_keeps {s s' : CompileState} {path : String} {b : Bool}
    {r : Except SchemaError (Option SceneId)} (h : s.number path b = (r, s')) :
    s'.memo = s.memo ∧ s'.stack = s.stack := by
  obtain rfl : (s.number path b).2 = s' := by rw [h]
  unfold number
  split
  · split
    · exact ⟨rfl, rfl⟩
    · exact ⟨rfl, rfl⟩
  · exact ⟨rfl, rfl⟩

theorem memo_of_number {s s' : CompileState} {path : String} {b : Bool}
    {r : Except SchemaError (Option SceneId)} (h : s.number path b = (r, s')) :
    s'.memo = s.memo :=
  (number_keeps h).1

theorem stack_of_number {s s' : CompileState} {path : String} {b : Bool}
    {r : Except SchemaError (Option SceneId)} (h : s.number path b = (r, s')) :
    s'.stack = s.stack :=
  (number_keeps h).2

/-! ## What is under way -/

/-- The descriptors under way are those of `stack`, for the memo as for the stack itself. -/
def PendingIs (stack : List String) (s : CompileState) : Prop :=
  s.stack = stack ∧ ∀ q, s.memo.get? q = some .pending ↔ q ∈ stack

theorem PendingIs.get?_iff {stack : List String} {s : CompileState} (h : s.PendingIs stack)
    (q : String) : s.memo.get? q = some .pending ↔ q ∈ stack :=
  h.2 q

theorem PendingIs.countParse {stack : List String} {s : CompileState} (h : s.PendingIs stack) :
    s.countParse.PendingIs stack :=
  h

theorem PendingIs.number {stack : List String} {s s' : CompileState} {path : String} {b : Bool}
    {r : Except SchemaError (Option SceneId)} (h : s.PendingIs stack)
    (hn : s.number path b = (r, s')) : s'.PendingIs stack := by
  unfold PendingIs
  rw [memo_of_number hn, stack_of_number hn]
  exact h

theorem PendingIs.not_mem {stack : List String} {s : CompileState} {path : String}
    (h : s.PendingIs stack) (hn : s.memo.get? path = none) : path ∉ stack := by
  intro hm
  have hp := (h.get?_iff path).mpr hm
  rw [hn] at hp
  cases hp

theorem PendingIs.begin {stack : List String} {s : CompileState} (h : s.PendingIs stack)
    (path : String) : (s.begin path).PendingIs (stack ++ [path]) := by
  obtain ⟨rfl, hmemo⟩ := h
  refine ⟨stack_begin s path, ?_⟩
  intro q
  rw [memo_begin, Memo.get?_begin, List.mem_append, List.mem_singleton, ← hmemo q]
  by_cases hq : q = path
  · simp [hq]
  · simp [hq]

theorem PendingIs.get?_self {stack : List String} {s : CompileState} {path : String}
    (h : s.PendingIs (stack ++ [path])) : s.memo.get? path = some .pending :=
  (h.get?_iff path).mpr (by simp)

theorem PendingIs.abandon {stack : List String} {s : CompileState} {path : String}
    (h : s.PendingIs (stack ++ [path])) (hp : path ∉ stack) : (s.abandon path).PendingIs stack := by
  refine ⟨by rw [stack_abandon, h.1, List.dropLast_concat], ?_⟩
  intro q
  have hq := h.get?_iff q
  rw [memo_abandon, Memo.get?_abandon h.get?_self]
  by_cases he : q = path
  · subst he
    simp [hp]
  · simpa [he] using hq

theorem PendingIs.finish {stack : List String} {s : CompileState} {path : String}
    (h : s.PendingIs (stack ++ [path])) (hp : path ∉ stack) (d : SceneData) :
    (s.finish path d).PendingIs stack := by
  refine ⟨by rw [stack_finish, h.1, List.dropLast_concat], ?_⟩
  intro q
  have hq := h.get?_iff q
  rw [memo_finish, Memo.get?_finish]
  by_cases he : q = path
  · subst he
    simp [hp]
  · simpa [he] using hq

end CompileState

namespace Compiler

/-! ## The rules -/

/-- What a compilation has to do while the descriptors of `stack` are under way: compile a
descriptor, add a node of the descriptor at `path` to its draft, or add a list of nodes. -/
inductive Task where
  | enter (stack : List String) (referrer : Option String) (path : String)
  | node (stack : List String) (path : String) (n : SceneNode) (draft : Draft)
  | walk (stack : List String) (path : String) (nodes : List SceneNode) (draft : Draft)

/-- What a task produces when it does not fail. -/
abbrev Task.Value : Task → Type
  | .enter .. => SceneData
  | .node .. => Draft
  | .walk .. => Draft

def Task.stack : Task → List String
  | .enter stack .. => stack
  | .node stack .. => stack
  | .walk stack .. => stack

/-- The state in which the descriptor at `path` has been looked for. -/
def loaded (c : Compiler) (path : String) (s : CompileState) : CompileState :=
  (s.begin path).note (c.source.notes path)

/-- The state in which the descriptor at `path` has been read. -/
def opened (c : Compiler) (path : String) (d : Descriptor) (s : CompileState) : CompileState :=
  (c.loaded path s).countParse.note ((d.rootNode?.map c.rules.networkClassNotes).getD [])

/-- `Traverses c task s r s'`: from `s`, the task ends with `r` and leaves `s'`. -/
inductive Traverses (c : Compiler) :
    (task : Task) → CompileState → Except SchemaError task.Value → CompileState → Prop
  | known {stack referrer path s d} : s.memo.get? path = some (.complete d) →
      Traverses c (.enter stack referrer path) s (.ok d)
        (s.note [⟨.debug, .compiler, "cache hit `" ++ path ++ "`"⟩])
  | cyclic {stack referrer path s} : s.memo.get? path = some .pending →
      Traverses c (.enter stack referrer path) s
        (.error (.circularInstancing path (s.chainTo path))) s
  | missing {stack referrer path s} : s.memo.get? path = none → c.source.load path = none →
      Traverses c (.enter stack referrer path) s (.error (.missingDescriptor path referrer))
        ((c.loaded path s).abandon path)
  | unreadable {stack referrer path s text e} : s.memo.get? path = none →
      c.source.load path = some text → Descriptor.parse text = .error e →
      Traverses c (.enter stack referrer path) s (.error (.parse path e))
        ((c.loaded path s).countParse.abandon path)
  | unnumbered {stack referrer path s d e s₁} : s.memo.get? path = none →
      c.descriptor? path = some d →
      (c.opened path d s).number path (c.isNetwork d) = (.error e, s₁) →
      Traverses c (.enter stack referrer path) s (.error e) (s₁.abandon path)
  | failed {stack referrer path s d id e s₁ s₂} : s.memo.get? path = none →
      c.descriptor? path = some d →
      (c.opened path d s).number path (c.isNetwork d) = (.ok id, s₁) →
      Traverses c (.walk (stack ++ [path]) path d.nodes (.start path id)) s₁ (.error e) s₂ →
      Traverses c (.enter stack referrer path) s (.error e) (s₂.abandon path)
  | finished {stack referrer path s d id draft s₁ s₂} : s.memo.get? path = none →
      c.descriptor? path = some d →
      (c.opened path d s).number path (c.isNetwork d) = (.ok id, s₁) →
      Traverses c (.walk (stack ++ [path]) path d.nodes (.start path id)) s₁ (.ok draft) s₂ →
      Traverses c (.enter stack referrer path) s (.ok draft.data)
        ((s₂.note [compiledNote path draft.data]).finish path draft.data)
  | network {stack path n draft s cls} : c.rules.networkClass? n = some cls →
      Traverses c (.node stack path n draft) s (draft.addNode c.rules n cls).result
        ((s.note (c.rules.networkClassNotes n)).absorb (draft.addNode c.rules n cls).findings)
  | bare {stack path n draft s} : c.rules.networkClass? n = none → n.instance? = none →
      Traverses c (.node stack path n draft) s (.ok draft) (s.note (c.rules.networkClassNotes n))
  | instanceFails {stack path n draft s inst e s₁} : c.rules.networkClass? n = none →
      n.instance? = some inst →
      Traverses c (.enter stack (some (path ++ ":" ++ n.path)) inst)
        (s.note (c.rules.networkClassNotes n)) (.error e) s₁ →
      Traverses c (.node stack path n draft) s (.error e) s₁
  | boundary {stack path n draft s inst child s₁} : c.rules.networkClass? n = none →
      n.instance? = some inst →
      Traverses c (.enter stack (some (path ++ ":" ++ n.path)) inst)
        (s.note (c.rules.networkClassNotes n)) (.ok child) s₁ →
      child.isNetworkScene = true →
      Traverses c (.node stack path n draft) s (.ok draft)
        (s₁.note
          [Draft.nodeNote ⟨path, n.path⟩ ("`" ++ inst ++ "` is a network scene, not merged")])
  | merged {stack path n draft s inst child s₁} : c.rules.networkClass? n = none →
      n.instance? = some inst →
      Traverses c (.enter stack (some (path ++ ":" ++ n.path)) inst)
        (s.note (c.rules.networkClassNotes n)) (.ok child) s₁ →
      child.isNetworkScene = false →
      Traverses c (.node stack path n draft) s (draft.merge n.path child) s₁
  | done {stack path draft s} : Traverses c (.walk stack path [] draft) s (.ok draft) s
  | stops {stack path n rest draft s e s₁} :
      Traverses c (.node stack path n draft) s (.error e) s₁ →
      Traverses c (.walk stack path (n :: rest) draft) s (.error e) s₁
  | next {stack path n rest draft draft₁ s s₁ r s₂} :
      Traverses c (.node stack path n draft) s (.ok draft₁) s₁ →
      Traverses c (.walk stack path rest draft₁) s₁ r s₂ →
      Traverses c (.walk stack path (n :: rest) draft) s r s₂

variable {c : Compiler}

/-! ## What is under way after a task -/

theorem opened_stack {s s₁ : CompileState} {path : String} {d : Descriptor}
    {r : Except SchemaError (Option SceneId)}
    (hn : (c.opened path d s).number path (c.isNetwork d) = (r, s₁)) :
    s₁.stack = s.stack ++ [path] :=
  CompileState.stack_of_number hn

/-- A task pops what it has pushed. -/
theorem Traverses.stack_eq {task : Task} {s s' : CompileState} {r : Except SchemaError task.Value}
    (h : c.Traverses task s r s') : s'.stack = s.stack := by
  induction h with
  | known _ => rfl
  | cyclic _ => rfl
  | missing _ _ => exact List.dropLast_concat
  | unreadable _ _ _ => exact List.dropLast_concat
  | unnumbered _ _ hi => rw [CompileState.stack_abandon, opened_stack hi, List.dropLast_concat]
  | failed _ _ hi _ ih =>
    rw [CompileState.stack_abandon, ih, opened_stack hi, List.dropLast_concat]
  | finished _ _ hi _ ih =>
    rw [CompileState.stack_finish, CompileState.stack_note, ih, opened_stack hi,
      List.dropLast_concat]
  | network _ => rfl
  | bare _ _ => rfl
  | instanceFails _ _ _ ih => exact ih
  | boundary _ _ _ _ ih => exact ih
  | merged _ _ _ _ ih => exact ih
  | done => rfl
  | stops _ ih => exact ih
  | next _ _ ihn ihw => exact ihw.trans ihn

theorem loaded_pending {stack : List String} {s : CompileState} (h : s.PendingIs stack)
    (path : String) : (c.loaded path s).PendingIs (stack ++ [path]) :=
  h.begin path

theorem opened_pending {stack : List String} {s s₁ : CompileState} {path : String} {d : Descriptor}
    {r : Except SchemaError (Option SceneId)} (h : s.PendingIs stack)
    (hn : (c.opened path d s).number path (c.isNetwork d) = (r, s₁)) :
    s₁.PendingIs (stack ++ [path]) :=
  CompileState.PendingIs.number (s := c.opened path d s) (h.begin path) hn

theorem Traverses.pending {task : Task} {s s' : CompileState} {r : Except SchemaError task.Value}
    (h : c.Traverses task s r s') (hs : s.PendingIs task.stack) : s'.PendingIs task.stack := by
  induction h with
  | known _ => exact hs
  | cyclic _ => exact hs
  | missing hn _ => exact (loaded_pending hs _).abandon (hs.not_mem hn)
  | unreadable hn _ _ => exact (loaded_pending hs _).countParse.abandon (hs.not_mem hn)
  | unnumbered hn _ hi => exact (opened_pending hs hi).abandon (hs.not_mem hn)
  | failed hn _ hi _ ih => exact (ih (opened_pending hs hi)).abandon (hs.not_mem hn)
  | finished hn _ hi _ ih => exact (ih (opened_pending hs hi)).finish (hs.not_mem hn) _
  | network _ => exact hs
  | bare _ _ => exact hs
  | instanceFails _ _ _ ih => exact ih hs
  | boundary _ _ _ _ ih => exact ih hs
  | merged _ _ _ _ ih => exact ih hs
  | done => exact hs
  | stops _ ih => exact ih hs
  | next _ _ ihn ihw => exact ihw (ihn hs)

/-! ## A task has one result -/

/-- What becomes of the draft of `path` when the scene at `inst`, which `n` instances, has been
compiled. -/
def placed (path : String) (n : SceneNode) (inst : String) (draft : Draft) :
    Except SchemaError SceneData × CompileState → Except SchemaError Draft × CompileState
  | (.error e, s) => (.error e, s)
  | (.ok child, s) =>
    if child.isNetworkScene then
      (.ok draft, s.note
        [Draft.nodeNote ⟨path, n.path⟩ ("`" ++ inst ++ "` is a network scene, not merged")])
    else (draft.merge n.path child, s)

/-- What becomes of the descriptor at `path` when its nodes have been walked. -/
def walked (path : String) :
    Except SchemaError Draft × CompileState → Except SchemaError SceneData × CompileState
  | (.error e, s) => (.error e, s.abandon path)
  | (.ok draft, s) =>
    (.ok draft.data, (s.note [compiledNote path draft.data]).finish path draft.data)

/-- A node that is followed: its scene is compiled and placed. -/
theorem Traverses.of_follows {stack : List String} {path inst : String} {n : SceneNode}
    {draft : Draft} {s s' : CompileState} {r : Except SchemaError Draft}
    (h : c.Traverses (.node stack path n draft) s r s') (hf : c.Follows n inst) :
    ∃ (r₁ : Except SchemaError SceneData) (s₁ : CompileState),
      c.Traverses (.enter stack (some (path ++ ":" ++ n.path)) inst)
        (s.note (c.rules.networkClassNotes n)) r₁ s₁ ∧
      placed path n inst draft (r₁, s₁) = (r, s') := by
  obtain ⟨hn, hi⟩ := hf
  cases h with
  | network hn' =>
    rw [hn] at hn'
    cases hn'
  | bare _ hi' =>
    rw [hi] at hi'
    cases hi'
  | instanceFails _ hi' he =>
    obtain rfl := Option.some.inj (hi.symm.trans hi')
    exact ⟨_, _, he, rfl⟩
  | boundary _ hi' he hnet =>
    obtain rfl := Option.some.inj (hi.symm.trans hi')
    exact ⟨_, _, he, by simp only [placed, hnet, if_true]⟩
  | merged _ hi' he hnet =>
    obtain rfl := Option.some.inj (hi.symm.trans hi')
    exact ⟨_, _, he, by simp [placed, hnet]⟩

/-- A descriptor that is new and can be read and numbered: its nodes are walked. -/
theorem Traverses.of_opened {stack : List String} {referrer : Option String} {path : String}
    {d : Descriptor} {id : Option SceneId} {s s₁ s' : CompileState}
    {r : Except SchemaError SceneData} (h : c.Traverses (.enter stack referrer path) s r s')
    (hn : s.memo.get? path = none) (hd : c.descriptor? path = some d)
    (hi : (c.opened path d s).number path (c.isNetwork d) = (.ok id, s₁)) :
    ∃ (r₂ : Except SchemaError Draft) (s₂ : CompileState),
      c.Traverses (.walk (stack ++ [path]) path d.nodes (.start path id)) s₁ r₂ s₂ ∧
      walked path (r₂, s₂) = (r, s') := by
  obtain ⟨text, hl, hp⟩ := exists_text_of_descriptor? hd
  cases h with
  | known hk => simp_all
  | cyclic hk => simp_all
  | missing _ hl' => simp_all
  | unreadable _ hl' hp' => simp_all
  | unnumbered _ hd' hi' =>
    obtain rfl := Option.some.inj (hd.symm.trans hd')
    exact absurd (Prod.mk.inj (hi.symm.trans hi')).1 (by simp)
  | failed _ hd' hi' hw =>
    obtain rfl := Option.some.inj (hd.symm.trans hd')
    obtain ⟨hid, rfl⟩ := Prod.mk.inj (hi.symm.trans hi')
    cases hid
    exact ⟨_, _, hw, rfl⟩
  | finished _ hd' hi' hw =>
    obtain rfl := Option.some.inj (hd.symm.trans hd')
    obtain ⟨hid, rfl⟩ := Prod.mk.inj (hi.symm.trans hi')
    cases hid
    exact ⟨_, _, hw, rfl⟩

/-- A task has one result. -/
theorem Traverses.unique {task : Task} {s s₁ s₂ : CompileState}
    {r₁ r₂ : Except SchemaError task.Value} (h₁ : c.Traverses task s r₁ s₁)
    (h₂ : c.Traverses task s r₂ s₂) : r₁ = r₂ ∧ s₁ = s₂ := by
  induction h₁ generalizing s₂ with
  | known h => cases h₂ <;> simp_all
  | cyclic h => cases h₂ <;> simp_all
  | missing hn hl => cases h₂ <;> simp_all [descriptor?]
  | unreadable hn hl hd => cases h₂ <;> simp_all [descriptor?, Except.toOption]
  | unnumbered hn hd hi => cases h₂ <;> simp_all [descriptor?, Except.toOption]
  | failed hn hd hi _ ih =>
    obtain ⟨r, s, hw, heq⟩ := h₂.of_opened hn hd hi
    obtain ⟨rfl, rfl⟩ := ih hw
    exact Prod.mk.inj heq
  | finished hn hd hi _ ih =>
    obtain ⟨r, s, hw, heq⟩ := h₂.of_opened hn hd hi
    obtain ⟨rfl, rfl⟩ := ih hw
    exact Prod.mk.inj heq
  | network h => cases h₂ <;> simp_all
  | bare h hi => cases h₂ <;> simp_all
  | instanceFails h hi _ ih =>
    obtain ⟨r, s, he, heq⟩ := h₂.of_follows ⟨h, hi⟩
    obtain ⟨rfl, rfl⟩ := ih he
    exact Prod.mk.inj heq
  | boundary h hi _ hnet ih =>
    obtain ⟨r, s, he, heq⟩ := h₂.of_follows ⟨h, hi⟩
    obtain ⟨rfl, rfl⟩ := ih he
    rw [placed, if_pos hnet] at heq
    exact Prod.mk.inj heq
  | merged h hi _ hnet ih =>
    obtain ⟨r, s, he, heq⟩ := h₂.of_follows ⟨h, hi⟩
    obtain ⟨rfl, rfl⟩ := ih he
    rw [placed, if_neg (by simp [hnet])] at heq
    exact Prod.mk.inj heq
  | done =>
    cases h₂
    exact ⟨rfl, rfl⟩
  | stops hn ih =>
    cases h₂ with
    | stops hn' =>
      obtain ⟨he, rfl⟩ := ih hn'
      cases he
      exact ⟨rfl, rfl⟩
    | next hn' _ => exact absurd (ih hn').1 (by simp)
  | next hn hw ihn ihw =>
    cases h₂ with
    | stops hn' => exact absurd (ihn hn').1 (by simp)
    | next hn' hw' =>
      obtain ⟨he, rfl⟩ := ihn hn'
      cases he
      exact ihw hw'

/-! ## Compiling follows the rules -/

/-- `closed path r` ends the work on the descriptor at `path`: what was built is kept, and after a
failure it is no longer under way. -/
def closed (path : String) :
    Except SchemaError SceneData × CompileState → Except SchemaError SceneData × CompileState
  | (.ok d, s) => (.ok d, s.finish path d)
  | (.error e, s) => (.error e, s.abandon path)

mutual

theorem enter_traverses (t : Territory c.source) (stack : List String) (referrer : Option String)
    (path : String) (hp : path ∈ t.paths) (s : CompileState) (hs : s.PendingIs stack) :
    c.Traverses (.enter stack referrer path) s (c.enter t stack referrer path hp s).1
      (c.enter t stack referrer path hp s).2 := by
  rw [enter]
  split
  · next d hd => exact .known (Memo.completed?_eq_some_iff.mp hd)
  · next hc =>
    by_cases hg : s.memo.isPending path ∨ path ∈ stack
    · rw [dif_pos hg]
      -- what it is compiled for says no more than the memo
      have hm : s.memo.get? path = some .pending := by
        rcases hg with h | h
        · exact Memo.isPending_iff.mp h
        · exact (hs.get?_iff path).mpr h
      exact .cyclic hm
    · rw [dif_neg hg]
      have hn := Memo.get?_eq_none_of hc (fun h => hg (Or.inl h))
      have hb := build_traverses t stack referrer path hp (fun h => hg (Or.inr h)) s hn hs
      cases hr : c.build t stack referrer path hp (fun h => hg (Or.inr h)) (s.begin path) with
      | mk r s' =>
        rw [hr] at hb
        cases r with
        | ok d => exact hb
        | error e => exact hb
termination_by (unvisited t.paths stack, 1, 0)

theorem build_traverses (t : Territory c.source) (stack : List String) (referrer : Option String)
    (path : String) (hp : path ∈ t.paths) (hout : path ∉ stack) (s : CompileState)
    (hn : s.memo.get? path = none) (hs : s.PendingIs stack) :
    c.Traverses (.enter stack referrer path) s
      (closed path (c.build t stack referrer path hp hout (s.begin path))).1
      (closed path (c.build t stack referrer path hp hout (s.begin path))).2 := by
  rw [build]
  split
  · next hl => exact .missing hn hl
  · next text hl =>
    split
    · next e hd => exact .unreadable hn hl hd
    · next d hd =>
      have hdesc := descriptor?_of_parse hl hd
      dsimp only
      split
      · next e s₁ hi => exact .unnumbered hn hdesc hi
      · next id s₁ hi =>
        have hlt := unvisited_append_lt hp hout
        have hw := walk_traverses t (stack ++ [path]) path d.nodes
          (fun n hn i hi => t.closed hl hd hn hi) (.start path id) s₁ (opened_pending hs hi)
        split
        · next e s₂ hr =>
          rw [hr] at hw
          exact .failed hn hdesc hi hw
        · next draft s₂ hr =>
          rw [hr] at hw
          exact .finished hn hdesc hi hw
termination_by (unvisited t.paths stack, 0, 0)

theorem walk_traverses (t : Territory c.source) (stack : List String) (path : String)
    (nodes : List SceneNode)
    (hn : ∀ n ∈ nodes, ∀ inst, n.instance? = some inst → inst ∈ t.paths) (draft : Draft)
    (s : CompileState) (hs : s.PendingIs stack) :
    c.Traverses (.walk stack path nodes draft) s (c.walk t stack path nodes hn draft s).1
      (c.walk t stack path nodes hn draft s).2 := by
  match nodes, hn with
  | [], hn =>
    rw [walk]
    exact .done
  | n :: rest, hn =>
    have hr := fun m hm => hn m (List.mem_cons_of_mem _ hm)
    rw [walk]
    dsimp only
    split
    · next cls hcls =>
      have hstep : c.Traverses (.node stack path n draft) s _ _ := .network hcls
      split
      · next e he =>
        rw [he] at hstep
        exact .stops hstep
      · next draft₁ he =>
        rw [he] at hstep
        exact .next hstep (walk_traverses t stack path rest hr draft₁ _ hs)
    · next hcls =>
      split
      · next hi => exact .next (.bare hcls hi) (walk_traverses t stack path rest hr draft _ hs)
      · next inst hi =>
        have he := enter_traverses t stack (some (path ++ ":" ++ n.path)) inst
          (hn n (List.mem_cons_self ..) inst hi) (s.note (c.rules.networkClassNotes n)) hs
        split
        · next e s₁ hr₁ =>
          rw [hr₁] at he
          exact .stops (.instanceFails hcls hi he)
        · next child s₁ hr₁ =>
          rw [hr₁] at he
          have hs₁ : s₁.PendingIs stack := he.pending hs
          split
          · next hnet =>
            exact .next (.boundary hcls hi he hnet)
              (walk_traverses t stack path rest hr draft _ hs₁)
          · next hnet =>
            have hm : c.Traverses (.node stack path n draft) s _ _ :=
              .merged hcls hi he (by simpa using hnet)
            split
            · next e hme =>
              rw [hme] at hm
              exact .stops hm
            · next draft₁ hme =>
              rw [hme] at hm
              exact .next hm (walk_traverses t stack path rest hr draft₁ s₁ hs₁)
termination_by (unvisited t.paths stack, 2, nodes.length)

end

end Compiler

end NetSchema
