import NetSchema.Proofs.OrderedMap
import NetSchema.Proofs.Compile.Expansion

/-!
# Filling the member maps

Own members and members of instances enter a scene in the same way: one after the other, each under
the next number.  `fill` is that loop on its own.

* `fill_eq`, `fill_full`: filling gives every member the next number, or fails at the first member
  for which there is none;
* `layout_addAll`: what was put in is what stands there, in order, nothing overwritten.
-/

namespace NetSchema

variable {α : Type}

/-! ## Entries of a member map -/

namespace NodeMembers

theorem keys_eq_layout (m : NodeMembers α) : m.keys = m.layout.map Prod.fst := by
  simp [layout, OrderedMap.keys]

theorem toList_eq_layout (m : NodeMembers α) :
    m.toList = m.layout.flatMap fun g => g.2.map fun e => (g.1, e.2) := by
  simp [toList, layout, OrderedMap.values, List.flatMap_map, Function.comp_def]

theorem layout_add_new {m : NodeMembers α} {nodePath : String} (h : nodePath ∉ m.keys)
    (name : String) (a : α) :
    (m.add nodePath name a).layout = m.layout ++ [(nodePath, [(name, a)])] := by
  rw [add, OrderedMap.get?_eq_none_iff.mpr h, layout, OrderedMap.entries_insert_new h,
    List.map_append]
  rfl

theorem layout_add_last {m : NodeMembers α} {L : List (String × List (String × α))}
    {nodePath name : String} {es : List (String × α)} (h : m.layout = L ++ [(nodePath, es)])
    (hn : name ∉ es.map Prod.fst) (a : α) :
    (m.add nodePath name a).layout = L ++ [(nodePath, es ++ [(name, a)])] := by
  obtain ⟨E, E', hE, rfl, hlast⟩ := List.map_eq_append_iff.mp h
  obtain ⟨⟨p, members⟩, rfl, he⟩ := List.map_eq_singleton_iff.mp hlast
  obtain ⟨rfl, rfl⟩ := Prod.mk.inj he
  have hm : (p, members) ∈ m.entries := hE ▸ by simp
  rw [add, OrderedMap.get?_eq_some_iff.mpr hm, layout, OrderedMap.entries_insert_last hE,
    List.map_append]
  simp only [Option.getD_some, List.map_cons, List.map_nil]
  rw [OrderedMap.entries_insert_new hn]

end NodeMembers

/-! ## Filling -/

namespace Placement

/-- Adds members under the numbers from `k` on. -/
def addAll (m : NodeMembers α) : Nat → List (Placement α) → NodeMembers α
  | _, [] => m
  | k, x :: xs => addAll (m.add x.nodePath x.name (x.entry k)) (k + 1) xs

/-- Adds members under the numbers from `k` on, as long as there are numbers of the kind. -/
def fill (kind : IdKind) (full : String → String → SchemaError) :
    List (Placement α) → NodeMembers α → Nat → Except SchemaError (NodeMembers α × Nat)
  | [], m, k => .ok (m, k)
  | x :: xs, m, k =>
    if k < kind.limit then fill kind full xs (m.add x.nodePath x.name (x.entry k)) (k + 1)
    else .error (full x.nodePath x.name)

theorem fill_eq {kind : IdKind} {full : String → String → SchemaError} {xs : List (Placement α)}
    {m : NodeMembers α} {k : Nat} (h : k + xs.length ≤ kind.limit) :
    fill kind full xs m k = .ok (addAll m k xs, k + xs.length) := by
  induction xs generalizing m k with
  | nil => rfl
  | cons x xs ih =>
    rw [List.length_cons] at h
    rw [fill, if_pos (by omega), ih (by omega), addAll, List.length_cons]
    congr 2
    omega

/-- The member that is left without a number is the one after `limit` others. -/
theorem fill_full {kind : IdKind} {full : String → String → SchemaError} {xs : List (Placement α)}
    {m : NodeMembers α} {k : Nat} (hk : k ≤ kind.limit) (h : kind.limit < k + xs.length) :
    ∃ x, xs[kind.limit - k]? = some x ∧
      fill kind full xs m k = .error (full x.nodePath x.name) := by
  induction xs generalizing m k with
  | nil =>
    rw [List.length_nil] at h
    omega
  | cons x xs ih =>
    rw [List.length_cons] at h
    by_cases hlt : k < kind.limit
    · obtain ⟨y, hy, hfill⟩ := ih (m := m.add x.nodePath x.name (x.entry k)) hlt (by omega)
      refine ⟨y, ?_, ?_⟩
      · rw [show kind.limit - k = (kind.limit - (k + 1)) + 1 by omega, List.getElem?_cons_succ]
        exact hy
      · rw [fill, if_pos hlt, hfill]
    · refine ⟨x, ?_, ?_⟩
      · rw [show kind.limit - k = 0 by omega]
        rfl
      · rw [fill, if_neg hlt]

/-! ## What stands there after filling -/

theorem addAll_append (m : NodeMembers α) (k : Nat) (xs ys : List (Placement α)) :
    addAll m k (xs ++ ys) = addAll (addAll m k xs) (k + xs.length) ys := by
  induction xs generalizing m k with
  | nil => rfl
  | cons x xs ih =>
    rw [List.cons_append, addAll, ih, addAll, List.length_cons]
    congr 1
    omega

theorem numbered_cons (k : Nat) (x : Placement α) (xs : List (Placement α)) :
    numbered k (x :: xs) = (x.name, x.entry k) :: numbered (k + 1) xs := by
  simp [numbered, List.zipIdx_cons]

/-- More members for the node that came last. -/
theorem layout_addAll_last {m : NodeMembers α} {L : List (String × List (String × α))}
    {nodePath : String} {es : List (String × α)} {k : Nat} {xs : List (Placement α)}
    (h : m.layout = L ++ [(nodePath, es)]) (hp : ∀ x ∈ xs, x.nodePath = nodePath)
    (hn : (es.map Prod.fst ++ xs.map Placement.name).Nodup) :
    (addAll m k xs).layout = L ++ [(nodePath, es ++ numbered k xs)] := by
  induction xs generalizing m k es with
  | nil => simpa [addAll, numbered] using h
  | cons x xs ih =>
    have hx : x.name ∉ es.map Prod.fst := by
      intro hm
      exact (List.nodup_append.mp hn).2.2 _ hm _ (by simp) rfl
    have hadd := NodeMembers.layout_add_last h hx (x.entry k)
    rw [addAll, hp x (List.mem_cons_self ..),
      ih hadd (fun y hy => hp y (List.mem_cons_of_mem _ hy)), numbered_cons,
      List.append_assoc, List.singleton_append]
    simpa using hn

/-- The members of one node. -/
theorem layout_addAll_node {m : NodeMembers α} {nodePath : String} {k : Nat}
    {xs : List (Placement α)} (hm : nodePath ∉ m.keys) (hp : ∀ x ∈ xs, x.nodePath = nodePath)
    (hn : (xs.map Placement.name).Nodup) :
    (addAll m k xs).layout =
      m.layout ++ (if xs.isEmpty then [] else [(nodePath, numbered k xs)]) := by
  cases xs with
  | nil => simp [addAll]
  | cons x xs =>
    have hx := hp x (List.mem_cons_self ..)
    have hadd := NodeMembers.layout_add_new (hx.symm ▸ hm) x.name (x.entry k)
    rw [hx] at hadd
    rw [addAll, hx, layout_addAll_last hadd (fun y hy => hp y (List.mem_cons_of_mem _ hy))
      (by simpa using hn), numbered_cons]
    rfl

/-- What `items` lists for a node belongs to that node and repeats no name. -/
structure Proper (items : NetworkNode → List (Placement α)) : Prop where
  nodePath : ∀ n, ∀ x ∈ items n, x.nodePath = n.path
  names : ∀ n, ((items n).map Placement.name).Nodup

theorem total_cons (items : NetworkNode → List (Placement α)) (n : NetworkNode)
    (ns : List NetworkNode) : total items (n :: ns) = (items n).length + total items ns := by
  simp [total]

theorem layout_append (items : NetworkNode → List (Placement α)) (k : Nat)
    (ns ms : List NetworkNode) :
    layout items k (ns ++ ms) = layout items k ns ++ layout items (k + total items ns) ms := by
  induction ns generalizing k with
  | nil => simp [layout, total]
  | cons n ns ih =>
    rw [List.cons_append, layout, layout, ih, List.append_assoc]
    congr 3
    rw [total_cons]
    omega

theorem mem_layout_keys {items : NetworkNode → List (Placement α)} {k : Nat}
    {ns : List NetworkNode} {p : String} (h : p ∈ (layout items k ns).map Prod.fst) :
    p ∈ ns.map NetworkNode.path := by
  induction ns generalizing k with
  | nil => simp [layout] at h
  | cons n ns ih =>
    rw [layout, List.map_append, List.mem_append] at h
    rcases h with h | h
    · split at h
      · simp at h
      · simp only [List.map_cons, List.map_nil, List.mem_singleton] at h
        simp [h]
    · exact List.mem_cons_of_mem _ (ih h)

/-- **Filling loses nothing.**  The members of further nodes stand behind those that were there. -/
theorem layout_addAll {items : NetworkNode → List (Placement α)} (hi : Proper items)
    {m : NodeMembers α} {ns ms : List NetworkNode} (hm : m.layout = layout items 0 ns)
    (hp : ((ns ++ ms).map NetworkNode.path).Nodup) :
    (addAll m (total items ns) (ms.flatMap items)).layout = layout items 0 (ns ++ ms) := by
  induction ms generalizing m ns with
  | nil => simpa [addAll] using hm
  | cons n ms ih =>
    have hnew : n.path ∉ m.keys := by
      intro hk
      rw [NodeMembers.keys_eq_layout, hm] at hk
      rw [List.map_append, List.nodup_append] at hp
      exact hp.2.2 _ (mem_layout_keys hk) _ (by simp) rfl
    have hnode := layout_addAll_node (k := total items ns) hnew (hi.nodePath n) (hi.names n)
    have hone : (addAll m (total items ns) (items n)).layout = layout items 0 (ns ++ [n]) := by
      rw [hnode, hm, layout_append]
      simp [layout]
    have htotal : total items (ns ++ [n]) = total items ns + (items n).length := by
      simp [total]
    have hrest := ih hone (by simpa using hp)
    rw [List.flatMap_cons, addAll_append, ← htotal, hrest, List.append_assoc, List.singleton_append]

end Placement

end NetSchema
