import Mathlib.Data.List.Nodup
import NetSchema.NodePath

/-!
# Laws of node paths

Paths with `NodePath.join` form a monoid whose unit is the root, and joining on the left is
injective.  So it does not matter in which order the paths of a chain of instances are joined, and
different nodes of a scene keep different paths below any node.

* `join_assoc`, `join_right_inj`: the laws;
* `child_eq_join_iff`: going one name down is joining that name;
* `foldr_join`: a chain that is joined step by step is joined at once.
-/

namespace NetSchema

theorem slash_ne_root (a b : String) : a ++ "/" ++ b ≠ NodePath.root := by
  intro h
  have hmem : '/' ∈ (a ++ "/" ++ b).toList := by simp
  rw [h] at hmem
  revert hmem
  decide

/-- A slash makes a text longer. -/
theorem append_slash_ne (a b : String) : a ++ "/" ++ b ≠ a := by
  intro h
  have hlength := congrArg String.length h
  simp only [String.length_append] at hlength
  have hslash : "/".length = 1 := rfl
  omega

namespace NodePath

variable {outer inner name : String}

/-! ## The root -/

theorem join_root (outer : String) : join outer root = outer := if_pos rfl

theorem root_join (inner : String) : join root inner = inner := by
  unfold join
  split
  · next h => exact h.symm
  · exact if_pos rfl

theorem join_of_ne (houter : outer ≠ root) (hinner : inner ≠ root) :
    join outer inner = outer ++ "/" ++ inner := by
  rw [join, if_neg hinner, if_neg houter]

theorem join_ne_root {inner : String} (h : inner ≠ root) (outer : String) :
    join outer inner ≠ root := by
  rw [join, if_neg h]
  split
  · exact h
  · exact slash_ne_root outer inner

/-! ## Laws -/

theorem join_assoc (a b c : String) : join (join a b) c = join a (join b c) := by
  by_cases hc : c = root
  · rw [hc, join_root, join_root]
  by_cases hb : b = root
  · rw [hb, join_root, root_join]
  by_cases ha : a = root
  · rw [ha, root_join, root_join]
  rw [join_of_ne (join_ne_root hb a) hc, join_of_ne ha (join_ne_root hc b), join_of_ne ha hb,
    join_of_ne hb hc]
  simp only [String.append_assoc]

/-- Only the root leads nowhere: any other path makes what it is joined to longer. -/
theorem join_eq_left_iff : join outer inner = outer ↔ inner = root := by
  constructor
  · intro h
    by_contra hinner
    by_cases houter : outer = root
    · rw [houter, root_join] at h
      exact hinner h
    · rw [join_of_ne houter hinner] at h
      exact append_slash_ne outer inner h
  · rintro rfl
    exact join_root outer

theorem join_right_inj (a : String) {b c : String} : join a b = join a c ↔ b = c := by
  constructor
  · intro h
    by_cases hb : b = root
    · rw [hb, join_root] at h
      rw [hb, join_eq_left_iff.mp h.symm]
    by_cases hc : c = root
    · rw [hc, join_root] at h
      rw [hc, join_eq_left_iff.mp h]
    by_cases ha : a = root
    · rwa [ha, root_join, root_join] at h
    · rw [join_of_ne ha hb, join_of_ne ha hc] at h
      simpa [← String.toList_inj] using h
  · rintro rfl
    rfl

/-- Different paths stay different below a node. -/
theorem nodup_map_join {paths : List String} :
    (paths.map (join outer)).Nodup ↔ paths.Nodup :=
  List.nodup_map_iff fun _ _ => (join_right_inj outer).mp

/-- Going down to a name is joining it, unless the name looks like the root and is not below it. -/
theorem child_eq_join_iff : child (some outer) name = join outer name ↔
    name ≠ root ∨ outer = root := by
  change (if outer = root then name else outer ++ "/" ++ name) = join outer name ↔ _
  by_cases houter : outer = root
  · simp [houter, root_join]
  · rw [if_neg houter]
    by_cases hname : name = root
    · rw [hname, join_root]
      exact iff_of_false (append_slash_ne outer root) (by simp [houter])
    · rw [join_of_ne houter hname]
      simp [hname]

/-! ## Chains -/

/-- The path of the last of several nodes, each of which instances the scene of the next. -/
def chain (outers : List String) : String := outers.foldl join root

theorem foldl_join (a : String) (outers : List String) :
    outers.foldl join a = join a (chain outers) := by
  induction outers generalizing a with
  | nil => exact (join_root a).symm
  | cons outer outers ih =>
    rw [chain, List.foldl_cons, List.foldl_cons, ih, ih (join root outer), root_join, join_assoc]

theorem chain_cons (outer : String) (outers : List String) :
    chain (outer :: outers) = join outer (chain outers) := by
  rw [chain, List.foldl_cons, foldl_join, root_join]

/-- Joining step by step from the inside is joining the whole chain. -/
theorem foldr_join (outers : List String) (x : String) :
    outers.foldr join x = join (chain outers) x := by
  induction outers with
  | nil => exact (root_join x).symm
  | cons outer outers ih => rw [List.foldr_cons, ih, chain_cons, join_assoc]

end NodePath

end NetSchema
