import Mathlib.Data.List.Nodup
import Mathlib.Logic.Relation

/-!
# Depth-first order

The order in which a depth-first walk over a graph meets vertices for the first time: a vertex comes
before all that it leads to and that has not been met before.

* `nodup`, `mem_iff`: from nothing met, every vertex that can be reached comes exactly once;
* `append`: walking further goes on where the walk has ended;
* `perm`: the order of the vertices to start from decides only in which order vertices are met;
* `unique`: the order is determined by the graph and the vertices to start from.
-/

namespace NetSchema

/-- `DepthFirst links seen todo out`: when `seen` has been met, walking from the vertices `todo` in
order ends with `out` met. -/
inductive DepthFirst {α : Type} (links : α → List α) : List α → List α → List α → Prop
  | done {seen} : DepthFirst links seen [] seen
  | again {seen x todo out} : x ∈ seen → DepthFirst links seen todo out →
      DepthFirst links seen (x :: todo) out
  | first {seen x todo mid out} : x ∉ seen → DepthFirst links (seen ++ [x]) (links x) mid →
      DepthFirst links mid todo out → DepthFirst links seen (x :: todo) out

namespace DepthFirst

variable {α : Type} {links : α → List α} {seen todo mid more out out' : List α}

theorem append (h : DepthFirst links seen todo mid) (h' : DepthFirst links mid more out) :
    DepthFirst links seen (todo ++ more) out := by
  induction h with
  | done => exact h'
  | again hx _ ih => exact .again hx (ih h')
  | first hx hlinks _ _ ih => exact .first hx hlinks (ih h')

theorem unique (h : DepthFirst links seen todo out) (h' : DepthFirst links seen todo out') :
    out = out' := by
  induction h generalizing out' with
  | done =>
    cases h'
    rfl
  | again hx _ ih =>
    cases h' with
    | again _ h' => exact ih h'
    | first hx' _ _ => exact absurd hx hx'
  | first hx _ _ ihlinks ih =>
    cases h' with
    | again hx' _ => exact absurd hx' hx
    | first _ hlinks h' =>
      obtain rfl := ihlinks hlinks
      exact ih h'

/-- What has been met keeps its place. -/
theorem seen_prefix (h : DepthFirst links seen todo out) : seen <+: out := by
  induction h with
  | done => exact List.prefix_rfl
  | again _ _ ih => exact ih
  | first _ _ _ ihlinks ih => exact (List.prefix_append _ _).trans (ihlinks.trans ih)

theorem nodup (h : DepthFirst links seen todo out) (hseen : seen.Nodup) : out.Nodup := by
  induction h with
  | done => exact hseen
  | again _ _ ih => exact ih hseen
  | first hx _ _ ihlinks ih =>
    refine ih (ihlinks ?_)
    rw [← List.concat_eq_append]
    exact List.Nodup.concat hx hseen

theorem mem_out (h : DepthFirst links seen todo out) {y : α} (hy : y ∈ todo) : y ∈ out := by
  induction h with
  | done => cases hy
  | again hx h ih =>
    rcases List.mem_cons.mp hy with rfl | hy
    · exact h.seen_prefix.subset hx
    · exact ih hy
  | first _ hlinks h _ ih =>
    rcases List.mem_cons.mp hy with rfl | hy
    · exact (hlinks.seen_prefix.trans h.seen_prefix).subset (by simp)
    · exact ih hy

/-- All that a newly met vertex leads to is met too. -/
theorem links_out (h : DepthFirst links seen todo out) {x y : α} (hx : x ∈ out) (hnew : x ∉ seen)
    (hy : y ∈ links x) : y ∈ out := by
  induction h with
  | done => exact absurd hx hnew
  | again _ _ ih => exact ih hx hnew
  | @first seen z todo mid out _ hlinks h ihlinks ih =>
    by_cases hmid : x ∈ mid
    · refine h.seen_prefix.subset ?_
      by_cases hxz : x = z
      · subst hxz
        exact hlinks.mem_out hy
      · exact ihlinks hmid (by simp [hnew, hxz])
    · exact ih hx hmid

/-- Only what the vertices lead to is met. -/
theorem reached (h : DepthFirst links seen todo out) {y : α} (hy : y ∈ out) :
    y ∈ seen ∨ ∃ x ∈ todo, Relation.ReflTransGen (fun a b => b ∈ links a) x y := by
  induction h with
  | done => exact Or.inl hy
  | again _ _ ih =>
    rcases ih hy with hseen | ⟨x, hx, hpath⟩
    · exact Or.inl hseen
    · exact Or.inr ⟨x, List.mem_cons_of_mem _ hx, hpath⟩
  | @first seen z todo mid out _ _ _ ihlinks ih =>
    rcases ih hy with hmid | ⟨x, hx, hpath⟩
    · rcases ihlinks hmid with hseen | ⟨x, hx, hpath⟩
      · rcases List.mem_append.mp hseen with hseen | hz
        · exact Or.inl hseen
        · obtain rfl := List.mem_singleton.mp hz
          exact Or.inr ⟨y, List.mem_cons_self .., .refl⟩
      · exact Or.inr ⟨z, List.mem_cons_self .., .head hx hpath⟩
    · exact Or.inr ⟨x, List.mem_cons_of_mem _ hx, hpath⟩

/-- Exactly the vertices that can be reached are met. -/
theorem mem_iff (h : DepthFirst links [] todo out) (y : α) :
    y ∈ out ↔ ∃ x ∈ todo, Relation.ReflTransGen (fun a b => b ∈ links a) x y := by
  constructor
  · intro hy
    exact (h.reached hy).resolve_left List.not_mem_nil
  · rintro ⟨x, hx, hpath⟩
    induction hpath with
    | refl => exact h.mem_out hx
    | tail _ hy ih => exact h.links_out ih List.not_mem_nil hy

/-- Starting from the same vertices in another order, the same vertices are met. -/
theorem perm {todo' : List α} (h : DepthFirst links [] todo out) (h' : DepthFirst links [] todo' out')
    (hsame : ∀ x, x ∈ todo ↔ x ∈ todo') : out.Perm out' := by
  refine (List.perm_ext_iff_of_nodup (h.nodup List.nodup_nil) (h'.nodup List.nodup_nil)).mpr ?_
  intro y
  rw [h.mem_iff, h'.mem_iff]
  simp only [hsame]

end DepthFirst

end NetSchema
