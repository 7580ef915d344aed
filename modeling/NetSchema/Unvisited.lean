/-!
# Counting what has not been visited

Walks over finitely many names end because each step visits a name for the first time
(`unvisited_cons_lt`).
-/

namespace NetSchema

variable {α : Type} [DecidableEq α]

/-- How many members of `all` are not in `seen`. -/
def unvisited (all seen : List α) : Nat := (all.filter fun a => decide (a ∉ seen)).length

theorem unvisited_le (all : List α) {seen seen' : List α} (h : ∀ a ∈ seen, a ∈ seen') :
    unvisited all seen' ≤ unvisited all seen := by
  unfold unvisited
  induction all with
  | nil => simp
  | cons x xs ih =>
    by_cases h₁ : x ∈ seen
    · simpa [List.filter_cons, h₁, h x h₁] using ih
    · by_cases h₂ : x ∈ seen'
      · simp [h₁, h₂] at ih ⊢; omega
      · simpa [List.filter_cons, h₁, h₂] using ih

/-- Visiting `a` for the first time leaves less to visit. -/
theorem unvisited_lt {all seen seen' : List α} {a : α} (h : ∀ b ∈ seen, b ∈ seen') (ha : a ∈ all)
    (hs : a ∉ seen) (hs' : a ∈ seen') : unvisited all seen' < unvisited all seen := by
  induction all with
  | nil => simp at ha
  | cons x xs ih =>
    have hle := unvisited_le xs h
    unfold unvisited at ih hle ⊢
    rcases List.mem_cons.1 ha with rfl | hm
    · simp [hs, hs'] at hle ⊢; omega
    · have hlt := ih hm
      by_cases h₁ : x ∈ seen
      · simpa [List.filter_cons, h₁, h x h₁] using hlt
      · by_cases h₂ : x ∈ seen'
        · simp [h₁, h₂] at hlt ⊢; omega
        · simpa [List.filter_cons, h₁, h₂] using hlt

theorem unvisited_cons_lt {all seen : List α} {a : α} (ha : a ∈ all) (hs : a ∉ seen) :
    unvisited all (a :: seen) < unvisited all seen :=
  unvisited_lt (fun _ hb => List.mem_cons_of_mem _ hb) ha hs (List.mem_cons_self ..)

theorem unvisited_append_lt {all seen : List α} {a : α} (ha : a ∈ all) (hs : a ∉ seen) :
    unvisited all (seen ++ [a]) < unvisited all seen :=
  unvisited_lt (fun _ hb => List.mem_append_left _ hb) ha hs (by simp)

end NetSchema
