import NetSchema.ByteId

/-!
# Numbers in order

What gets numbered keeps its place: `enumerate` numbers texts from zero on, and below the limit of
a kind the numbers read back as the places.
-/

namespace NetSchema.ByteId

variable {kind : IdKind}

theorem toNat_ofNat {n : Nat} (h : n < kind.limit) : (⟨UInt8.ofNat n⟩ : ByteId kind).toNat = n :=
  toNat_of_ofCount? (by rw [ofCount?, if_pos h])

/-- Texts with their numbers. -/
def enumerate (texts : List String) : List (ByteId kind × String) :=
  texts.zipIdx.map fun x => (⟨UInt8.ofNat x.2⟩, x.1)

theorem enumerate_append (texts : List String) (text : String) :
    @enumerate kind (texts ++ [text]) =
      enumerate texts ++ [(⟨UInt8.ofNat texts.length⟩, text)] := by
  simp [enumerate, List.zipIdx_append]

theorem enumerate_map_snd (texts : List String) :
    (@enumerate kind texts).map Prod.snd = texts := by
  simp [enumerate, Function.comp_def]

/-- Numbers given in order read back in order. -/
theorem map_toNat_zipIdx {α : Type} (xs : List α) (h : xs.length ≤ kind.limit) :
    (xs.zipIdx.map fun x => (⟨UInt8.ofNat x.2⟩ : ByteId kind)).map toNat =
      List.range xs.length := by
  rw [List.map_map, List.range_eq_range', ← List.zipIdx_map_snd 0 xs]
  apply List.map_congr_left
  intro x hx
  have hlt := (List.mem_zipIdx hx).2.1
  exact toNat_ofNat (by omega)

theorem enumerate_map_fst {texts : List String} (h : texts.length ≤ kind.limit) :
    (@enumerate kind texts).map (fun x => x.1.toNat) = List.range texts.length := by
  rw [← map_toNat_zipIdx texts h, enumerate, List.map_map, List.map_map]
  rfl

end NetSchema.ByteId
