/-!
# Whole numbers of 64 bits

`int64?` takes an integer to a signed number of 64 bits.  It succeeds exactly on the integers that
such numbers stand for.
-/

namespace NetSchema

/-- `i` as a signed number of 64 bits, if it is in the range of those. -/
def int64? (i : Int) : Option Int64 :=
  if Int64.minValue.toInt ≤ i && i ≤ Int64.maxValue.toInt then some (Int64.ofInt i) else none

theorem toInt_of_int64? {i : Int} {n : Int64} (h : int64? i = some n) : n.toInt = i := by
  unfold int64? at h
  split at h
  · next hr =>
    rw [Bool.and_eq_true, decide_eq_true_iff, decide_eq_true_iff, Int64.toInt_minValue,
      Int64.toInt_maxValue] at hr
    rw [← Option.some.inj h]
    exact Int64.toInt_ofInt_of_le hr.1 (by omega)
  · exact nomatch h

theorem int64?_toInt (n : Int64) : int64? n.toInt = some n := by
  unfold int64?
  rw [Int64.ofInt_toInt, decide_eq_true n.minValue_le_toInt, decide_eq_true n.toInt_le]
  rfl

end NetSchema
