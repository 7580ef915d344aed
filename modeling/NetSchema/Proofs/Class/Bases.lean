import NetSchema.Class.Ancestry

/-!
# Following bases

A walk along bases goes on from a name to the base text of the class that the name finds.

* `basesFrom_unknown`, `basesFrom_topmost`, `basesFrom_closed`, `basesFrom_base`: one step of a
  walk, by what it finds.
-/

namespace NetSchema.ClassTable

variable {t : ClassTable} {seen : List String} {name base : String} {c : ClassDecl}

theorem basesFrom_unknown (hc : t.class? name = none) : t.basesFrom seen name = ⟨[], none⟩ := by
  unfold basesFrom
  split <;> simp_all

theorem basesFrom_topmost (hc : t.class? name = some c) (hb : c.base = none) :
    t.basesFrom seen name = ⟨[], none⟩ := by
  unfold basesFrom
  split
  · rfl
  · obtain rfl := Option.some.inj (hc.symm.trans ‹_›)
    split <;> simp_all

theorem basesFrom_closed (hc : t.class? name = some c) (hb : c.base = some base)
    (hs : base ∈ seen) : t.basesFrom seen name = ⟨[], some base⟩ := by
  unfold basesFrom
  split
  · simp_all
  · obtain rfl := Option.some.inj (hc.symm.trans ‹_›)
    split <;> simp_all

theorem basesFrom_base (hc : t.class? name = some c) (hb : c.base = some base)
    (hs : base ∉ seen) : t.basesFrom seen name =
      ⟨base :: (t.basesFrom (base :: seen) base).names,
        (t.basesFrom (base :: seen) base).closedBy⟩ := by
  rw [basesFrom]
  split
  · simp_all
  · obtain rfl := Option.some.inj (hc.symm.trans ‹_›)
    split
    · simp_all
    · obtain rfl := Option.some.inj (hb.symm.trans ‹_›)
      rw [dif_neg hs]

end NetSchema.ClassTable
