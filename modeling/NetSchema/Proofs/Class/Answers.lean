import NetSchema.Class.Attribute
import NetSchema.Class.Members
import NetSchema.Proofs.Class.Bases
import NetSchema.Proofs.Class.Contents

/-!
# What a class table answers

All that a table is asked for comes from two look-ups, of a class by its name and of a class by its
script.  Tables that agree on these agree on everything.

* `Agrees.basesFrom`: bases are followed in the same way;
* `Agrees.flatten`: members are flattened in the same way;
* `Agrees.sameAnswers`: all questions have the same answer;
* `agrees_of_perm`: tables of the same classes agree, in whatever order these were inserted.
-/

namespace NetSchema.ClassTable

/-- Both tables find the same class by every name and by every script. -/
structure Agrees (t t' : ClassTable) : Prop where
  class? : ∀ name, t.class? name = t'.class? name
  ofScript? : ∀ script, t.ofScript? script = t'.ofScript? script

variable {t t' : ClassTable}

theorem agrees_of_perm {cs cs' : List ClassDecl} (h : t.Holds cs) (h' : t'.Holds cs')
    (hp : cs.Perm cs') : t.Agrees t' :=
  ⟨h.class?_perm h' hp, h.ofScript?_perm h' hp⟩

namespace Agrees

/-! ## Bases -/

/-- Both walks end where the same look-up ends them. -/
theorem basesFrom (h : t.Agrees t') (seen : List String) (name : String) :
    t.basesFrom seen name = t'.basesFrom seen name := by
  fun_induction t.basesFrom seen name with
  | case1 seen name hc => rw [basesFrom_unknown (h.class? name ▸ hc)]
  | case2 seen name c hc hb => rw [basesFrom_topmost (h.class? name ▸ hc) hb]
  | case3 seen name c hc base hb hs => rw [basesFrom_closed (h.class? name ▸ hc) hb hs]
  | case4 seen name c hc base hb hs hm hlt above ih =>
    rw [basesFrom_base (h.class? name ▸ hc) hb hs, ← ih]

theorem baseChain (h : t.Agrees t') (name : String) : t.baseChain name = t'.baseChain name := by
  rw [ClassTable.baseChain, ClassTable.baseChain, h.basesFrom]

theorem ancestryNames (h : t.Agrees t') (name : String) :
    t.ancestryNames name = t'.ancestryNames name := by
  rw [ClassTable.ancestryNames, ClassTable.ancestryNames, h.baseChain]

theorem ancestry (h : t.Agrees t') (name : String) : t.ancestry name = t'.ancestry name := by
  rw [ClassTable.ancestry, ClassTable.ancestry, h.ancestryNames, funext h.class?]

theorem ancestryNotes (h : t.Agrees t') (name : String) :
    t.ancestryNotes name = t'.ancestryNotes name := by
  rw [ClassTable.ancestryNotes, ClassTable.ancestryNotes, h.baseChain]

theorem isSubclassOf (h : t.Agrees t') (name base : String) :
    t.isSubclassOf name base = t'.isSubclassOf name base := by
  rw [ClassTable.isSubclassOf, ClassTable.isSubclassOf, h.ancestryNames]

theorem implementer? (h : t.Agrees t') (type interface : String) :
    t.implementer? type interface = t'.implementer? type interface := by
  rw [ClassTable.implementer?, ClassTable.implementer?, h.ancestry]

/-! ## Members -/

theorem kindOf (h : t.Agrees t') (name : String) : t.kindOf name = t'.kindOf name := by
  rw [ClassTable.kindOf, ClassTable.kindOf, h.class?]

theorem declaredType (h : t.Agrees t') (name : String) :
    t.declaredType name = t'.declaredType name := by
  rw [ClassTable.declaredType, ClassTable.declaredType, h.kindOf]

theorem flatten (h : t.Agrees t') (propertyAttribute functionAttribute : String)
    (members : AnnotatedMembers) (owners : List ClassDecl) :
    t.flatten propertyAttribute functionAttribute members owners =
      t'.flatten propertyAttribute functionAttribute members owners := by
  have hproperties : t.ownProperties propertyAttribute = t'.ownProperties propertyAttribute := by
    funext owner
    simp only [ownProperties, h.declaredType]
  have hfunctions : t.ownFunctions functionAttribute = t'.ownFunctions functionAttribute := by
    funext owner
    simp only [ownFunctions, h.declaredType]
  induction owners generalizing members with
  | nil => rfl
  | cons owner owners ih =>
    rw [ClassTable.flatten, ClassTable.flatten, hproperties, hfunctions]
    simp only [ih]

theorem annotatedMembers (h : t.Agrees t') (name propertyAttribute functionAttribute : String) :
    t.annotatedMembers name propertyAttribute functionAttribute =
      t'.annotatedMembers name propertyAttribute functionAttribute := by
  rw [ClassTable.annotatedMembers, ClassTable.annotatedMembers, h.ancestry, h.flatten]

theorem memberNotes (h : t.Agrees t') (name propertyAttribute functionAttribute : String) :
    t.memberNotes name propertyAttribute functionAttribute =
      t'.memberNotes name propertyAttribute functionAttribute := by
  rw [ClassTable.memberNotes, ClassTable.memberNotes, h.ancestryNotes, h.ancestry, h.flatten]

/-! ## Attributes -/

theorem fieldLiteral? (h : t.Agrees t') (attr field : String) :
    t.fieldLiteral? attr field = t'.fieldLiteral? attr field := by
  rw [ClassTable.fieldLiteral?, ClassTable.fieldLiteral?, funext h.class?]

theorem interestMask (h : t.Agrees t') (attributes : List Attribute) :
    NetSchema.interestMask t attributes = NetSchema.interestMask t' attributes := by
  rw [NetSchema.interestMask, NetSchema.interestMask, funext h.class?]

end Agrees

/-- All questions about classes have the same answer. -/
structure SameAnswers (t t' : ClassTable) : Prop where
  class? : ∀ name, t.class? name = t'.class? name
  ofScript? : ∀ script, t.ofScript? script = t'.ofScript? script
  ancestryNames : ∀ name, t.ancestryNames name = t'.ancestryNames name
  ancestry : ∀ name, t.ancestry name = t'.ancestry name
  isSubclassOf : ∀ name base, t.isSubclassOf name base = t'.isSubclassOf name base
  kindOf : ∀ name, t.kindOf name = t'.kindOf name
  annotatedMembers : ∀ name propertyAttribute functionAttribute,
    t.annotatedMembers name propertyAttribute functionAttribute =
      t'.annotatedMembers name propertyAttribute functionAttribute
  fieldLiteral? : ∀ attr field, t.fieldLiteral? attr field = t'.fieldLiteral? attr field

theorem Agrees.sameAnswers (h : t.Agrees t') : t.SameAnswers t' where
  class? := h.class?
  ofScript? := h.ofScript?
  ancestryNames := h.ancestryNames
  ancestry := h.ancestry
  isSubclassOf := h.isSubclassOf
  kindOf := h.kindOf
  annotatedMembers := h.annotatedMembers
  fieldLiteral? := h.fieldLiteral?

end NetSchema.ClassTable
