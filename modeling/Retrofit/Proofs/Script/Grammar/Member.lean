import Retrofit.Proofs.Script.Grammar.Basic

/-!
# Markup, functions, classes and objects advance

Where a reader moves the cursor itself, the place it moves to is an end of what it saw there. All
others advance by the instances of the readers they are put together from; a choice that depends on
the text is split first.

**Long readers.** An instance is put together from those of all the readers in the definition. Where
there are many, it grows larger than the search allows unless `synthInstance.maxSize` is raised.
-/

namespace Retrofit.Script

open Reader

variable (g : Nested) [g.Advancing]

/-! ## Markup -/

set_option synthInstance.maxSize 10000 in
instance : Advances (readMarkupName g) := by
  have := endsIn_markupName?.advances_take
  unfold readMarkupName
  infer_instance

instance : Advances (readMarkupExpression g) := by
  unfold readMarkupExpression
  infer_instance

instance : Advances (readAttributeValue g) := by
  have hclose : ∀ quote, EndsIn fun cs => closeAttribute? quote 0 (cs.drop 1) :=
    fun quote cs rest h => (closeAttribute?_suffix h).trans (List.drop_suffix 1 cs)
  have := fun quote => (hclose quote).advances_take
  refine Advances.bind (p := gap) inferInstance fun _ => Advances.bind (p := ahead) inferInstance
    fun cs => ?_
  split <;> infer_instance

instance : Advances (readAttributes g) := by
  refine advances_iterate (fun _ => Advances.bind (p := nextChar) inferInstance fun c => ?_) _ _
  split <;> infer_instance

instance : Advances (readContent g) := by
  refine advances_iterate (fun _ => advances_ahead_bind fun c => ?_) _ _
  refine (AdvancesFrom.moveTo (List.dropWhile_suffix _)).bind fun _ => ?_
  refine advances_ahead_bind fun c => ?_
  split
  · rename_i hrest
    exact .moveTo_bind ((List.suffix_cons _ _).trans (suffix_of_eq_cons hrest))
  · exact Advances.advancesFrom c
  · exact Advances.advancesFrom c
  · rename_i hrest
    split
    · exact .moveTo_bind ((List.drop_suffix _ _).trans (suffix_of_eq_cons hrest))
    · exact Advances.advancesFrom c
  · exact Advances.advancesFrom c

set_option synthInstance.maxSize 10000 in
instance : Advances (readElement g) := by
  unfold readElement
  infer_instance

/-! ## Functions and decorators -/

instance (commentEnds : Bool) : Advances (readFunction g commentEnds) := by
  unfold readFunction
  infer_instance

set_option synthInstance.maxSize 10000 in
instance : Advances (readDecorators g) := by
  unfold readDecorators
  infer_instance

/-! ## Keys -/

instance : Advances (readKey g) := by
  have := takes_privateName?.endsIn.advances_take
  have := takes_string?.endsIn.advances_take
  have := takes_numeral?.endsIn.advances_take
  refine Advances.bind (p := gap) inferInstance fun _ => advances_ahead_bind fun c => ?_
  split
  · rename_i hrest
    exact .moveTo_bind (suffix_of_eq_cons hrest)
  all_goals exact Advances.advancesFrom c

instance (inClass : Bool) : Advances (readQualifiedKey g inClass) := by
  refine Advances.bind (advances_iterate (fun a => ?_) _ _) fun a => ?_
  · obtain ⟨rank, key⟩ := a
    dsimp only
    -- The star is looked for or not, and the rest is the same.
    split
    all_goals
      refine Advances.bind inferInstance fun starred => advances_ite inferInstance ?_
      refine Advances.bind (p := readKey g) inferInstance fun key => ?_
      split
      · infer_instance
      · split <;> infer_instance
  · dsimp only
    split <;> infer_instance

/-! ## Objects -/

instance : Advances (readObjectMember g) := by
  refine Advances.bind (p := symbolIf _) inferInstance fun spread => advances_ite ?_ ?_
  · infer_instance
  · refine Advances.bind (p := nextChar) inferInstance fun first => ?_
    refine Advances.bind (p := readDecorators g) inferInstance fun _ => ?_
    refine Advances.bind (p := readQualifiedKey g false) inferInstance fun key => ?_
    refine Advances.bind (p := nextChar) inferInstance fun next => ?_
    split
    · infer_instance
    · infer_instance
    · refine Advances.bind (p := require _) inferInstance fun _ => ?_
      split <;> infer_instance
    · refine Advances.bind (p := require _) inferInstance fun _ => ?_
      split <;> infer_instance

instance : Advances (readObject g) := by
  unfold readObject
  infer_instance

/-! ## Classes -/

instance : Advances (readClassMember g) := by
  refine Advances.bind (p := readDecorators g) inferInstance fun _ => ?_
  refine Advances.bind (p := ahead) inferInstance fun cs => ?_
  dsimp only
  refine advances_ite ?_ ?_
  · infer_instance
  · refine Advances.bind (p := readQualifiedKey g true) inferInstance fun _ => ?_
    refine Advances.bind (p := nextChar) inferInstance fun next => advances_ite ?_ ?_
    · infer_instance
    · refine advances_whatFollows_bind fun c next hnext => ?_
      split
      · exact .moveTo hnext
      · exact .moveTo_bind ((List.suffix_cons _ _).trans hnext)
      · exact Advances.advancesFrom c

set_option synthInstance.maxSize 10000 in
instance : Advances (readClass g) := by
  unfold readClass
  infer_instance

end Retrofit.Script
