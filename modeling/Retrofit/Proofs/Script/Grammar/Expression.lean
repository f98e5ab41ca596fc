import Retrofit.Proofs.Script.Grammar.Member

/-!
# Expressions advance

A symbol behind an operand is looked for at `Mode.symbolPlace?`, which is an end of the text, and
passed over only if it is one of those looked for. One reader goes back to where it was
(`advancesFrom_retreat`): behind the word `async` a name is the parameter of an arrow function only
if an arrow follows it.
-/

namespace Retrofit.Script

open Reader

variable (g : Nested) [g.Advancing] (mode : Mode)

/-! ## Units -/

instance : Advances (readTemplate g) := by
  refine advances_iterate (fun _ => advances_ahead_bind fun c => ?_) _ _
  split
  · exact Advances.advancesFrom c
  · rename_i htext
    exact .moveTo_bind (templateText?_suffix htext)
  · rename_i htext
    exact .moveTo_bind (templateText?_suffix htext)

instance : Advances (readArrowBody g mode) := by
  refine Advances.bind (p := gap) inferInstance fun _ => Advances.bind (p := ahead) inferInstance
    fun cs => ?_
  split <;> infer_instance

instance : Advances (readArrowIf g mode) := by
  refine advances_ahead_bind fun c => ?_
  split
  · rename_i harrow
    obtain ⟨place, hplace, hstrip⟩ := Option.bind_eq_some_iff.mp harrow
    exact .moveTo_bind ((endsIn_strip? _ hstrip).trans (endsIn_symbolPlace? mode hplace))
  · exact Advances.advancesFrom c

instance : Advances (readGroup g mode) := by
  unfold readGroup
  infer_instance

instance : Advances (readName g mode) := by
  unfold readName
  infer_instance

/-- A reader may look further and go back to where it was. -/
theorem advancesFrom_retreat {c : Cursor} {cs : List Char} {p : Reader Bool} [hp : Advances p]
    {α : Type} (a b : α) (h : cs <:+ c.rest) : AdvancesFrom c (do
      let before ← get
      moveTo cs
      if ← p then return a
      else do
        set before
        return b) := by
  refine ⟨fun hfits result c' hrun => ?_, fun hfits k => ?_⟩
  · obtain ⟨before, c₁, hget, hrun⟩ := run_bind_eq_some.mp hrun
    cases hget
    obtain ⟨_, c₁, hmove, hrun⟩ := run_bind_eq_some.mp hrun
    have hmoved := (AdvancesFrom.moveTo h).reaches hfits _ _ hmove
    obtain ⟨found, c₂, hfound, hrun⟩ := run_bind_eq_some.mp hrun
    cases found with
    | true =>
      cases hrun
      exact hmoved.trans (hp.reaches (hmoved.fits hfits) hfound)
    | false =>
      cases hrun
      exact .refl c
  · -- The cursor to go back to moves as well.
    refine run_bind_shift (m := Cursor.shift k) rfl fun before c₁ hget => ?_
    cases hget
    have hmoved := AdvancesFrom.moveTo h
    refine run_bind_shift (hmoved.shifts hfits k) fun _ c₁ hmove => ?_
    have hfits₁ := (hmoved.reaches hfits _ _ hmove).fits hfits
    refine run_bind_shift (hp.shifts p hfits₁ k) fun found c₂ _ => ?_
    cases found <;> rfl

instance : Advances (readAsync g mode) := by
  refine advances_ahead_bind fun c => ?_
  split
  · exact Advances.advancesFrom c
  · rename_i hplace
    exact .moveTo_bind ((List.suffix_cons _ _).trans (endsIn_symbolPlace? mode hplace))
  · rename_i cs _ hplace
    have hcs := endsIn_symbolPlace? mode hplace
    split
    · rename_i hword
      exact .moveTo_bind ((word?_suffix hword).trans hcs)
    · rename_i hword
      split
      · exact Advances.advancesFrom c
      · exact advancesFrom_retreat _ _ ((word?_suffix hword).trans hcs)
    · exact Advances.advancesFrom c

instance : Advances (readNew g mode) := by
  unfold readNew
  infer_instance

instance : Advances (readYield g mode) := by
  refine advances_ahead_bind fun c => ?_
  split
  · exact Advances.advancesFrom c
  · rename_i hplace
    exact .moveTo_bind ((List.suffix_cons _ _).trans (endsIn_symbolPlace? mode hplace))
  · exact Advances.advancesFrom c

instance : Advances (readPrefixed g mode) := by
  unfold readPrefixed
  infer_instance

instance : Advances (readWordUnit g mode) := by
  refine Advances.bind (p := word) inferInstance fun w => ?_
  split <;> infer_instance

instance : Advances (readUnit g mode) := by
  have := takes_privateName?.endsIn.advances_take
  have := takes_string?.endsIn.advances_take
  have := takes_pattern?.endsIn.advances_take
  have := takes_numeral?.endsIn.advances_take
  have hsign : ∀ {cs rest : List Char} {twice : Prop} [Decidable twice], cs <:+ rest →
      (if twice then cs.drop 1 else cs) <:+ rest := by
    intro cs rest twice _ hcs
    split
    · exact (List.drop_suffix 1 cs).trans hcs
    · exact hcs
  refine Advances.bind (p := gap) inferInstance fun _ => advances_ahead_bind fun c => ?_
  split
  · exact Advances.advancesFrom c
  · rename_i hrest
    have hcs := suffix_of_eq_cons hrest
    split
    · exact .moveTo_bind hcs
    · exact .moveTo_bind hcs
    · exact .moveTo_bind hcs
    · exact .moveTo_bind hcs
    · exact Advances.advancesFrom c
    · exact Advances.advancesFrom c
    · exact Advances.advancesFrom c
    · exact Advances.advancesFrom c
    · exact Advances.advancesFrom c
    · exact Advances.advancesFrom c
    · exact .moveTo_bind hcs
    · exact .moveTo_bind hcs
    · exact .moveTo_bind (hsign hcs)
    · exact .moveTo_bind (hsign hcs)
    · exact Advances.advancesFrom c

/-! ## What follows a unit -/

instance (defaulted : Bool) : Advances (readAssigned g mode defaulted) := by
  unfold readAssigned
  infer_instance

instance : Advances readMemberName := by
  have := takes_privateName?.endsIn.advances_take
  refine Advances.bind (p := gap) inferInstance fun _ => Advances.bind (p := ahead) inferInstance
    fun cs => ?_
  split <;> infer_instance

instance (form : Form) : Advances (readSuffix g mode form) := by
  refine advances_ahead_bind fun c => ?_
  split
  · exact Advances.advancesFrom c
  · rename_i hplace
    have hcs := endsIn_symbolPlace? mode hplace
    have hdrop := fun n => (List.drop_suffix n _).trans hcs
    split
    · exact Advances.advancesFrom c
    · rename_i s _
      dsimp only
      -- Every access that is looked for needs a value in front and a symbol that is passed over.
      have haccess : ∀ (read : Reader Unit) (result : Form) [Advances read], AdvancesFrom c (do
          require form.value
          moveTo (List.drop s.length _)
          read
          return ForInStep.yield result) :=
        fun _ _ _ => .require_bind (.moveTo_bind (hdrop _))
      split
      · exact haccess _ _
      · exact haccess _ _
      · exact haccess _ _
      · exact haccess _ _
      · exact haccess _ _
      · exact haccess _ _
      · split
        · exact haccess _ _
        · exact haccess _ _
        · exact haccess _ _
      · exact .require_bind (.moveTo_bind (hdrop 1))
      · split
        · exact .require_bind (.moveTo_bind (hdrop _))
        · exact Advances.advancesFrom c

instance (form : Form) : Advances (readSuffixes g mode form) := by
  unfold readSuffixes
  infer_instance

instance : Advances (readOperand g mode) := by
  unfold readOperand
  infer_instance

/-! ## Chains of operands -/

instance (form : Form) : Advances (readInfix g mode form) := by
  refine advances_ahead_bind fun c => ?_
  split
  · exact Advances.advancesFrom c
  · rename_i hplace
    have hcs := endsIn_symbolPlace? mode hplace
    have hoperand : ∀ {cs : List Char}, cs <:+ c.rest → AdvancesFrom c (do
        require form.value
        moveTo cs
        require (← readOperand g mode).value
        return ForInStep.yield Form.plain) :=
      fun hsuffix => .require_bind (.moveTo_bind hsuffix)
    dsimp only
    split
    · exact .require_bind (.moveTo_bind ((List.drop_suffix 1 _).trans hcs))
    · split
      · exact hoperand ((List.drop_suffix _ _).trans hcs)
      · exact Advances.advancesFrom c
    · split
      · rename_i hword
        exact hoperand ((word?_suffix hword).trans hcs)
      · rename_i hword
        split
        · exact Advances.advancesFrom c
        · exact hoperand ((word?_suffix hword).trans hcs)
      · exact Advances.advancesFrom c

instance (form : Form) : Advances (readChain g mode form) := by
  unfold readChain
  infer_instance

instance : Advances (readExpression g mode) := by
  unfold readExpression
  infer_instance

end Retrofit.Script
