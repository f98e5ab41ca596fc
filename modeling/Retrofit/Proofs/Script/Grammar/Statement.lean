import Retrofit.Proofs.Script.Grammar.Expression

/-!
# Statements advance

A statement ends where `whatFollows` finds its end, or behind the semicolon there
(`advances_ended`).

**Braces.** Empty braces at the start of a statement turn out to be an object where an operator
follows. The block that was read is dropped again then, and the blocks are those from before.

**Long readers.** An instance is put together from those of all the readers in the definition. Where
there are many, it grows larger than the search allows unless `synthInstance.maxSize` is raised.
-/

namespace Retrofit.Script

open Reader

variable (g : Nested) [g.Advancing]

/-! ## Expressions as statements -/

instance (form : Form) : Advances (finishExpression g form) := by
  unfold finishExpression
  infer_instance

instance : Advances (readExpressionStatement g) := by
  unfold readExpressionStatement
  infer_instance

instance (named : Bool) : Advances (finishNamed g named) := by
  unfold finishNamed
  infer_instance

/-! ## Declarations -/

instance : Advances (readBinding g) := by
  refine Advances.bind (p := gap) inferInstance fun _ => advances_ahead_bind fun c => ?_
  split
  · rename_i hrest
    exact .moveTo_bind (suffix_of_eq_cons hrest)
  · rename_i hrest
    exact .moveTo_bind (suffix_of_eq_cons hrest)
  · exact Advances.advancesFrom c

instance : Advances (readDeclarations g) := by
  refine Advances.bind (advances_iterate (fun _ => ?_) _ _) fun _ => inferInstance
  refine Advances.bind (p := readBinding g) inferInstance fun _ => ?_
  refine advances_whatFollows_bind fun c next hnext => ?_
  extract_lets finish
  have hfinish : ∀ c next, next.place <:+ c.rest → AdvancesFrom c (finish next) := by
    intro c next hnext
    dsimp only [finish]
    split
    · exact .moveTo_bind hnext
    · exact .moveTo_bind ((List.suffix_cons _ _).trans hnext)
    · exact .moveTo_bind ((List.suffix_cons _ _).trans hnext)
    · exact Advances.advancesFrom c
  split
  · have hvalue : Advances (do readValue g .last; finish (← whatFollows false)) :=
      Advances.bind (p := readValue g .last) inferInstance fun _ =>
        advances_whatFollows_bind hfinish
    exact .moveTo_bind ((List.suffix_cons _ _).trans hnext)
  · exact hfinish c next hnext

theorem behindFunction?_suffix {cs rest : List Char} (h : behindFunction? cs = some rest) :
    rest <:+ cs := by
  have hplace := following_suffix false cs
  unfold behindFunction? at h
  split at h
  · cases h
  · rename_i hfollowing
    rw [hfollowing] at hplace
    split at h
    · rename_i hword
      cases h
      exact (word?_suffix hword).trans hplace
    · cases h

/-! ## Imports and exports -/

set_option synthInstance.maxSize 10000 in
instance : Advances (readNameList g) := by
  refine Advances.bind (p := symbol _) inferInstance fun _ => ?_
  extract_lets name
  have hname : Advances name := by
    refine Advances.bind (p := nextChar) inferInstance fun _ => ?_
    split <;> infer_instance
  infer_instance

instance : Advances readSource := by
  unfold readSource
  infer_instance

instance : Advances (readImport g) := by
  unfold readImport
  extract_lets +onlyGivenNames several
  have hseveral : Advances several := by
    dsimp only [several]
    infer_instance
  refine Advances.bind (p := nextChar) inferInstance fun _ => ?_
  extract_lets +onlyGivenNames -underBinder finish
  have hfinish : Advances (finish ()) := by
    refine advances_whatFollows_bind fun c next hnext => ?_
    split
    · exact Advances.advancesFrom c
    · exact .moveTo_bind hnext
  split <;> infer_instance

instance : Advances (readDefaultValue g) := by
  unfold readDefaultValue
  infer_instance

set_option synthInstance.maxSize 10000 in
instance : Advances (readDefault g) := by
  refine Advances.bind (p := nextWord) inferInstance fun w => ?_
  split
  case h_6 =>
    refine advances_ahead_bind fun c => ?_
    split
    · rename_i hbehind
      have hahead := (List.drop_suffix 5 _).trans (skipGap_suffix true 0 c.rest)
      exact .moveTo_bind ((behindFunction?_suffix hbehind).trans hahead)
    · exact Advances.advancesFrom c
  all_goals infer_instance

instance : Advances (readExport g) := by
  refine Advances.bind (p := nextChar) inferInstance fun _ => ?_
  split
  · refine Advances.bind (p := symbol _) inferInstance fun _ => ?_
    refine Advances.bind (p := keywordIf _) inferInstance fun _ => advances_ite ?_ inferInstance
    refine Advances.bind (p := nextChar) inferInstance fun _ => ?_
    split <;> infer_instance
  · refine Advances.bind (p := readNameList g) inferInstance fun _ => ?_
    refine advances_whatFollows_bind fun c next hnext => ?_
    split
    · exact .moveTo_bind hnext
    · exact Advances.advancesFrom c
  · refine Advances.bind (p := readDecorators g) inferInstance fun _ => ?_
    refine Advances.bind (p := word) inferInstance fun _ => ?_
    split <;> infer_instance

/-! ## Loops and branches -/

instance : Advances (readInner g) := by
  unfold readInner
  infer_instance

instance : Advances (readMemberHead g) := by
  refine Advances.bind (p := symbol _) inferInstance fun _ => ?_
  extract_lets declared target rest
  have hdeclared : Advances declared := by
    refine Advances.bind (p := word) inferInstance fun _ => ?_
    split <;> infer_instance
  have htarget : Advances target := by
    dsimp only [target]
    infer_instance
  have hrest : Advances rest := by
    dsimp only [rest]
    infer_instance
  infer_instance

set_option synthInstance.maxSize 10000 in
instance : Advances (readStepHead g) := by
  unfold readStepHead
  infer_instance

instance : Advances (readBranches g) := by
  unfold readBranches
  have hbranch : ∀ inBranch : Bool, Advances (do
      match ← nextWord with
      | "case" =>
        keyword "case"
        readValues g .inner
        symbol ":"
        return ForInStep.yield true
      | "default" =>
        keyword "default"
        symbol ":"
        return .yield true
      | _ =>
        require inBranch
        let _ ← readInner g
        return .yield true) := by
    intro inBranch
    refine Advances.bind (p := nextWord) inferInstance fun _ => ?_
    split <;> infer_instance
  infer_instance

/-- A reader may end the statement, with a semicolon or without one, and go on in another way where
it cannot. -/
theorem advances_ended {commentEnds : Bool} {p q : Reader Bool} [Advances p] [Advances q] :
    Advances (do
      match ← whatFollows commentEnds with
      | .ends cs => moveTo cs; p
      | .continues (';' :: cs) => moveTo cs; p
      | .continues _ => q) := by
  refine advances_whatFollows_bind fun c next hnext => ?_
  split
  · exact .moveTo_bind hnext
  · exact .moveTo_bind ((List.suffix_cons _ _).trans hnext)
  · exact Advances.advancesFrom c

set_option synthInstance.maxSize 10000 in
/-- The reader for every statement that begins with a word of the language advances. -/
theorem advances_of_readWordStatement? {w : String} {read : Reader Bool}
    (h : readWordStatement? g w = some read) : Advances read := by
  unfold readWordStatement? at h
  split at h
  all_goals cases h
  -- `do`, `return`, `break` and `continue` look for the end of the statement themselves.
  case h_8 =>
    refine Advances.bind (p := readInner g) inferInstance fun _ => ?_
    refine Advances.bind (p := keyword _) inferInstance fun _ => ?_
    exact Advances.bind (p := readCondition g) inferInstance fun _ => advances_ended
  case h_12 => exact advances_ended
  case h_14 => exact advances_ended
  case h_15 => exact advances_ended
  all_goals infer_instance

/-! ## All statements -/

theorem advances_from_word {c : Cursor} {w : String} {behind : List Char} (h : behind <:+ c.rest) :
    AdvancesFrom c (readNamedStatement g w behind) := by
  have hnext := (skipGap_suffix true 0 behind).trans h
  unfold readNamedStatement
  dsimp only
  split
  · rename_i hread
    have := advances_of_readWordStatement? g hread
    exact .moveTo_bind h
  · split
    · exact .moveTo_bind ((List.drop_suffix 1 _).trans hnext)
    · split
      · split
        · exact .moveTo_bind h
        · exact Advances.advancesFrom c
      · split
        · exact Advances.advancesFrom c
        · exact .moveTo_bind h
      · split
        · exact .moveTo_bind h
        · exact Advances.advancesFrom c
      · split
        · rename_i hbehind
          exact .moveTo_bind ((behindFunction?_suffix hbehind).trans h)
        · exact Advances.advancesFrom c
      · exact Advances.advancesFrom c

instance : Advances (readBraced g) := by
  refine advances_ahead_bind fun c => ?_
  extract_lets cs block
  have hblock : Advances block := by
    refine ⟨fun c => ⟨fun hfits mayFollow c' h => ?_, fun hfits k => ?_⟩⟩
    · obtain ⟨_, c₁, hget, h⟩ := run_bind_eq_some.mp h
      cases hget
      obtain ⟨filled, c₁, hbraces, h⟩ := run_bind_eq_some.mp h
      have hreach₁ : c.Reaches c₁ := Advances.reaches hfits hbraces
      obtain ⟨ended, c₂, hclose, h⟩ := run_bind_eq_some.mp h
      have hreach₂ : c.Reaches c₂ :=
        hreach₁.trans (Advances.reaches (hreach₁.fits hfits) hclose)
      cases ended with
      | true =>
        cases h
        exact hreach₂
      | false =>
        obtain ⟨_, c₃, hahead, h⟩ := run_bind_eq_some.mp h
        cases hahead
        split at h
        · obtain ⟨_, c₃, hmodify, h⟩ := run_bind_eq_some.mp h
          cases hmodify
          -- The braces were an object, and what is left of them is the text.
          have hreach₃ : c.Reaches { c₂ with blocks := c.blocks } :=
            ⟨hreach₂.rest, hreach₂.length, [], rfl, hreach₂.place_le⟩
          exact hreach₃.trans (Advances.reaches (hreach₃.fits hfits) h)
        · cases h
          exact hreach₂
    · refine run_bind_shift (m := Cursor.shift k) rfl fun before c₁ hget => ?_
      cases hget
      refine run_bind_shift (Advances.shifts (readBraces g) hfits k) fun filled c₁ hbraces => ?_
      have hfits₁ := (Advances.reaches hfits hbraces).fits hfits
      refine run_bind_shift (Advances.shifts (closeIf _) hfits₁ k) fun ended c₂ hclose => ?_
      have hfits₂ := (Advances.reaches hfits₁ hclose).fits hfits₁
      cases ended with
      | true => rfl
      | false =>
        refine run_bind_shift (m := id) rfl fun cs c₃ hahead => ?_
        cases hahead
        dsimp only [id]
        split
        · refine run_bind_shift (m := id) rfl fun _ c₃ hmodify => ?_
          cases hmodify
          have hfits₃ : Cursor.Fits { c₂ with blocks := c.blocks } := hfits₂
          exact Advances.shifts (finishExpression g .plain) hfits₃ k
        · rfl
  exact Advances.advancesFrom c

instance : Advances (readStatement g) := by
  refine advances_ahead_bind fun c => ?_
  split
  · exact Advances.advancesFrom c
  · rename_i hrest
    exact .moveTo_bind (suffix_of_eq_cons hrest)
  · exact Advances.advancesFrom c
  · refine AdvancesFrom.bind (p := readDecorators g) (Advances.advancesFrom c) fun _ => ?_
    refine Advances.bind (p := word) inferInstance fun _ => ?_
    split <;> infer_instance
  · split
    · rename_i hword
      exact advances_from_word g (word?_suffix hword)
    · exact Advances.advancesFrom c

end Retrofit.Script
