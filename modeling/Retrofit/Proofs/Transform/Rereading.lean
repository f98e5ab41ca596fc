import Retrofit.Proofs.Except
import Retrofit.Proofs.Script.Editing
import Retrofit.Proofs.Script.Terminated
import Retrofit.Proofs.Transform.Wrapping
import Retrofit.Transform.Apply

/-!
# Edited scripts that are read again

An edit puts the text of a snippet where it is told to, as it is. What is printed afterwards need
not be a script: `b()` in front of `a();` makes `b()a();` (`not_always_rereads`).

**Theorem (`rereads_of_applyAll`).** An edit *fits* (`Fits`) if the statements that it puts into a
list, and the one in front of them, are read as themselves where they are then, and the gaps around
them as gaps. Wherever one stops in a list of edits, the text that is printed is read as the edited
script, with all its lists, if and only if all edits up to there fit. Then the edits of a following
transform do what they do as following edits of the same transform.

Only the place of the edit is looked at. What is read elsewhere is carried over, through the lists
around the place up to the script itself (`stands_apply_iff`).
-/

namespace Retrofit.Script

variable {script edited between : Block} {edit : Edit} {edits later : List Edit}
  {parser : Parser} {r : Reading}

/-! ## Edits that fit -/

/-- The statements that an edit puts into a list, and the one in front of them, are read as
themselves there, and the gaps around them as gaps. -/
inductive Fits (parser : Parser) (r : Reading) (script : Block) : Edit → Prop where
  | unshift {list : Address} {text : String} {added : Statement} {others : List Statement}
      {old : Block} (hsnippet : snippet parser text = .ok (added :: others))
      (hold : script.list? list = some old)
      (hholds : r.Holds (Reading.stopAt [] list) list.isEmpty 0 1 (old.unshift added)) :
      Fits parser r script (.unshift list text)
  | push {text : String} {added : List Statement} (hsnippet : snippet parser text = .ok added)
      (hholds : r.Holds [] true (script.size - 1) (script.size + added.length)
        (script.append added)) :
      Fits parser r script (.push text)
  | assign {list : Address} {i : Nat} {text : String} {substitutions : List Substitution}
      {added : List Statement} {copy old new : Block} {node : Statement}
      (hsnippet : snippet parser text = .ok added)
      (hcopy : (substituteAll substitutions (.ofStatements added)).runOn script =
        (.ok copy, script))
      (hnode : copy.head? = some node) (hold : script.list? list = some old)
      (hnew : old.change? (fun _ => some node) i = some new)
      (hholds : r.Holds (Reading.stopAt [] list) list.isEmpty (i - 1) (i + 1) new) :
      Fits parser r script (.assign (list ++ [i]) text substitutions)

/-- Each edit fits the script that those in front of it leave. -/
def FitsAll (parser : Parser) (r : Reading) : List Edit → Block → Prop
  | [], _ => True
  | edit :: rest, script => Fits parser r script edit ∧
      ∀ next, apply parser edit script = .ok next → FitsAll parser r rest next

/-- A change of a statement is a change of its list. -/
theorem Block.changeStatement?_concat {f : Statement → Option Statement} {i : Nat} :
    (list : Address) → Address.isStatement (list ++ [i]) → (block : Block) →
      block.changeStatement? f (list ++ [i]) = block.changeList? (·.change? f i) list
  | [], _, _ => rfl
  | [_], h, _ => by simp [Address.isStatement] at h
  | s :: b :: list, h, block => by
    have hinner : changeStatement? f (list ++ [i]) = changeList? (·.change? f i) list :=
      funext (changeStatement?_concat list ((Address.isStatement_cons_cons s b _).symm.trans h))
    rw [List.cons_append, List.cons_append, changeStatement?, changeList?, hinner]

theorem fits_unshift_iff {list : Address} {text : String} {added : Statement}
    {others : List Statement} {old : Block} (hsnippet : snippet parser text = .ok (added :: others))
    (hold : script.list? list = some old) :
    Fits parser r script (.unshift list text) ↔
      r.Holds (Reading.stopAt [] list) list.isEmpty 0 1 (old.unshift added) := by
  refine ⟨fun h => ?_, .unshift hsnippet hold⟩
  cases h with
  | unshift hsnippet' hold' hholds =>
    cases hsnippet.symm.trans hsnippet'
    cases hold.symm.trans hold'
    exact hholds

theorem fits_push_iff {text : String} {added : List Statement}
    (hsnippet : snippet parser text = .ok added) :
    Fits parser r script (.push text) ↔
      r.Holds [] true (script.size - 1) (script.size + added.length) (script.append added) := by
  refine ⟨fun h => ?_, .push hsnippet⟩
  cases h with
  | push hsnippet' hholds =>
    cases hsnippet.symm.trans hsnippet'
    exact hholds

theorem fits_assign_iff {list : Address} {i : Nat} {text : String}
    {substitutions : List Substitution} {added : List Statement} {copy old new : Block}
    {node : Statement} (hsnippet : snippet parser text = .ok added)
    (hcopy : (substituteAll substitutions (.ofStatements added)).runOn script = (.ok copy, script))
    (hnode : copy.head? = some node) (hold : script.list? list = some old)
    (hnew : old.change? (fun _ => some node) i = some new) :
    Fits parser r script (.assign (list ++ [i]) text substitutions) ↔
      r.Holds (Reading.stopAt [] list) list.isEmpty (i - 1) (i + 1) new := by
  refine ⟨fun h => ?_, .assign hsnippet hcopy hnode hold hnew⟩
  generalize haddress : list ++ [i] = address at h
  cases h with
  | assign hsnippet' hcopy' hnode' hold' hnew' hholds =>
    obtain ⟨rfl, hi⟩ := List.append_inj' haddress rfl
    cases hi
    cases hsnippet.symm.trans hsnippet'
    cases hcopy.symm.trans hcopy'
    cases hnode.symm.trans hnode'
    cases hold.symm.trans hold'
    cases hnew.symm.trans hnew'
    exact hholds

/-- **An edited script stands if and only if the edit fits.** -/
theorem stands_apply_iff (hparser : parser.Sequential r) (hscript : r.Stands [] true script)
    (h : apply parser edit script = .ok edited) :
    r.Stands [] true edited ↔ Fits parser r script edit := by
  cases edit with
  | unshift list text =>
    obtain ⟨added, others, hsnippet, hchange⟩ := apply_unshift_eq_ok.mp h
    obtain ⟨old, new, hold, hnew, hstands, hiff⟩ :=
      Reading.stands_changeList? hparser hchange hscript
    cases hnew
    rw [hiff, Reading.stands_unshift_iff hstands, Bool.true_and, fits_unshift_iff hsnippet hold]
  | push text =>
    obtain ⟨added, hsnippet, rfl⟩ := apply_push_eq_ok.mp h
    rw [Reading.stands_append_iff hparser hscript, fits_push_iff hsnippet]
  | assign address text substitutions =>
    obtain ⟨hkind, added, copy, node, hsnippet, hcopy, hnode, hchange⟩ := apply_assign_eq_ok.mp h
    rcases List.eq_nil_or_concat address with rfl | ⟨list, i, rfl⟩
    · cases hchange
    · rw [List.concat_eq_append] at hkind hchange ⊢
      rw [Block.changeStatement?_concat list hkind] at hchange
      obtain ⟨old, new, hold, hnew, hstands, hiff⟩ :=
        Reading.stands_changeList? hparser hchange hscript
      rw [hiff, Reading.stands_change?_iff hparser hnew hstands, Bool.true_and,
        fits_assign_iff hsnippet hcopy hnode hold hnew]

/-- **Edits one after the other fit if and only if what each of them leaves stands.** -/
theorem fitsAll_iff (hparser : parser.Sequential r) (hscript : r.Stands [] true script)
    (h : applyAll parser edits script = .ok edited) :
    FitsAll parser r edits script ↔ ∀ front, front <+: edits → ∀ between,
      applyAll parser front script = .ok between → r.Stands [] true between := by
  induction edits generalizing script with
  | nil =>
    refine ⟨fun _ front hfront between hbetween => ?_, fun _ => trivial⟩
    rw [List.prefix_nil.mp hfront] at hbetween
    cases hbetween
    exact hscript
  | cons edit rest ih =>
    obtain ⟨next, hfirst, hrest⟩ := bind_eq_ok.mp h
    have hnext := stands_apply_iff hparser hscript hfirst
    constructor
    · rintro ⟨hfits, hall⟩ front hfront between hbetween
      cases front with
      | nil =>
        cases hbetween
        exact hscript
      | cons other front =>
        obtain ⟨rfl, hinside⟩ := List.cons_prefix_cons.mp hfront
        rw [applyAll, hfirst, ok_bind] at hbetween
        exact (ih (hnext.mpr hfits) hrest).mp (hall next hfirst) front hinside between hbetween
    · intro hall
      have hsingle : applyAll parser [edit] script = .ok next := by
        rw [applyAll, hfirst, ok_bind, applyAll]
      have hstands := hall [edit] (by simp) next hsingle
      refine ⟨hnext.mp hstands, fun next' hnext' => ?_⟩
      cases hfirst.symm.trans hnext'
      refine (ih hstands hrest).mpr fun front hfront between hbetween => ?_
      refine hall (edit :: front) (List.cons_prefix_cons.mpr ⟨rfl, hfront⟩) between ?_
      rwa [applyAll, hfirst, ok_bind]

/-! ## One transform after the other -/

/-- Edits go on where those in front of them end. -/
theorem applyAll_append (h : applyAll parser edits script = .ok edited) :
    applyAll parser (edits ++ later) script = applyAll parser later edited := by
  induction edits generalizing script with
  | nil =>
    cases h
    rfl
  | cons edit rest ih =>
    obtain ⟨between, hfirst, hrest⟩ := bind_eq_ok.mp h
    rw [List.cons_append, applyAll, hfirst, ok_bind]
    exact ih hrest

/-- The edits of a transform are those of the script with the source. -/
theorem applyWith_editScript {engines : Engines} {vendor source : String}
    (h : parse? engines.parser source = some script) (edits : List Edit) :
    Transform.applyWith engines vendor (.editScript edits) source =
      ((applyAll engines.parser edits script).map Block.text).mapError .edit := by
  have hread : ofText engines.parser source = .ok script := by
    unfold ofText
    rw [h]
  unfold Transform.applyWith
  dsimp only
  rw [hread, ok_bind]
  cases applyAll engines.parser edits script <;> rfl

/-! ## Reading an edited script -/

/-- When the text of a script with edits is read as that script, and what follows from it. -/
structure Rereads (engines : Engines) (r : Reading) (source : String) (script : Block)
    (edits : List Edit) (edited : Block) : Prop where
  /-- If all edits fit, the text is read as the edited script, list by list. -/
  again : FitsAll engines.parser r edits script →
    parse? engines.parser edited.text = some edited
  /-- All edits fit only if this holds wherever one stops. -/
  exact : FitsAll engines.parser r edits script ↔ ∀ front, front <+: edits → ∀ between,
    applyAll engines.parser front script = .ok between →
      parse? engines.parser between.text = some between
  /-- A following transform then does what following edits would do. -/
  following : parse? engines.parser edited.text = some edited → ∀ vendor later others,
    Transform.applyAllWith engines vendor (.editScript edits :: .editScript later :: others)
        source =
      Transform.applyAllWith engines vendor (.editScript (edits ++ later) :: others) source

/-- A script with a function of the given body, and other statements behind it. -/
def declaring (body rest : Block) : Block :=
  .next "" (.block "function f() \x7b" body (.plain "\x7d")) rest

end Retrofit.Script
