import Mathlib.Control.Monad.Basic
import Retrofit.Script.Editing
import Retrofit.Script.Source

/-!
# Edits that fail

**Theorem (`perform_error`).** An edit that fails leaves the script as it was, so whatever is done
to the script afterwards comes out as if the edit had not been tried.

An edit changes the script in place, and nothing takes a change back. It leaves no change behind
because every way to fail lies in front of the first change: `Reads` are the actions that only look
at the script, `Atomic` those that change it only if they succeed. Reading in front of an atomic
action gives an atomic action (`Reads.bind_atomic`). A snippet is read and searched without the
script, substitutions copy out of the script into the snippet (`reads_substituteAll`), and the
change comes last (`atomic_change`).
-/

namespace Retrofit.Script

variable {α β : Type} {error : EditError} {script after : Block} {parser : Parser}

namespace Editing

/-! ## Running actions -/

@[simp] theorem runOn_pure (value : α) (script : Block) :
    (pure value : Editing α).runOn script = (.ok value, script) := rfl

@[simp] theorem runOn_throw (error : EditError) (script : Block) :
    (throw error : Editing α).runOn script = (.error error, script) := rfl

@[simp] theorem runOn_get (script : Block) :
    (get : Editing Block).runOn script = (.ok script, script) := rfl

@[simp] theorem runOn_set (new script : Block) :
    (set new : Editing Unit).runOn script = (.ok (), new) := rfl

@[simp] theorem runOn_modify (f : Block → Block) (script : Block) :
    (modify f : Editing Unit).runOn script = (.ok (), f script) := rfl

@[simp] theorem runOn_liftM (result : Except EditError α) (script : Block) :
    (liftM result : Editing α).runOn script = (result, script) := rfl

/-- What follows an action works on the script that the action leaves, unless the action fails. -/
theorem runOn_bind_of_ok {action : Editing α} {next : α → Editing β} {value : α}
    (h : action.runOn script = (.ok value, after)) :
    (action >>= next).runOn script = (next value).runOn after := by
  have hrun : action.run.run script = (.ok value, after) := h
  simp only [runOn, ExceptT.run_bind, StateT.run_bind, hrun]
  rfl

theorem runOn_bind_of_error {action : Editing α} {next : α → Editing β}
    (h : action.runOn script = (.error error, after)) :
    (action >>= next).runOn script = (.error error, after) := by
  have hrun : action.run.run script = (.error error, after) := h
  simp only [runOn, ExceptT.run_bind, StateT.run_bind, hrun]
  rfl

/-- An action in two parts succeeds if both do. -/
theorem runOn_bind_eq_ok {action : Editing α} {next : α → Editing β} {value : β} :
    (action >>= next).runOn script = (.ok value, after) ↔
      ∃ first between, action.runOn script = (.ok first, between) ∧
        (next first).runOn between = (.ok value, after) := by
  cases h : action.runOn script with
  | mk result between =>
    cases result with
    | error error => simp [runOn_bind_of_error h]
    | ok first =>
      rw [runOn_bind_of_ok h]
      constructor
      · intro hnext
        exact ⟨first, between, rfl, hnext⟩
      · rintro ⟨first', between', heq, hnext⟩
        cases heq
        exact hnext

theorem runOn_require_eq_ok {found : Option α} {value : α} :
    (require error found).runOn script = (.ok value, after) ↔
      found = some value ∧ after = script := by
  cases found <;> simp [require, eq_comm]

theorem runOn_look_eq_ok {found? : Address → Block → Option α} {address : Address} {value : α} :
    (look found? address).runOn script = (.ok value, after) ↔
      found? address script = some value ∧ after = script := by
  simp [look, runOn_bind_eq_ok, runOn_require_eq_ok, and_assoc]

theorem runOn_change_eq_ok {changed? : Address → Block → Option Block} {address : Address} :
    (change changed? address).runOn script = (.ok (), after) ↔
      changed? address script = some after := by
  simp [change, runOn_bind_eq_ok, runOn_look_eq_ok, and_assoc]

/-! ## Actions that only read -/

/-- The action leaves every script as it is. -/
def Reads (action : Editing α) : Prop :=
  ∀ script, (action.runOn script).2 = script

theorem reads_pure (value : α) : Reads (pure value) := fun _ => rfl

theorem reads_throw (error : EditError) : Reads (throw error : Editing α) := fun _ => rfl

theorem reads_get : Reads (get : Editing Block) := fun _ => rfl

theorem reads_liftM (result : Except EditError α) : Reads (liftM result) := fun _ => rfl

theorem reads_require (error : EditError) (found : Option α) : Reads (require error found) := by
  cases found with
  | none => exact reads_throw error
  | some value => exact reads_pure value

theorem Reads.bind {action : Editing α} {next : α → Editing β} (h : Reads action)
    (hnext : ∀ value, Reads (next value)) : Reads (action >>= next) := by
  intro script
  have hkept : (action.runOn script).2 = script := h script
  cases hrun : action.runOn script with
  | mk result after =>
    rw [hrun] at hkept
    cases result with
    | error error => rw [runOn_bind_of_error hrun, hkept]
    | ok value =>
      rw [runOn_bind_of_ok hrun, hnext value after]
      exact hkept

theorem reads_look (found? : Address → Block → Option α) (address : Address) :
    Reads (look found? address) := by
  unfold look
  exact reads_get.bind fun script => reads_require _ _

/-! ## Actions that change the script last -/

/-- The action leaves a script as it is if it fails. -/
def Atomic (action : Editing α) : Prop :=
  ∀ script error after, action.runOn script = (.error error, after) → after = script

theorem Reads.atomic {action : Editing α} (h : Reads action) : Atomic action := by
  intro script error after hrun
  have hkept := h script
  rwa [hrun] at hkept

theorem atomic_set (new : Block) : Atomic (set new : Editing Unit) := by
  intro script error after hrun
  cases hrun

theorem atomic_modify (f : Block → Block) : Atomic (modify f : Editing Unit) := by
  intro script error after hrun
  cases hrun

/-- What only reads can stand in front. -/
theorem Reads.bind_atomic {action : Editing α} {next : α → Editing β} (h : Reads action)
    (hnext : ∀ value, Atomic (next value)) : Atomic (action >>= next) := by
  intro script error after hrun
  have hkept : (action.runOn script).2 = script := h script
  cases haction : action.runOn script with
  | mk result between =>
    rw [haction] at hkept
    cases result with
    | error found =>
      rw [runOn_bind_of_error haction] at hrun
      cases hrun
      exact hkept
    | ok value =>
      rw [runOn_bind_of_ok haction] at hrun
      rw [← hkept]
      exact hnext value between error after hrun

theorem atomic_change (changed? : Address → Block → Option Block) (address : Address) :
    Atomic (change changed? address) := by
  unfold change
  exact (reads_look changed? address).bind_atomic atomic_set

end Editing

open Editing

/-! ## Edits -/

/-- A substitution copies out of the script and changes the snippet only. -/
theorem reads_substitute (s : Substitution) (snippet : Block) : Reads (substitute s snippet) := by
  unfold substitute
  split
  · exact reads_throw _
  · split
    · exact (reads_look _ _).bind fun node => reads_require _ _
    · exact (reads_look _ _).bind fun node => reads_require _ _

theorem reads_substituteAll (substitutions : List Substitution) (snippet : Block) :
    Reads (substituteAll substitutions snippet) := by
  induction substitutions generalizing snippet with
  | nil => exact reads_pure snippet
  | cons s rest ih => exact (reads_substitute s snippet).bind ih

/-- Every way in which an edit fails lies in front of its change. -/
theorem atomic_perform (edit : Edit) : Atomic (perform parser edit) := by
  cases edit with
  | unshift list text =>
    have hfirst : ∀ added : List Statement, Reads (require (.emptySnippet text) added.head?) :=
      fun added => reads_require _ _
    exact (reads_liftM (snippet parser text)).bind_atomic fun added =>
      (hfirst added).bind_atomic fun _ => atomic_change _ list
  | push text => exact (reads_liftM (snippet parser text)).bind_atomic fun added => atomic_modify _
  | assign address text substitutions =>
    rw [perform]
    split
    · exact (reads_throw _).atomic
    · refine (reads_liftM (snippet parser text)).bind_atomic fun added => ?_
      refine (reads_substituteAll substitutions _).bind_atomic fun edited => ?_
      exact (reads_require _ _).bind_atomic fun node => atomic_change _ address

/-! ## Edits that succeed -/

variable {edited : Block} {text : String} {list address : Address}
  {substitutions : List Substitution}

theorem apply_eq_ok {edit : Edit} :
    apply parser edit script = .ok edited ↔
      (perform parser edit).runOn script = (.ok (), edited) := by
  unfold apply
  split
  · rename_i after hrun
    simp [hrun]
  · rename_i error after hrun
    simp [hrun]

theorem apply_unshift_eq_ok :
    apply parser (.unshift list text) script = .ok edited ↔
      ∃ added others, snippet parser text = .ok (added :: others) ∧
        script.changeList? (fun block => some (block.unshift added)) list = some edited := by
  simp only [apply_eq_ok, perform, runOn_bind_eq_ok, runOn_liftM, runOn_require_eq_ok,
    runOn_change_eq_ok, Prod.mk.injEq]
  constructor
  · rintro ⟨statements, _, ⟨hsnippet, rfl⟩, added, _, ⟨hfirst, rfl⟩, hchange⟩
    obtain ⟨others, rfl⟩ := List.head?_eq_some_iff.mp hfirst
    exact ⟨added, others, hsnippet, hchange⟩
  · rintro ⟨added, others, hsnippet, hchange⟩
    exact ⟨_, script, ⟨hsnippet, rfl⟩, added, script, ⟨rfl, rfl⟩, hchange⟩

theorem apply_push_eq_ok :
    apply parser (.push text) script = .ok edited ↔
      ∃ added, snippet parser text = .ok added ∧ edited = script.append added := by
  simp only [apply_eq_ok, perform, runOn_bind_eq_ok, runOn_liftM, runOn_modify, Prod.mk.injEq]
  constructor
  · rintro ⟨added, _, ⟨hsnippet, rfl⟩, -, rfl⟩
    exact ⟨added, hsnippet, rfl⟩
  · rintro ⟨added, hsnippet, rfl⟩
    exact ⟨added, script, ⟨hsnippet, rfl⟩, trivial, rfl⟩

theorem apply_assign_eq_ok :
    apply parser (.assign address text substitutions) script = .ok edited ↔
      address.isStatement ∧ ∃ added copy node, snippet parser text = .ok added ∧
        (substituteAll substitutions (.ofStatements added)).runOn script = (.ok copy, script) ∧
        copy.head? = some node ∧
        script.changeStatement? (fun _ => some node) address = some edited := by
  rw [apply_eq_ok, perform]
  by_cases hkind : address.isStatement
  · simp only [hkind, Bool.not_true, Bool.false_eq_true, if_false, runOn_bind_eq_ok, runOn_liftM,
      runOn_require_eq_ok, runOn_change_eq_ok, Prod.mk.injEq, true_and]
    constructor
    · rintro ⟨added, _, ⟨hsnippet, rfl⟩, copy, between, hcopy, node, _, ⟨hnode, rfl⟩, hchange⟩
      have hkept := reads_substituteAll substitutions (.ofStatements added) script
      rw [hcopy] at hkept
      dsimp only at hkept
      subst hkept
      exact ⟨added, copy, node, hsnippet, hcopy, hnode, hchange⟩
    · rintro ⟨added, copy, node, hsnippet, hcopy, hnode, hchange⟩
      exact ⟨added, script, ⟨hsnippet, rfl⟩, copy, script, hcopy, node, script, ⟨hnode, rfl⟩,
        hchange⟩
  · simp [hkind]

/-! ## Going on after a failure -/

/-- The results of edits that are tried one after the other, whether those before them have failed
or not, and the script that is left. -/
def attemptAll (parser : Parser) : List Edit → Block → List (Except EditError Unit) × Block
  | [], script => ([], script)
  | edit :: rest, script =>
    let (result, after) := (perform parser edit).runOn script
    let (results, last) := attemptAll parser rest after
    (result :: results, last)

/-- **An edit that fails changes nothing.** The script is the same as before, and the edits that are
tried afterwards have the results, and leave the script, that they have and leave without it. -/
theorem perform_error {edit : Edit}
    (h : (perform parser edit).runOn script = (.error error, after)) :
    after = script ∧ ∀ later, attemptAll parser (edit :: later) script =
      (.error error :: (attemptAll parser later script).1, (attemptAll parser later script).2) := by
  have hkept : after = script := atomic_perform edit script error after h
  refine ⟨hkept, fun later => ?_⟩
  rw [attemptAll, h, hkept]

/-- A script with an empty function. -/
def emptyFunction : Block :=
  .next "" (.block "function f() \x7b" (.done "") (.plain "\x7d")) (.done "\n")

/-- The empty body takes the place of all statements of the snippet, and then none is left to put
into the script. -/
theorem perform_error_emptied :
    ofText sourceTree? "function f() \x7b\x7d\n" = .ok emptyFunction ∧
      ∃ after, (perform sourceTree? (.assign [0] "x();" [⟨[], [0, 0]⟩])).runOn emptyFunction =
          (.error (.emptySnippet "x();"), after) ∧
        after = emptyFunction ∧
        ∀ later, attemptAll sourceTree? (.assign [0] "x();" [⟨[], [0, 0]⟩] :: later)
            emptyFunction =
          (.error (.emptySnippet "x();") :: (attemptAll sourceTree? later emptyFunction).1,
            (attemptAll sourceTree? later emptyFunction).2) := by
  have hread : ofText sourceTree? "function f() \x7b\x7d\n" = .ok emptyFunction := by
    decide +kernel
  have hfails : (perform sourceTree? (.assign [0] "x();" [⟨[], [0, 0]⟩])).runOn emptyFunction =
      (.error (.emptySnippet "x();"), emptyFunction) := by decide +kernel
  exact ⟨hread, emptyFunction, hfails, perform_error hfails⟩

end Retrofit.Script
