import Retrofit.Proofs.Except
import Retrofit.Proofs.Script.Frame

/-!
# Insertions at both ends

**Theorem (`unshift_push_comm`).** An insertion that succeeds and statements that are appended may
come in either order. The script is the same, gaps and comments included.

What is appended comes behind the statements there are, so an index leads where it led before, and
a change below it and the appended statements do not meet (`Block.change?_append`). Only the
insertion at the front of the script itself looks at what may just have been appended: in a body
without a statement the first one is the inserted one or an appended one, and both stand behind a
line break of their own (`Block.append_unshift`).
-/

namespace Retrofit.Script

variable {script block edited unshifted : Block} {added : List Statement} {i : Nat}

namespace Block

/-- Appended statements are the same behind an inserted one. -/
theorem append_unshift (first : Statement) (added : List Statement) (block : Block) :
    (block.append added).unshift first = (block.unshift first).append added := by
  cases block with
  | next gap statement rest => rfl
  | done trailing =>
    cases added with
    | nil => rfl
    | cons second rest =>
      -- The line break in front of an appended statement is used for the inserted one as well.
      have hgap : openGap "\n" = ("\n", "\n") := by decide
      simp only [append, unshift, List.foldr_cons, hgap]

/-- A change below an index leaves what is appended alone. -/
theorem change?_append {f : Statement → Option Statement} (h : block.change? f i = some edited) :
    (block.append added).change? f i = some (edited.append added) := by
  induction i generalizing block edited with
  | zero =>
    cases block with
    | done trailing => cases h
    | next gap first rest =>
      obtain ⟨changed, hchanged, rfl⟩ := Option.map_eq_some_iff.mp h
      rw [append, change?, hchanged, Option.map_some, append]
  | succ i ih =>
    cases block with
    | done trailing => cases h
    | next gap first rest =>
      obtain ⟨changed, hchanged, rfl⟩ := Option.map_eq_some_iff.mp h
      rw [append, change?, ih hchanged, Option.map_some, append]

/-- An insertion at any address leaves what is appended alone. -/
theorem changeList?_unshift_append {first : Statement} : ∀ {list : Address} {block edited : Block},
    block.changeList? (fun inner => some (inner.unshift first)) list = some edited →
      (block.append added).changeList? (fun inner => some (inner.unshift first)) list =
        some (edited.append added)
  | [], block, _, h => by
    cases h
    exact congrArg some (append_unshift first added block)
  | [_], _, _, h => nomatch h
  | _ :: _ :: _, _, _, h => change?_append h

end Block

variable {list : Address} {text text' : String} {parser : Parser}

/-- **Insertions at the front and at the end commute.** -/
theorem unshift_push_comm (hunshift : apply parser (.unshift list text) script = .ok unshifted)
    (hpush : snippet parser text' = .ok added) :
    ∃ edited, applyAll parser [.unshift list text, .push text'] script = .ok edited ∧
      applyAll parser [.push text', .unshift list text] script = .ok edited := by
  obtain ⟨first, others, hsnippet, hchange⟩ := apply_unshift_eq_ok.mp hunshift
  have hbehind : apply parser (.push text') unshifted = .ok (unshifted.append added) :=
    apply_push_eq_ok.mpr ⟨added, hpush, rfl⟩
  have hahead : apply parser (.push text') script = .ok (script.append added) :=
    apply_push_eq_ok.mpr ⟨added, hpush, rfl⟩
  have hinside : apply parser (.unshift list text) (script.append added) =
      .ok (unshifted.append added) :=
    apply_unshift_eq_ok.mpr ⟨first, others, hsnippet, Block.changeList?_unshift_append hchange⟩
  refine ⟨unshifted.append added, ?_, ?_⟩
  · rw [applyAll, hunshift, ok_bind, applyAll, hbehind, ok_bind, applyAll]
  · rw [applyAll, hahead, ok_bind, applyAll, hinside, ok_bind, applyAll]

/-- A script without a statement. -/
def commentOnly : Block :=
  .done "// only a comment\n"

/-- In a script that holds only a comment, both statements come in front of the comment. -/
theorem unshift_push_comm_commentOnly :
    ofText sourceTree? "// only a comment\n" = .ok commentOnly ∧
      apply sourceTree? (.unshift [] "b();") commentOnly =
        .ok (.next "\n" (.plain "b();") commentOnly) ∧
      snippet sourceTree? "c();" = .ok [.plain "c();"] ∧
      ∃ edited, applyAll sourceTree? [.unshift [] "b();", .push "c();"] commentOnly = .ok edited ∧
        applyAll sourceTree? [.push "c();", .unshift [] "b();"] commentOnly = .ok edited := by
  have hread : ofText sourceTree? "// only a comment\n" = .ok commentOnly := by decide +kernel
  have hunshift : apply sourceTree? (.unshift [] "b();") commentOnly =
      .ok (.next "\n" (.plain "b();") commentOnly) := by decide +kernel
  have hsnippet : snippet sourceTree? "c();" = .ok [.plain "c();"] := by decide +kernel
  exact ⟨hread, hunshift, hsnippet, unshift_push_comm hunshift hsnippet⟩

end Retrofit.Script
