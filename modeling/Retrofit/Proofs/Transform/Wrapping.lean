import Retrofit.Proofs.Except
import Retrofit.Transform.Apply

/-!
# Transforms that wrap a source

Five kinds of transforms put something around a source and do not look into it (`isWrapping`):
imports and exports, a text in front, a text behind, the frame of a plugin, and a default export.
What they put in front (`head`) and behind (`tail`) depends on the transform and the directory of
libraries alone, separators included.

**Theorem (`applyAll_wrapping`).** Such transforms, one after the other, never fail. Each wraps what
the ones before it have made, so the head of the last one stands in front of all others, and its
tail behind them. In between the source is untouched.
-/

namespace Retrofit.Transform

variable {vendor : String} {t : Transform} {transforms : List Transform}

/-- The transform puts something around a source without looking into it. -/
def isWrapping : Transform → Bool
  | moduleWrap _ _ | prepend _ | append _ | pluginWrap | exportDefault _ => true
  | replace _ _ | editScript _ | unsupported _ => false

/-- What a wrapping transform puts in front of a source; `vendor` is the directory of libraries. -/
def head (vendor : String) : Transform → String
  | moduleWrap imports _ =>
    String.join
      (imports.map fun i => "import " ++ i.variableName ++ " from \"" ++ i.module ++ "\";\n")
  | prepend text => text ++ "\n"
  | pluginWrap =>
    "import $ from \"" ++ Path.join vendor pluginHost ++ "\";\nvar jQuery = $, jquery = $;\n"
  | append _ | exportDefault _ | replace _ _ | editScript _ | unsupported _ => ""

/-- What a wrapping transform puts behind a source. -/
def tail : Transform → String
  | moduleWrap _ exports =>
    "\n" ++ String.join (exports.map fun e => "export " ++ e.name ++ " " ++ e.variableName ++ ";\n")
  | append text => "\n" ++ text
  | pluginWrap => "\nexport default 0;"
  | exportDefault variableName => "\nexport default " ++ variableName
  | prepend _ | replace _ _ | editScript _ | unsupported _ => ""

/-- A wrapping transform succeeds, and leaves the source between its head and its tail. -/
theorem apply_of_isWrapping (h : t.isWrapping = true) (vendor source : String) :
    t.apply vendor source = .ok (t.head vendor ++ source ++ t.tail) := by
  cases t with
  | moduleWrap imports exports =>
    refine congrArg Except.ok ?_
    rw [wrapModule, head, tail, String.append_assoc]
  | prepend text =>
    refine congrArg Except.ok ?_
    rw [head, tail, String.append_empty]
  | append text =>
    refine congrArg Except.ok ?_
    rw [head, tail, String.empty_append, String.append_assoc]
  | pluginWrap => rfl
  | exportDefault variableName =>
    refine congrArg Except.ok ?_
    rw [head, tail, String.empty_append, String.append_assoc]
  | replace pattern template => cases h
  | editScript edits => cases h
  | unsupported kind => cases h

/-- **Wrapping keeps the source.** Wrapping transforms of any number and order succeed. The result
is the source between all heads, the last one first, and all tails, the last one last. -/
theorem applyAll_wrapping (vendor : String) (h : ∀ t ∈ transforms, t.isWrapping = true)
    (source : String) :
    applyAll vendor transforms source =
      .ok (String.join (transforms.reverse.map (head vendor)) ++ source ++
        String.join (transforms.map tail)) := by
  -- The source of the induction is what the transforms before have made.
  induction transforms generalizing source with
  | nil =>
    have hnone : applyAll vendor [] source = .ok source := rfl
    simp [hnone]
  | cons t rest ih =>
    obtain ⟨ht, hrest⟩ := List.forall_mem_cons.mp h
    have hheads : String.join ((t :: rest).reverse.map (head vendor)) =
        String.join (rest.reverse.map (head vendor)) ++ t.head vendor := by
      simp [String.join_append]
    have htails : String.join ((t :: rest).map tail) = t.tail ++ String.join (rest.map tail) := by
      rw [List.map_cons, String.join_cons]
    rw [applyAll_cons, apply_of_isWrapping ht vendor source, ok_bind, ih hrest, hheads, htails]
    simp only [String.append_assoc]

/-- All five kinds, a plugin that is wrapped as a module once more. -/
theorem applyAll_wrapping_twice :
    (∀ t ∈ [pluginWrap, prepend "/* a */", append "b();",
      moduleWrap [⟨"$", "jquery"⟩] [⟨"default", "a"⟩],
        exportDefault "a"], t.isWrapping = true) ∧
      applyAll "vendor" [pluginWrap, prepend "/* a */", append "b();",
          moduleWrap [⟨"$", "jquery"⟩] [⟨"default", "a"⟩], exportDefault "a"] "$.a = 1;" =
        .ok
          ("import $ from \"jquery\";\n/* a */\nimport $ from \"vendor/jquery\";\n"
          ++ "var jQuery = $, jquery = $;\n"
          ++ "$.a = 1;" ++ "\nexport default 0;\nb();\nexport default a;\n\nexport default a") := by
  have hwrapping : ∀ t ∈ [pluginWrap, prepend "/* a */", append "b();",
      moduleWrap [⟨"$", "jquery"⟩] [⟨"default", "a"⟩], exportDefault "a"], t.isWrapping = true := by
    decide
  exact ⟨hwrapping, (applyAll_wrapping "vendor" hwrapping "$.a = 1;").trans
    (congrArg Except.ok (by decide))⟩

end Retrofit.Transform
