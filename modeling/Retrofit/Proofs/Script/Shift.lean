import Retrofit.Proofs.Script.Lifting

/-!
# Source trees further on in a text

If a text is put behind another one, the places of its source tree move by the length of the text in
front (`SourceNode.shift`), and nothing else changes. So what is lifted from the source tree is the
same (`Statement.ofNode?_shift`). The proof follows the recursion that lifts lists of statements,
statements and the nodes inside them.
-/

namespace Retrofit.Script

mutual

/-- The node with all places moved on. -/
def SourceNode.shift (k : Nat) : SourceNode → SourceNode
  | ⟨kind, isNamed, start, stop, children⟩ =>
    ⟨kind, isNamed, start + k, stop + k, shiftAll k children⟩

/-- The nodes with all places moved on. -/
def shiftAll (k : Nat) : List SourceNode → List SourceNode
  | [] => []
  | node :: rest => node.shift k :: shiftAll k rest

end

section

variable (k : Nat) (node : SourceNode) (nodes more : List SourceNode)

@[simp] theorem SourceNode.shift_kind : (node.shift k).kind = node.kind := by
  cases node
  rfl

@[simp] theorem SourceNode.shift_isNamed : (node.shift k).isNamed = node.isNamed := by
  cases node
  rfl

@[simp] theorem SourceNode.shift_start : (node.shift k).start = node.start + k := by
  cases node
  rfl

@[simp] theorem SourceNode.shift_stop : (node.shift k).stop = node.stop + k := by
  cases node
  rfl

@[simp] theorem SourceNode.shift_isStatement :
    (node.shift k).isStatement = node.isStatement := by
  simp [isStatement]

theorem shiftAll_eq_map : shiftAll k nodes = nodes.map (SourceNode.shift k) := by
  induction nodes with
  | nil => rfl
  | cons node rest ih => rw [shiftAll, ih, List.map_cons]

theorem shiftAll_append : shiftAll k (nodes ++ more) = shiftAll k nodes ++ shiftAll k more := by
  simp only [shiftAll_eq_map, List.map_append]

theorem shiftAll_reverse : shiftAll k nodes.reverse = (shiftAll k nodes).reverse := by
  simp only [shiftAll_eq_map, List.map_reverse]

theorem braces?_shiftAll : braces? (shiftAll k nodes) =
    (braces? nodes).map fun (opening, closing) => (opening + k, closing + k) := by
  have hkind : ∀ kind : String, (fun node : SourceNode => node.kind == kind) ∘ SourceNode.shift k =
      fun node => node.kind == kind :=
    fun kind => funext fun node => by simp
  unfold braces?
  rw [← shiftAll_reverse, shiftAll_eq_map, shiftAll_eq_map, List.find?_map, List.find?_map, hkind,
    hkind]
  cases nodes.find? (·.kind == "\x7b") with
  | none => rfl
  | some first => cases nodes.reverse.find? (·.kind == "\x7d") <;> simp

end

variable (front cs : List Char)

theorem slice?_shift (start stop : Nat) :
    slice? (front ++ cs) (start + front.length) (stop + front.length) = slice? cs start stop := by
  unfold slice?
  have hbounds : (start + front.length ≤ stop + front.length ∧
      stop + front.length ≤ (front ++ cs).length) ↔ (start ≤ stop ∧ stop ≤ cs.length) := by
    rw [List.length_append]
    omega
  have hdrop : (front ++ cs).drop (start + front.length) = cs.drop start := by
    rw [Nat.add_comm, List.drop_append, List.drop_of_length_le (Nat.le_add_right _ _),
      List.nil_append, Nat.add_sub_cancel_left]
  simp only [hbounds, hdrop, Nat.add_sub_add_right]

mutual

/-- The statements of a text behind another one are the same. -/
theorem Block.ofNodes?_shift : (nodes : List SourceNode) → (stop place : Nat) →
    Block.ofNodes? (front ++ cs) (stop + front.length) (place + front.length)
      (shiftAll front.length nodes) = Block.ofNodes? cs stop place nodes
  | [], stop, place => by
    rw [shiftAll, Block.ofNodes?, Block.ofNodes?, Nat.add_max_add_right, slice?_shift]
  | node :: rest, stop, place => by
    rw [shiftAll, Block.ofNodes?, Block.ofNodes?, SourceNode.shift_isStatement,
      SourceNode.shift_start, SourceNode.shift_stop, slice?_shift, Block.ofNodes?_shift rest,
      Block.ofNodes?_shift rest]
    have hnode := Statement.ofNode?_shift node node.start
      (fun place => (slice? (front ++ cs) place (node.stop + front.length)).map .plain)
      (fun place => (slice? cs place node.stop).map .plain)
      fun place => by rw [slice?_shift]
    rw [hnode]

/-- A statement of a text behind another one is the same. -/
theorem Statement.ofNode?_shift : (node : SourceNode) → (place : Nat) →
    (behind' behind : Nat → Option Statement) →
    (∀ p, behind' (p + front.length) = behind p) →
    Statement.ofNode? (front ++ cs) (place + front.length) behind' (node.shift front.length) =
      Statement.ofNode? cs place behind node
  | ⟨kind, isNamed, start, stop, children⟩, place, behind', behind, hbehind => by
    rw [SourceNode.shift, Statement.ofNode?, Statement.ofNode?]
    split
    · rw [braces?_shiftAll]
      cases braces? children with
      | none => exact hbehind place
      | some pair =>
        obtain ⟨opening, closing⟩ := pair
        simp only [Option.map_some, slice?_shift, Block.ofNodes?_shift children, hbehind]
    · exact Statement.ofNodes?_shift children place behind' behind hbehind

theorem Statement.ofNodes?_shift : (nodes : List SourceNode) → (place : Nat) →
    (behind' behind : Nat → Option Statement) →
    (∀ p, behind' (p + front.length) = behind p) →
    Statement.ofNodes? (front ++ cs) (place + front.length) behind'
      (shiftAll front.length nodes) = Statement.ofNodes? cs place behind nodes
  | [], place, behind', behind, hbehind => hbehind place
  | node :: rest, place, behind', behind, hbehind => by
    rw [shiftAll, Statement.ofNodes?, Statement.ofNodes?]
    exact Statement.ofNode?_shift node place _ _ fun p =>
      Statement.ofNodes?_shift rest p behind' behind hbehind

end

end Retrofit.Script
