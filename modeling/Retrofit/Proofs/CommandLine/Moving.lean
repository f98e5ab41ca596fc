import Mathlib.Logic.Relation
import Retrofit.Proofs.CommandLine.Meaning

/-!
# Options in other places

**Moves.** An option is taken away with its value and put in at another place, in front of the
command or behind it (`Moves`). Where it is taken away and where it is put in, an argument must
begin a part of its own: no option may wait for a value there, and no two hyphens may stand before
it (`IsOpen`).

**Theorem (`ofArguments_of_moves`).** If each option is given once, any number of moves leaves the
meaning of what is accepted as it is. One move keeps the other arguments and changes the order of
the options (`Moves.eq`). The command depends on the former alone, and the order of different
options does not count.
-/

namespace Retrofit

variable {argument : String} {arguments moved front back rest : List String}

namespace CommandLine

/-! ## Fronts -/

/-- Behind such a front an argument begins a part: no option waits for its value, and no two hyphens
make words of what follows. -/
def IsOpen (front : List String) : Prop :=
  ∀ argument ∈ others front,
    Token.ofText argument ≠ .wordsFollow ∧ GlobalOption.awaitedBy? argument = none

instance (front : List String) : Decidable (IsOpen front) :=
  inferInstanceAs (Decidable (∀ argument ∈ others front, _))

theorem parts_cons (hfollow : Token.ofText argument ≠ .wordsFollow)
    (hvalue : GlobalOption.awaitedBy? argument = none) (rest : List String) :
    parts (argument :: rest) = .ofArgument argument :: parts rest := by
  cases rest with
  | nil => rfl
  | cons next rest => rw [parts, if_neg hfollow, GlobalOption.ofArguments?, hvalue]

/-- The first argument of a front is a part if it is not the first half of one. -/
theorem alone_of_isOpen (h : IsOpen (argument :: rest))
    (hparts : ∃ ps, parts (argument :: rest) = .ofArgument argument :: ps) :
    Token.ofText argument ≠ .wordsFollow ∧ GlobalOption.awaitedBy? argument = none := by
  obtain ⟨ps, hparts⟩ := hparts
  cases ho : GlobalOption.ofArgument? argument with
  | some o => exact GlobalOption.alone_of_ofArgument? ho
  | none =>
    refine h argument ?_
    rw [others, hparts, Part.ofArgument, ho]
    exact List.mem_cons_self

/-- An open front can be cut off. -/
theorem parts_append (h : IsOpen front) (back : List String) :
    parts (front ++ back) = parts front ++ parts back := by
  induction front using parts.induct with
  | case1 => rfl
  | case2 argument =>
    obtain ⟨hfollow, hvalue⟩ := alone_of_isOpen h ⟨_, rfl⟩
    exact parts_cons hfollow hvalue back
  | case3 argument next rest htoken =>
    refine absurd htoken (h argument ?_).1
    rw [others, parts, if_pos htoken]
    exact List.mem_cons_self
  | case4 argument next rest htoken o ho ih =>
    have hparts : ∀ rest, parts (argument :: next :: rest) = .option o :: parts rest :=
      fun rest => by
      rw [parts, if_neg htoken, ho]
    have hrest : IsOpen rest := by
      rwa [IsOpen, others, hparts] at h
    rw [List.cons_append, List.cons_append, hparts, hparts, ih hrest, List.cons_append]
  | case5 argument next rest htoken hnone ih =>
    have hparts : parts (argument :: next :: rest) =
        .ofArgument argument :: parts (next :: rest) := by
      rw [parts, if_neg htoken, hnone]
    have hrest : IsOpen (next :: rest) := by
      intro argument' hargument'
      obtain ⟨p, hp, hother⟩ := List.mem_filterMap.mp hargument'
      refine h argument' (List.mem_filterMap.mpr ⟨p, ?_, hother⟩)
      rw [hparts]
      exact List.mem_cons_of_mem _ hp
    obtain ⟨hfollow, hvalue⟩ := alone_of_isOpen h ⟨_, hparts⟩
    rw [List.cons_append, parts_cons hfollow hvalue, ih hrest, parts_cons hfollow hvalue,
      List.cons_append]

theorem given_append (h : IsOpen front) (back : List String) :
    given (front ++ back) = given front ++ given back := by
  rw [given, parts_append h, List.filterMap_append, given, given]

theorem others_append (h : IsOpen front) (back : List String) :
    others (front ++ back) = others front ++ others back := by
  rw [others, parts_append h, List.filterMap_append, others, others]

theorem isOpen_append (h : IsOpen front) : IsOpen (front ++ back) ↔ IsOpen back := by
  rw [IsOpen, others_append h, List.forall_mem_append]
  exact and_iff_right h

/-! ## Moves -/

/-- One option is moved, with its value: past the arguments in `middle`, away from the front or
towards it. -/
inductive Moves : List String → List String → Prop where
  | back (front text middle back : List String) (o : GlobalOption) :
      parts text = [.option o] → IsOpen front → IsOpen (front ++ middle) →
      Moves (front ++ text ++ middle ++ back) (front ++ middle ++ text ++ back)
  | forth (front text middle back : List String) (o : GlobalOption) :
      parts text = [.option o] → IsOpen front → IsOpen (front ++ middle) →
      Moves (front ++ middle ++ text ++ back) (front ++ text ++ middle ++ back)

/-- A move changes the order of the options, and nothing else. -/
theorem Moves.eq (h : Moves arguments moved) :
    (given arguments).Perm (given moved) ∧ others arguments = others moved := by
  have hboth :
      ∀ {front text middle back : List String} {o : GlobalOption}, parts text = [.option o] →
      IsOpen front → IsOpen (front ++ middle) →
      (given (front ++ text ++ middle ++ back)).Perm (given (front ++ middle ++ text ++ back)) ∧
        others (front ++ text ++ middle ++ back) = others (front ++ middle ++ text ++ back) := by
    intro front text middle back o htext hfront hmiddle
    have hothers : others text = [] := by
      rw [others, htext]
      rfl
    have hopen : IsOpen text := by
      rw [IsOpen, hothers]
      exact List.forall_mem_nil _
    have hmiddle' : IsOpen middle := (isOpen_append hfront).mp hmiddle
    simp only [List.append_assoc, given_append hfront, given_append hopen, given_append hmiddle',
      others_append hfront, others_append hopen, others_append hmiddle', hothers,
        List.nil_append, and_true]
    exact (List.perm_append_comm_assoc ..).append_left _
  cases h with
  | back front text middle back o htext hfront hmiddle => exact hboth htext hfront hmiddle
  | forth front text middle back o htext hfront hmiddle =>
    exact ⟨(hboth htext hfront hmiddle).1.symm, (hboth htext hfront hmiddle).2.symm⟩

theorem eq_of_moves (h : Relation.ReflTransGen Moves arguments moved) :
    (given arguments).Perm (given moved) ∧ others arguments = others moved := by
  induction h with
  | refl => exact ⟨.refl _, rfl⟩
  | tail _ hlast ih => exact ⟨ih.1.trans hlast.eq.1, ih.2.trans hlast.eq.2⟩

end CommandLine

namespace Invocation

variable {environment : Option String} {arguments moved : List String} {invocation : Invocation}

/-- What is accepted says the same with the options in other places. -/
theorem ofArguments_of_moves (h : ofArguments environment arguments = .ok invocation)
    (honce : ((CommandLine.given arguments).map GlobalOption.name).Nodup)
    (hmoved : Relation.ReflTransGen CommandLine.Moves arguments moved) :
    ofArguments environment moved = .ok invocation := by
  obtain ⟨hperm, hothers⟩ := CommandLine.eq_of_moves hmoved
  obtain ⟨hallowed, hcommand, hoptions⟩ := eq_of_ofArguments h
  rw [ofArguments_of_once ((hperm.map _).nodup_iff.mp honce)
    (fun o ho => hallowed o (hperm.mem_iff.mpr ho))
    (hothers ▸ hcommand), ← GlobalOption.foldl_give_perm hperm honce, ← hoptions]

end Invocation

end Retrofit
