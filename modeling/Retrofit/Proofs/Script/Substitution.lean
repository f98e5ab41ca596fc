import Retrofit.Proofs.Script.Address

/-!
# Copies of nodes in a snippet

**Theorem (`copies_of_apply`).** The substitutions of an assignment act on its snippet one after
the other (`Copies`). Each one puts a node of the script, as it was before the edit, in place of the
node of the snippet at its target. So the text of the one takes the place of the text of the other,
and what stands around it stays. The statement that is assigned then prints as the first statement
of the snippet that is left.

**Theorem (`apply_assign_self`).** If the last substitution copies a statement of the script to the
front of the snippet, the assignment to that very statement gives back the script.

A node stands where it was put (`Block.node?_of_put?`), and a node that is put where it stands
changes nothing (`Block.put?_self`). The gap in front of a statement is no part of the node, and is
neither copied nor replaced.
-/

namespace Retrofit.Script

variable {script edited block given changed copy after : Block} {statement whole : Statement}
  {node : Node} {address : Address} {substitutions earlier later : List Substitution}

/-! ## Putting a node somewhere -/

/-- The text of a node. The gap in front of a statement is no part of it. -/
def Node.text : Node → String
  | .statement whole => whole.text
  | .list block => block.text

namespace Block

/-- The block in which a node has taken the place of the one of its kind at an address. -/
def put? (node : Node) (address : Address) (block : Block) : Option Block :=
  match node with
  | .statement whole => block.changeStatement? (fun _ => some whole) address
  | .list list => block.changeList? (fun _ => some list) address

theorem node?_eq_statement_iff :
    block.node? address = some (.statement whole) ↔ block.statementAt? address = some whole := by
  unfold node?
  cases hkind : address.isStatement with
  | true => simp [Option.map_eq_some_iff]
  | false => simp [Option.map_eq_some_iff, (eq_none_of_kind address block).2 hkind]

theorem node?_eq_list_iff {list : Block} :
    block.node? address = some (.list list) ↔ block.list? address = some list := by
  unfold node?
  cases hkind : address.isStatement with
  | true => simp [Option.map_eq_some_iff, (eq_none_of_kind address block).1 hkind]
  | false => simp [Option.map_eq_some_iff]

/-- A node is found where it was put. -/
theorem node?_of_put? (h : block.put? node address = some edited) :
    edited.node? address = some node := by
  rw [node?_eq_descend, ← List.append_nil address]
  cases node with
  | statement whole =>
    obtain ⟨old, new, hnew, hchanged⟩ := changedAt_of_changeStatement? h
    cases hnew
    exact hchanged.after []
  | list list =>
    obtain ⟨old, new, hnew, hchanged⟩ := changedAt_of_changeList? h
    cases hnew
    exact hchanged.after []

/-- The text of a node takes the place of the text of the one before. -/
theorem put?_frame (h : block.put? node address = some edited) :
    ∃ frame old, block.frame? address = some frame ∧ block.node? address = some old ∧
      block.text = frame.fill old.text ∧ edited.text = frame.fill node.text := by
  cases node with
  | statement whole =>
    obtain ⟨frame, old, new, hframe, hold, hnew, htext, htext'⟩ := changeStatement?_frame h
    cases hnew
    exact ⟨frame, .statement old, hframe, node?_eq_statement_iff.mpr hold, htext, htext'⟩
  | list list =>
    obtain ⟨frame, old, new, hframe, hold, hnew, htext, htext'⟩ := changeList?_frame h
    cases hnew
    exact ⟨frame, .list old, hframe, node?_eq_list_iff.mpr hold, htext, htext'⟩

end Block

/-! ## What stands there already -/

theorem Block.change?_of_eq {f : Statement → Option Statement} :
    ∀ {i : Nat} {block : Block}, block.statements[i]? = some statement →
      f statement = some statement → block.change? f i = some block
  | 0, .next gap first rest, h, hf => by
    cases h
    rw [change?, hf, Option.map_some]
  | i + 1, .next gap first rest, h, hf => by
    have hrest : rest.change? f i = some rest := change?_of_eq h hf
    rw [change?, hrest, Option.map_some]

theorem Statement.change?_of_eq {f : Block → Option Block} :
    ∀ {i : Nat} {whole : Statement}, whole.blocks[i]? = some block → f block = some block →
      whole.change? f i = some whole
  | 0, .block before body rest, h, hf => by
    cases h
    rw [change?, hf, Option.map_some]
  | i + 1, .block before body rest, h, hf => by
    have hrest : rest.change? f i = some rest := change?_of_eq h hf
    rw [change?, hrest, Option.map_some]

namespace Block

theorem changeList?_self : ∀ {address : Address} {block list : Block},
    block.list? address = some list → block.changeList? (fun _ => some list) address = some block
  | [], _, _, h => h.symm
  | s :: b :: address, block, list, h => by
    obtain ⟨statement, hstatement, h⟩ := Option.bind_eq_some_iff.mp h
    obtain ⟨inner, hinner, h⟩ := Option.bind_eq_some_iff.mp h
    exact change?_of_eq hstatement (Statement.change?_of_eq hinner (changeList?_self h))

theorem changeStatement?_self : ∀ {address : Address} {block : Block},
    block.statementAt? address = some whole →
      block.changeStatement? (fun _ => some whole) address = some block
  | [_], _, h => change?_of_eq h rfl
  | s :: b :: address, block, h => by
    obtain ⟨statement, hstatement, h⟩ := Option.bind_eq_some_iff.mp h
    obtain ⟨inner, hinner, h⟩ := Option.bind_eq_some_iff.mp h
    exact change?_of_eq hstatement (Statement.change?_of_eq hinner (changeStatement?_self h))

/-- A node that is put where it stands changes nothing. -/
theorem put?_self (h : block.node? address = some node) : block.put? node address = some block := by
  cases node with
  | statement whole => exact changeStatement?_self (node?_eq_statement_iff.mp h)
  | list list => exact changeList?_self (node?_eq_list_iff.mp h)

end Block

/-! ## Substitutions -/

/-- A substitution puts a node of the script in the snippet, and leaves the script alone. -/
theorem runOn_substitute_eq_ok {s : Substitution} :
    (substitute s given).runOn script = (.ok copy, after) ↔
      s.target.isStatement = s.source.isStatement ∧ ∃ node, script.node? s.source = some node ∧
        given.put? node s.target = some copy ∧ after = script := by
  unfold substitute
  by_cases hkind : s.target.isStatement = s.source.isStatement
  · rw [if_neg (by simp [hkind]), Block.node?]
    split <;>
      simp [hkind, Editing.runOn_bind_eq_ok, Editing.runOn_look_eq_ok, Editing.runOn_require_eq_ok,
        Block.put?, and_assoc]
  · simp [hkind]

/-- What substitutions, one after the other, make of a snippet. -/
inductive Copies (script : Block) : List Substitution → Block → Block → Prop where
  | none (given : Block) : Copies script [] given given
  /-- The first one puts a node of the script in place of one of its kind, and the text of that one
  is the only part of the text of the snippet that changes. -/
  | next {s : Substitution} {rest : List Substitution} {given changed copy : Block}
      {node old : Node} {frame : Frame} (hkind : s.target.isStatement = s.source.isStatement)
      (hsource : script.node? s.source = some node)
      (hput : given.put? node s.target = some changed)
      (hframe : given.frame? s.target = some frame) (hold : given.node? s.target = some old)
      (htext : given.text = frame.fill old.text) (htext' : changed.text = frame.fill node.text)
      (hrest : Copies script rest changed copy) : Copies script (s :: rest) given copy

namespace Copies

theorem of_put? {s : Substitution} {rest : List Substitution}
    (hkind : s.target.isStatement = s.source.isStatement)
    (hsource : script.node? s.source = some node) (hput : given.put? node s.target = some changed)
    (hrest : Copies script rest changed copy) : Copies script (s :: rest) given copy := by
  obtain ⟨frame, old, hframe, hold, htext, htext'⟩ := Block.put?_frame hput
  exact .next hkind hsource hput hframe hold htext htext' hrest

theorem append (h : Copies script earlier given changed) (h' : Copies script later changed copy) :
    Copies script (earlier ++ later) given copy := by
  induction h with
  | none given => exact h'
  | next hkind hsource hput hframe hold htext htext' _ ih =>
    exact .next hkind hsource hput hframe hold htext htext' (ih h')

end Copies

/-- Substitutions are carried out in order, each on what those in front of it have left. -/
theorem runOn_substituteAll_eq_ok :
    (substituteAll substitutions given).runOn script = (.ok copy, after) ↔
      Copies script substitutions given copy ∧ after = script := by
  induction substitutions generalizing given with
  | nil =>
    rw [substituteAll, Editing.runOn_pure, Prod.mk.injEq, Except.ok.injEq]
    constructor
    · rintro ⟨rfl, rfl⟩
      exact ⟨.none given, rfl⟩
    · rintro ⟨h, rfl⟩
      cases h
      exact ⟨rfl, rfl⟩
  | cons s rest ih =>
    rw [substituteAll, Editing.runOn_bind_eq_ok]
    constructor
    · rintro ⟨changed, between, hfirst, hrest⟩
      obtain ⟨hkind, node, hsource, hput, rfl⟩ := runOn_substitute_eq_ok.mp hfirst
      obtain ⟨hrest, rfl⟩ := ih.mp hrest
      exact ⟨.of_put? hkind hsource hput hrest, rfl⟩
    · rintro ⟨h, rfl⟩
      cases h with
      | next hkind hsource hput _ _ _ _ hrest =>
        exact ⟨_, _, runOn_substitute_eq_ok.mpr ⟨hkind, _, hsource, hput, rfl⟩, ih.mpr ⟨hrest, rfl⟩⟩

/-! ## Assignments -/

variable {text : String} {added : List Statement} {parser : Parser}

/-- What an assignment makes of a script. -/
inductive Assigned (parser : Parser) (script edited : Block) (address : Address) (text : String)
    (substitutions : List Substitution) : Prop where
  /-- The substitutions act on the statements of the snippet, and the first one that is left takes
  the place of the statement. Its text is the only part of the text of the script that changes. -/
  | first {added : List Statement} {copy : Block} {first old : Statement} {frame : Frame}
      (hsnippet : snippet parser text = .ok added)
      (hcopies : Copies script substitutions (.ofStatements added) copy)
      (hfirst : copy.head? = some first) (hassigned : edited.statementAt? address = some first)
      (hframe : script.frame? address = some frame) (hold : script.statementAt? address = some old)
      (htext : script.text = frame.fill old.text) (htext' : edited.text = frame.fill first.text) :
      Assigned parser script edited address text substitutions

/-- **Substitutions copy from the script as it was before the edit.** -/
theorem copies_of_apply
    (h : apply parser (.assign address text substitutions) script = .ok edited) :
    Assigned parser script edited address text substitutions := by
  obtain ⟨-, added, copy, first, hsnippet, hcopy, hfirst, hchange⟩ := apply_assign_eq_ok.mp h
  obtain ⟨hcopies, -⟩ := runOn_substituteAll_eq_ok.mp hcopy
  have hput : script.put? (.statement first) address = some edited := hchange
  have hassigned := Block.node?_eq_statement_iff.mp (Block.node?_of_put? hput)
  obtain ⟨frame, old, new, hframe, hold, hnew, htext, htext'⟩ :=
    Block.changeStatement?_frame hchange
  cases hnew
  exact .first hsnippet hcopies hfirst hassigned hframe hold htext htext'

/-- The second substitution finds its target in what the first one has copied, and it copies the
very statement that is assigned. -/
theorem copies_of_apply_commentedBody :
    let text := "if (b) \x7b c(); \x7d else \x7b\x7d"
    let substitutions : List Substitution := [⟨[0, 1], [0, 0]⟩, ⟨[0, 1, 0], [0]⟩]
    ∃ edited, apply sourceTree? (.assign [0] text substitutions) commentedBody = .ok edited ∧
      edited.text = "if (b) \x7b c(); \x7d else \x7b\n    // setup\n    " ++
        "(function () \x7b\n    // setup\n    a();\n\x7d)();\n\x7d\n" ∧
      Assigned sourceTree? commentedBody edited [0] text substitutions := by
  intro text substitutions
  have hedited : (apply sourceTree? (.assign [0] text substitutions) commentedBody).map Block.text =
      .ok ("if (b) \x7b c(); \x7d else \x7b\n    // setup\n    " ++
        "(function () \x7b\n    // setup\n    a();\n\x7d)();\n\x7d\n") := by
    decide +kernel
  cases happly : apply sourceTree? (.assign [0] text substitutions) commentedBody with
  | error error =>
    rw [happly] at hedited
    cases hedited
  | ok edited =>
    rw [happly] at hedited
    exact ⟨edited, rfl, Except.ok.inj hedited, copies_of_apply happly⟩

/-- **A statement that is assigned to itself stays as it is**, whatever the snippet was before. -/
theorem apply_assign_self (hwhole : script.statementAt? address = some whole)
    (hsnippet : snippet parser text = .ok added)
    (hearlier : ((substituteAll earlier (.ofStatements added)).runOn script).1 = .ok copy)
    (hcopy : copy.statements ≠ []) :
    apply parser (.assign address text (earlier ++ [⟨[0], address⟩])) script = .ok script := by
  have hnode := Block.node?_eq_statement_iff.mpr hwhole
  obtain ⟨hkind, -⟩ := Block.exists_statementAt?_iff.mp ⟨whole, hwhole⟩
  obtain ⟨hcopies, -⟩ := runOn_substituteAll_eq_ok.mp (Prod.ext hearlier rfl)
  cases copy with
  | done trailing => exact absurd rfl hcopy
  | next gap first rest =>
    have hput : (Block.next gap first rest).put? (.statement whole) [0] =
        some (.next gap whole rest) := rfl
    have hlast : Copies script [⟨[0], address⟩] (.next gap first rest) (.next gap whole rest) :=
      .of_put? hkind.symm hnode hput (.none _)
    exact apply_assign_eq_ok.mpr ⟨hkind, added, _, whole, hsnippet,
      runOn_substituteAll_eq_ok.mpr ⟨hcopies.append hlast, rfl⟩, rfl, Block.put?_self hnode⟩

/-- The function body has taken the place of the snippet's own before the statement in it is copied
to the front. -/
theorem apply_assign_self_commentedBody :
    ∃ added copy, snippet sourceTree? "if (b) \x7b c(); \x7d" = .ok added ∧
      ((substituteAll [⟨[0, 0], [0, 0]⟩] (.ofStatements added)).runOn commentedBody).1 = .ok copy ∧
      copy.text = "if (b) \x7b\n    // setup\n    a();\n\x7d" ∧
      apply sourceTree?
        (.assign [0, 0, 0] "if (b) \x7b c(); \x7d" [⟨[0, 0], [0, 0]⟩, ⟨[0], [0, 0, 0]⟩])
        commentedBody = .ok commentedBody := by
  have hwhole : commentedBody.statementAt? [0, 0, 0] = some (.plain "a();") := rfl
  have hsnippet : snippet sourceTree? "if (b) \x7b c(); \x7d" =
      .ok [.block "if (b) \x7b" (.next " " (.plain "c();") (.done " ")) (.plain "\x7d")] := by
    decide +kernel
  obtain ⟨copy, hearlier, htext, hcopy⟩ : ∃ copy, ((substituteAll [⟨[0, 0], [0, 0]⟩] (.ofStatements
      [.block "if (b) \x7b" (.next " " (.plain "c();") (.done " ")) (.plain "\x7d")])).runOn
        commentedBody).1 = .ok copy ∧ copy.text = "if (b) \x7b\n    // setup\n    a();\n\x7d" ∧
      copy.statements ≠ [] :=
    ⟨_, rfl, by decide +kernel, by decide +kernel⟩
  have hsame := apply_assign_self hwhole hsnippet hearlier hcopy
  exact ⟨_, copy, hsnippet, hearlier, htext, hsame⟩

end Retrofit.Script
