import Retrofit.Proofs.Script.Editing

/-!
# What an edit does to the text

**Theorem (`textEdit_of_apply`).** An edit that succeeds changes the text of a script only where it
says. An insertion at the front of a list puts white space, the statement and at most one line break
where the list begins. Statements that are appended stand each behind a line break, in front of the
text that ends the script. A replaced statement is the only part of the text that changes, so the
gap in front of it stays.

A `Frame` is what stands around a part of a text. Each level of an address has one, of a statement
in its list or of a block in its statement, and the frame of a node is composed of those on the way
down (`Block.frame?`). A change at one level keeps the frame of that level (`Block.change?_frame`,
`Statement.change?_frame`), so a change at an address keeps the frame of the address, by induction
on the address (`changeList?_frame`, `changeStatement?_frame`).
-/

namespace Retrofit.Script

/-! ## Frames -/

/-- The texts in front of and behind a part of a text. -/
structure Frame where
  front : String
  behind : String

namespace Frame

/-- The text in which the part has the given text. -/
def fill (frame : Frame) (text : String) : String :=
  frame.front ++ (text ++ frame.behind)

/-- The frame with more text in front. -/
def after (text : String) (frame : Frame) : Frame :=
  { frame with front := text ++ frame.front }

/-- The frame of a part of a part. -/
def comp (outer inner : Frame) : Frame :=
  ⟨outer.front ++ inner.front, inner.behind ++ outer.behind⟩

@[simp] theorem fill_empty (text : String) : (Frame.mk "" "").fill text = text := by
  simp [fill]

@[simp] theorem fill_after (front : String) (frame : Frame) (text : String) :
    (frame.after front).fill text = front ++ frame.fill text := by
  simp only [fill, after, String.append_assoc]

@[simp] theorem fill_comp (outer inner : Frame) (text : String) :
    (outer.comp inner).fill text = outer.fill (inner.fill text) := by
  simp only [fill, comp, String.append_assoc]

end Frame

/-- The frame of the statement with an index in the text of a list. -/
def Block.frameAt? : Nat → Block → Option Frame
  | _, .done _ => none
  | 0, .next gap _ rest => some ⟨gap, rest.text⟩
  | i + 1, .next gap statement rest => (rest.frameAt? i).map (Frame.after (gap ++ statement.text))

/-- The frame of the block with an index in the text of a statement. -/
def Statement.frameAt? : Nat → Statement → Option Frame
  | _, .plain _ => none
  | 0, .block before _ rest => some ⟨before, rest.text⟩
  | i + 1, .block before body rest => (rest.frameAt? i).map (Frame.after (before ++ body.text))

namespace Block

/-- A block of a statement of a list, and its frame in the text of the list. -/
def inner? (s b : Nat) (block : Block) : Option (Frame × Block) := do
  let statement ← block.statements[s]?
  let inner ← statement.blocks[b]?
  return ((← block.frameAt? s).comp (← statement.frameAt? b), inner)

/-- The frame of the node at an address in the text of a script. -/
def frame? : Address → Block → Option Frame
  | [], _ => some ⟨"", ""⟩
  | [s], block => block.frameAt? s
  | s :: b :: address, block => do
    let (frame, inner) ← block.inner? s b
    return frame.comp (← inner.frame? address)

end Block

variable {script edited block : Block} {statement changed : Statement} {address : Address}

/-! ## Changes keep the frame -/

/-- A change of a statement keeps what stands around it. -/
theorem Block.change?_frame {f : Statement → Option Statement} {i : Nat}
    (h : block.change? f i = some edited) :
    ∃ frame old new, block.frameAt? i = some frame ∧ block.statements[i]? = some old ∧
      f old = some new ∧ block.text = frame.fill old.text ∧ edited.text = frame.fill new.text := by
  induction i generalizing block edited with
  | zero =>
    cases block with
    | done trailing => simp [change?] at h
    | next gap old rest =>
      obtain ⟨new, hnew, rfl⟩ := Option.map_eq_some_iff.mp h
      exact ⟨⟨gap, rest.text⟩, old, new, rfl, rfl, hnew, rfl, rfl⟩
  | succ i ih =>
    cases block with
    | done trailing => simp [change?] at h
    | next gap first rest =>
      obtain ⟨rest', hrest, rfl⟩ := Option.map_eq_some_iff.mp h
      obtain ⟨frame, old, new, hframe, hold, hnew, htext, htext'⟩ := ih hrest
      refine ⟨frame.after (gap ++ first.text), old, new, ?_, hold, hnew, ?_, ?_⟩
      · rw [frameAt?, hframe, Option.map_some]
      · rw [Block.text, htext, Frame.fill_after, String.append_assoc]
      · rw [Block.text, htext', Frame.fill_after, String.append_assoc]

/-- A change of a block keeps what stands around it. -/
theorem Statement.change?_frame {f : Block → Option Block} {i : Nat}
    (h : statement.change? f i = some changed) :
    ∃ frame old new, statement.frameAt? i = some frame ∧ statement.blocks[i]? = some old ∧
      f old = some new ∧ statement.text = frame.fill old.text ∧
      changed.text = frame.fill new.text := by
  induction i generalizing statement changed with
  | zero =>
    cases statement with
    | plain text => simp [change?] at h
    | block before old rest =>
      obtain ⟨new, hnew, rfl⟩ := Option.map_eq_some_iff.mp h
      exact ⟨⟨before, rest.text⟩, old, new, rfl, rfl, hnew, rfl, rfl⟩
  | succ i ih =>
    cases statement with
    | plain text => simp [change?] at h
    | block before body rest =>
      obtain ⟨rest', hrest, rfl⟩ := Option.map_eq_some_iff.mp h
      obtain ⟨frame, old, new, hframe, hold, hnew, htext, htext'⟩ := ih hrest
      refine ⟨frame.after (before ++ body.text), old, new, ?_, hold, hnew, ?_, ?_⟩
      · rw [frameAt?, hframe, Option.map_some]
      · rw [Statement.text, htext, Frame.fill_after, String.append_assoc]
      · rw [Statement.text, htext', Frame.fill_after, String.append_assoc]

/-- A change of a block of a statement keeps what stands around the block in the list. -/
theorem Block.change?_inner {f : Block → Option Block} {s b : Nat}
    (h : block.change? (fun statement => statement.change? f b) s = some edited) :
    ∃ frame old new, block.inner? s b = some (frame, old) ∧ f old = some new ∧
      block.text = frame.fill old.text ∧ edited.text = frame.fill new.text := by
  obtain ⟨outer, statement, statement', houter, hstatement, hchange, htext, htext'⟩ :=
    Block.change?_frame h
  obtain ⟨inner, old, new, hinner, hold, hnew, hstext, hstext'⟩ := Statement.change?_frame hchange
  refine ⟨outer.comp inner, old, new, ?_, hnew, ?_, ?_⟩
  · simp [inner?, hstatement, hold, houter, hinner]
  · rw [Frame.fill_comp, ← hstext, htext]
  · rw [Frame.fill_comp, ← hstext', htext']

namespace Block

variable {frame : Frame} {inner : Block} {s b : Nat}

theorem frame?_of_inner? (h : block.inner? s b = some (frame, inner)) (address : Address) :
    block.frame? (s :: b :: address) = (inner.frame? address).map frame.comp := by
  cases hinner : inner.frame? address <;> simp [frame?, h, hinner]

theorem exists_of_inner? (h : block.inner? s b = some (frame, inner)) :
    ∃ statement, block.statements[s]? = some statement ∧ statement.blocks[b]? = some inner := by
  simp only [inner?, Option.bind_eq_bind, Option.bind_eq_some_iff, Option.pure_def,
    Option.some.injEq, Prod.mk.injEq] at h
  obtain ⟨statement, hstatement, inner, hinner, _, _, _, _, _, rfl⟩ := h
  exact ⟨statement, hstatement, hinner⟩

theorem list?_of_inner? (h : block.inner? s b = some (frame, inner)) (address : Address) :
    block.list? (s :: b :: address) = inner.list? address := by
  obtain ⟨statement, hstatement, hinner⟩ := exists_of_inner? h
  simp [list?, hstatement, hinner]

theorem statementAt?_of_inner? (h : block.inner? s b = some (frame, inner)) (address : Address) :
    block.statementAt? (s :: b :: address) = inner.statementAt? address := by
  obtain ⟨statement, hstatement, hinner⟩ := exists_of_inner? h
  simp [statementAt?, hstatement, hinner]

/-- A change of the list at an address keeps what stands around the list. -/
theorem changeList?_frame {f : Block → Option Block} :
    ∀ {address : Address} {block edited : Block}, block.changeList? f address = some edited →
      ∃ frame old new, block.frame? address = some frame ∧ block.list? address = some old ∧
        f old = some new ∧ block.text = frame.fill old.text ∧ edited.text = frame.fill new.text
  | [], block, edited, h => by
    refine ⟨⟨"", ""⟩, block, edited, rfl, rfl, h, ?_, ?_⟩
    · rw [Frame.fill_empty]
    · rw [Frame.fill_empty]
  | [_], _, _, h => by simp [changeList?] at h
  | s :: b :: address, block, edited, h => by
    obtain ⟨outer, inner, inner', hinner, hchange, htext, htext'⟩ := change?_inner h
    obtain ⟨frame, old, new, hframe, hold, hnew, hinnertext, hinnertext'⟩ :=
      changeList?_frame hchange
    refine ⟨outer.comp frame, old, new, ?_, ?_, hnew, ?_, ?_⟩
    · rw [frame?_of_inner? hinner, hframe, Option.map_some]
    · rw [list?_of_inner? hinner, hold]
    · rw [Frame.fill_comp, ← hinnertext, htext]
    · rw [Frame.fill_comp, ← hinnertext', htext']

/-- A change of the statement at an address keeps what stands around the statement. -/
theorem changeStatement?_frame {f : Statement → Option Statement} :
    ∀ {address : Address} {block edited : Block}, block.changeStatement? f address = some edited →
      ∃ frame old new, block.frame? address = some frame ∧ block.statementAt? address = some old ∧
        f old = some new ∧ block.text = frame.fill old.text ∧ edited.text = frame.fill new.text
  | [], _, _, h => by simp [changeStatement?] at h
  | [_], _, _, h => change?_frame h
  | s :: b :: address, block, edited, h => by
    obtain ⟨outer, inner, inner', hinner, hchange, htext, htext'⟩ := change?_inner h
    obtain ⟨frame, old, new, hframe, hold, hnew, hinnertext, hinnertext'⟩ :=
      changeStatement?_frame hchange
    refine ⟨outer.comp frame, old, new, ?_, ?_, hnew, ?_, ?_⟩
    · rw [frame?_of_inner? hinner, hframe, Option.map_some]
    · rw [statementAt?_of_inner? hinner, hold]
    · rw [Frame.fill_comp, ← hinnertext, htext]
    · rw [Frame.fill_comp, ← hinnertext', htext']

end Block

/-! ## Insertions -/

/-- The gaps of an inserted statement and of the one behind it. -/
theorem openGap_eq (gap : String) :
    ∃ blank newline, (∀ c ∈ blank.toList, Text.isBlank c) ∧ (newline = "" ∨ newline = "\n") ∧
      openGap gap = (blank, newline ++ gap) := by
  have hlead : ∀ c ∈ (Text.splitLead gap.toList).1, Text.isBlank c :=
    List.all_eq_true.mp List.all_takeWhile
  have hblank : ∀ c ∈ (String.ofList (Text.splitLead gap.toList).1).toList, Text.isBlank c := by
    rwa [String.toList_ofList]
  unfold openGap
  dsimp only
  split
  · -- Without a comment the gap is its own leading white space.
    rename_i hcomments
    have happend := Text.splitLead_append gap.toList
    rw [List.isEmpty_iff.mp hcomments, List.append_nil] at happend
    refine ⟨gap, "", ?_, .inl rfl, by rw [String.empty_append]⟩
    rwa [← happend]
  · split
    · exact ⟨_, "", hblank, .inl rfl, by rw [String.empty_append]⟩
    · exact ⟨_, "\n", hblank, .inr rfl, rfl⟩

/-- A statement in front of a list stands between white space and at most one line break. -/
theorem Block.text_unshift (added : Statement) (block : Block) :
    ∃ blank newline, (∀ c ∈ blank.toList, Text.isBlank c) ∧ (newline = "" ∨ newline = "\n") ∧
      (block.unshift added).text = blank ++ added.text ++ newline ++ block.text := by
  cases block with
  | done trailing =>
    refine ⟨"\n", "", by simp [Text.isBlank], .inl rfl, ?_⟩
    simp [unshift, Block.text, String.append_assoc]
  | next gap statement rest =>
    obtain ⟨blank, newline, hblank, hnewline, hgap⟩ := openGap_eq gap
    refine ⟨blank, newline, hblank, hnewline, ?_⟩
    simp only [unshift, hgap, Block.text, String.append_assoc]

/-- Each on a line of its own. -/
def onLines (added : List Statement) : String :=
  String.join (added.map fun statement => "\n" ++ statement.text)

theorem Block.text_foldr (added : List Statement) (block : Block) :
    (added.foldr (.next "\n" · ·) block).text = onLines added ++ block.text := by
  induction added with
  | nil => simp [onLines]
  | cons statement rest ih =>
    have hlines : onLines (statement :: rest) = "\n" ++ statement.text ++ onLines rest :=
      String.join_cons
    rw [List.foldr_cons, Block.text, ih, hlines]
    simp only [String.append_assoc]

/-- Appended statements stand in front of the text that ends the list. -/
theorem Block.text_append (added : List Statement) (block : Block) :
    ∃ front, block.text = front ++ block.trailing ∧
      (block.append added).text = front ++ (onLines added ++ block.trailing) := by
  induction block using Block.append.induct with
  | case1 trailing =>
    refine ⟨"", by rw [Block.text, Block.trailing, String.empty_append], ?_⟩
    rw [append, Block.text_foldr, String.empty_append, Block.text, Block.trailing]
  | case2 gap statement rest ih =>
    obtain ⟨front, htext, htext'⟩ := ih
    refine ⟨gap ++ statement.text ++ front, ?_, ?_⟩
    · rw [Block.text, htext, trailing]
      simp only [String.append_assoc]
    · rw [append, Block.text, htext', trailing]
      simp only [String.append_assoc]

/-! ## Edits -/

/-- What an edit makes of the text of a script. -/
inductive TextEdit (parser : Parser) (script : Block) : Edit → String → Prop where
  /-- White space, the first statement of the snippet and at most one line break stand where the
  list begins. -/
  | unshift {list : Address} {text blank newline : String} {frame : Frame} {old : Block}
      {added : Statement} {others : List Statement}
      (hframe : script.frame? list = some frame) (hold : script.list? list = some old)
      (htext : script.text = frame.fill old.text)
      (hsnippet : snippet parser text = .ok (added :: others))
      (hblank : ∀ c ∈ blank.toList, Text.isBlank c) (hnewline : newline = "" ∨ newline = "\n") :
      TextEdit parser script (.unshift list text)
        (frame.front ++ (blank ++ added.text ++ newline) ++ (old.text ++ frame.behind))
  /-- The statements of the snippet stand in front of the text that ends the script. -/
  | push {text front : String} {added : List Statement}
      (htext : script.text = front ++ script.trailing)
        (hsnippet : snippet parser text = .ok added) :
      TextEdit parser script (.push text) (front ++ onLines added ++ script.trailing)
  /-- The text of the first statement of the snippet, after the substitutions, takes the place of
  the text of the statement. -/
  | assign {address : Address} {text : String} {substitutions : List Substitution} {frame : Frame}
      {old new : Statement} {added : List Statement} {copy : Block}
      (hframe : script.frame? address = some frame) (hold : script.statementAt? address = some old)
      (htext : script.text = frame.fill old.text) (hsnippet : snippet parser text = .ok added)
      (hcopy : (substituteAll substitutions (.ofStatements added)).runOn script =
        (.ok copy, script))
      (hnew : copy.head? = some new) :
      TextEdit parser script (.assign address text substitutions) (frame.fill new.text)

/-- **Edits touch only what they name.** -/
theorem textEdit_of_apply {parser : Parser} {edit : Edit}
    (h : apply parser edit script = .ok edited) : TextEdit parser script edit edited.text := by
  cases edit with
  | unshift list text =>
    obtain ⟨added, others, hsnippet, hchange⟩ := apply_unshift_eq_ok.mp h
    obtain ⟨frame, old, new, hframe, hold, hnew, htext, htext'⟩ := Block.changeList?_frame hchange
    cases hnew
    obtain ⟨blank, newline, hblank, hnewline, hinserted⟩ := old.text_unshift added
    have hedited : edited.text =
        frame.front ++ (blank ++ added.text ++ newline) ++ (old.text ++ frame.behind) := by
      rw [htext', hinserted, Frame.fill]
      simp only [String.append_assoc]
    rw [hedited]
    exact .unshift hframe hold htext hsnippet hblank hnewline
  | push text =>
    obtain ⟨added, hsnippet, rfl⟩ := apply_push_eq_ok.mp h
    obtain ⟨front, htext, htext'⟩ := script.text_append added
    rw [htext', ← String.append_assoc]
    exact .push htext hsnippet
  | assign address text substitutions =>
    obtain ⟨-, added, copy, node, hsnippet, hcopy, hnode, hchange⟩ := apply_assign_eq_ok.mp h
    obtain ⟨frame, old, new, hframe, hold, hnew, htext, htext'⟩ :=
      Block.changeStatement?_frame hchange
    cases hnew
    rw [htext']
    exact .assign hframe hold htext hsnippet hcopy hnode

/-- A script with a function body that begins with a comment. -/
def commentedBody : Block :=
  .next "" (.block "(function () \x7b"
    (.next "\n    // setup\n    " (.plain "a();") (.done "\n")) (.plain "\x7d)();")) (.done "\n")

/-- The inserted statement has the indentation of the comment, and the comment stays in front of the
old first statement. -/
theorem textEdit_of_apply_commentedBody :
    ofText sourceTree? "(function () \x7b\n    // setup\n    a();\n\x7d)();\n" =
        .ok commentedBody ∧
      ∃ edited, apply sourceTree? (.unshift [0, 0] "b();") commentedBody = .ok edited ∧
        edited.text = "(function () \x7b\n    b();\n    // setup\n    a();\n\x7d)();\n" ∧
        TextEdit sourceTree? commentedBody (.unshift [0, 0] "b();") edited.text := by
  have hread : ofText sourceTree? "(function () \x7b\n    // setup\n    a();\n\x7d)();\n" =
      .ok commentedBody := by
    decide +kernel
  have hedited : (apply sourceTree? (.unshift [0, 0] "b();") commentedBody).map Block.text =
      .ok "(function () \x7b\n    b();\n    // setup\n    a();\n\x7d)();\n" := by
    decide +kernel
  cases happly : apply sourceTree? (.unshift [0, 0] "b();") commentedBody with
  | error error =>
    rw [happly] at hedited
    cases hedited
  | ok edited =>
    rw [happly] at hedited
    exact ⟨hread, edited, rfl, Except.ok.inj hedited, textEdit_of_apply happly⟩

end Retrofit.Script
