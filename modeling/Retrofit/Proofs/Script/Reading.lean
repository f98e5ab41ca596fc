import Retrofit.Proofs.Script.Substitution

/-!
# Lists of statements that are read again

A parser reads a script statement by statement. What it does at one place is a `Reading`: it passes
over a gap, and it reads the statement behind the gap. A list *stands* (`Reading.Stands`) where each
of its statements is read as itself, in front of the text that follows.

**Assumptions** (`Parser.Sequential`). A script is what stands in its text up to the end. In a block
of a statement every list may stand, up to the closing brace, and nothing else (`exchange`): the
grammar of lists does not depend on what is around them. Where a gap leads to, and where a statement
ends, is decided by the way in which the next statement opens (`gap`, `lookahead`): no more than its
first token is looked at, and that is a part of the text up to its first block.

**Changes.** When a list changes, only the statements at the place of the change and the one in
front of it have to be read again (`Reading.Holds`). So a list with a statement put in front stands
if and only if it holds there (`stands_unshift_iff`), and likewise one with a statement exchanged
(`stands_change?_iff`) or with statements behind the last (`stands_append_iff`). When the list is in
a block, the script stands again if and only if the list does (`stands_changeList?`).
-/

namespace Retrofit.Script

/-- The text of a statement up to its first block, and the brace that opens the block. -/
def Statement.opening : Statement → String
  | .plain text => text
  | .block before _ _ => before

/-- How a text is read. -/
structure Reading where
  /-- The text behind the gap in front of it, at the beginning of a script or elsewhere. -/
  skip : Bool → List Char → List Char
  /-- The statement in front of a text, and the text behind the statement. -/
  next? : List Char → Option (Statement × List Char)

namespace Reading

/-- The gap is passed over in front of a text. -/
def Skips (r : Reading) (first : Bool) (gap : String) (behind : List Char) : Prop :=
  r.skip first (gap.toList ++ behind) = behind

/-- The statement is read as itself in front of a text. -/
def Reads (r : Reading) (statement : Statement) (behind : List Char) : Prop :=
  r.next? (statement.text.toList ++ behind) = some (statement, behind)

/-- The gap in front of a list leads to its first statement, or to what stops it. -/
def Leads (r : Reading) (stop : List Char) (first : Bool) : Block → Prop
  | .done trailing => r.Skips first trailing stop
  | .next gap statement rest =>
    r.Skips first gap (statement.text.toList ++ (rest.text.toList ++ stop))

/-- The list is what is read, statement by statement, in front of `stop`. -/
def Stands (r : Reading) (stop : List Char) : Bool → Block → Prop
  | first, .done trailing => r.Leads stop first (.done trailing)
  | first, .next gap statement rest =>
    r.Leads stop first (.next gap statement rest) ∧ r.Reads statement (rest.text.toList ++ stop) ∧
      r.Stands stop false rest

/-- The statements of a list from `n` on and in front of `m` are read as themselves, and the gaps
around them as gaps. -/
def Holds (r : Reading) (stop : List Char) : Bool → Nat → Nat → Block → Prop
  | first, 0, m + 1, .next gap statement rest =>
    r.Leads stop first (.next gap statement rest) ∧ r.Reads statement (rest.text.toList ++ stop) ∧
      r.Holds stop false 0 m rest
  | _, n + 1, m + 1, .next _ _ rest => r.Holds stop false n m rest
  | first, _, _, list => r.Leads stop first list

end Reading

/-- The parser reads scripts statement by statement, in the same way in every block. -/
structure Parser.Sequential (parser : Parser) (r : Reading) : Prop where
  /-- A script is the list that stands in its text up to the end. -/
  script : ∀ text block,
    parse? parser text = some block ↔ block.text = text ∧ r.Stands [] true block
  /-- Whether a gap leads to a statement depends on how the statement opens. -/
  gap : ∀ {first gap statement statement' behind behind'},
    statement'.opening = statement.opening → r.Reads statement behind → r.Reads statement' behind' →
    r.Skips first gap (statement.text.toList ++ behind) →
    r.Skips first gap (statement'.text.toList ++ behind')
  /-- Where a statement ends depends on how the next one opens. -/
  lookahead : ∀ {statement gap next next' behind behind'},
    next'.opening = next.opening → r.Reads next behind → r.Reads next' behind' →
    r.Skips false gap (next.text.toList ++ behind) →
    r.Reads statement (gap.toList ++ (next.text.toList ++ behind)) →
    r.Reads statement (gap.toList ++ (next'.text.toList ++ behind'))
  /-- A block may hold every list that stands in front of its closing brace, and no other. -/
  exchange : ∀ {statement statement' i body behind}, r.Reads statement behind →
    statement.change? (fun _ => some body) i = some statement' →
    (r.Reads statement' behind ↔ r.Stands ['\x7d'] false body)

variable {parser : Parser} {r : Reading} {stop : List Char} {first first' : Bool} {n m i : Nat}
  {statement statement' added next next' : Statement} {gap gap' : String}
  {block edited rest rest' : Block}

namespace Reading

theorem Stands.leads (h : r.Stands stop first block) : r.Leads stop first block := by
  cases block with
  | done trailing => exact h
  | next gap statement rest => exact h.1

theorem toList_text_next :
    (Block.next gap statement rest).text.toList ++ stop =
      gap.toList ++ (statement.text.toList ++ (rest.text.toList ++ stop)) := by
  simp only [Block.text, String.toList_append, List.append_assoc]

/-- All statements of a list that stands hold, and a list stands if all of them hold. -/
theorem holds_iff_stands (hsize : block.size ≤ m) :
    r.Holds stop first 0 m block ↔ r.Stands stop first block := by
  induction m generalizing block first with
  | zero =>
    cases block with
    | done trailing => exact Iff.rfl
    | next gap statement rest => cases hsize
  | succ m ih =>
    cases block with
    | done trailing => exact Iff.rfl
    | next gap statement rest =>
      have hrest : r.Holds stop false 0 m rest ↔ r.Stands stop false rest :=
        ih (Nat.le_of_succ_le_succ hsize)
      exact and_congr_right fun _ => and_congr_right fun _ => hrest

/-! ## In front of a list -/

/-- Put in front of a list that stands, a statement needs to be read in front of it. -/
theorem stands_unshift_iff (h : r.Stands stop first block) :
    r.Stands stop first (block.unshift added) ↔ r.Holds stop first 0 1 (block.unshift added) := by
  cases block with
  | done trailing => exact Iff.rfl
  | next gap statement rest =>
    obtain ⟨-, hstatement, hrest⟩ := h
    constructor
    · rintro ⟨hlead, hadded, hbehind, -⟩
      exact ⟨hlead, hadded, hbehind⟩
    · rintro ⟨hlead, hadded, hbehind⟩
      exact ⟨hlead, hadded, hbehind, hstatement, hrest⟩

/-! ## At an index and behind the last statement -/

/-- In front of a statement that opens as before, a statement is read as before. -/
theorem Stands.next_congr (hparser : parser.Sequential r)
    (h : r.Stands stop first (.next gap statement (.next gap' next rest)))
    (h' : r.Stands stop false (.next gap' next' rest')) (hopening : next'.opening = next.opening) :
    r.Stands stop first (.next gap statement (.next gap' next' rest')) := by
  obtain ⟨hlead, hstatement, hbehind, hnext, -⟩ := h
  rw [toList_text_next] at hstatement
  have hagain := hparser.lookahead hopening hnext h'.2.1 hbehind hstatement
  refine ⟨?_, ?_, h'⟩
  · rw [Leads, toList_text_next] at hlead ⊢
    exact hparser.gap rfl hstatement hagain hlead
  · rwa [toList_text_next]

/-- An exchanged statement and the one in front of it need to be read again. -/
theorem stands_change?_iff (hparser : parser.Sequential r)
    (h : block.change? (fun _ => some added) i = some edited) (hblock : r.Stands stop first block) :
    r.Stands stop first edited ↔ r.Holds stop first (i - 1) (i + 1) edited := by
  induction i generalizing block edited first with
  | zero =>
    cases block with
    | done trailing => cases h
    | next gap statement rest =>
      cases h
      obtain ⟨-, -, hrest⟩ := hblock
      exact and_congr_right fun _ => and_congr_right fun _ => iff_of_true hrest hrest.leads
  | succ i ih =>
    cases block with
    | done trailing => cases h
    | next gap statement rest =>
      obtain ⟨rest', hchange, rfl⟩ := Option.map_eq_some_iff.mp h
      have hrest := ih hchange hblock.2.2
      cases i with
      | zero => exact and_congr_right fun _ => and_congr_right fun _ => hrest
      | succ i =>
        refine ⟨fun hstands => hrest.mp hstands.2.2, fun hholds => ?_⟩
        cases rest with
        | done trailing => cases hchange
        | next gap' next others =>
          obtain ⟨others', -, rfl⟩ := Option.map_eq_some_iff.mp hchange
          exact hblock.next_congr hparser (hrest.mpr hholds) rfl

theorem size_foldr (added : List Statement) (block : Block) :
    (added.foldr (.next "\n" · ·) block).size = added.length + block.size := by
  induction added with
  | nil => exact (Nat.zero_add _).symm
  | cons statement rest ih =>
    rw [List.foldr_cons, Block.size, ih, List.length_cons]
    omega

/-- Behind a list that stands, statements and the last one of the list need to be read. -/
theorem stands_append_iff (hparser : parser.Sequential r) {added : List Statement} :
    {block : Block} → {first : Bool} → r.Stands stop first block →
    (r.Stands stop first (block.append added) ↔
      r.Holds stop first (block.size - 1) (block.size + added.length) (block.append added))
  | .done trailing, _, _ => by
    refine (holds_iff_stands ?_).symm
    rw [Block.append, size_foldr, Block.size]
    omega
  | .next gap statement (.done trailing), _, _ => by
    refine (holds_iff_stands ?_).symm
    simp only [Block.append, Block.size, size_foldr]
    omega
  | .next gap statement (.next gap' next rest), first, h => by
    have hrest : r.Stands stop false ((Block.next gap' next rest).append added) ↔ _ :=
      stands_append_iff hparser h.2.2
    have hsize : (Block.next gap statement (.next gap' next rest)).size + added.length =
        (Block.next gap' next rest).size + added.length + 1 := by
      simp only [Block.size]
      omega
    rw [hsize]
    exact ⟨fun h' => hrest.mp h'.2.2, fun h' => h.next_congr hparser (hrest.mpr h') rfl⟩

/-! ## In a block of a statement -/

theorem opening_of_change? {f : Block → Option Block}
    (h : statement.change? f i = some statement') :
    statement'.opening = statement.opening := by
  cases statement with
  | plain text => cases i <;> cases h
  | block before body rest =>
    cases i with
    | zero =>
      obtain ⟨body', -, rfl⟩ := Option.map_eq_some_iff.mp h
      rfl
    | succ i =>
      obtain ⟨rest', -, rfl⟩ := Option.map_eq_some_iff.mp h
      rfl

/-- A change of a block is an exchange. -/
theorem exchange_of_change? {f : Block → Option Block}
    (h : statement.change? f i = some statement') :
    ∃ inner inner', statement.blocks[i]? = some inner ∧ f inner = some inner' ∧
      statement.change? (fun _ => some inner') i = some statement' := by
  induction i generalizing statement statement' with
  | zero =>
    cases statement with
    | plain text => cases h
    | block before inner rest =>
      obtain ⟨inner', hinner, rfl⟩ := Option.map_eq_some_iff.mp h
      exact ⟨inner, inner', rfl, hinner, rfl⟩
  | succ i ih =>
    cases statement with
    | plain text => cases h
    | block before body rest =>
      obtain ⟨rest', hrest, rfl⟩ := Option.map_eq_some_iff.mp h
      obtain ⟨inner, inner', hblock, hinner, hexchange⟩ := ih hrest
      refine ⟨inner, inner', hblock, hinner, ?_⟩
      rw [Statement.change?, hexchange, Option.map_some]

/-- A change at an index leaves the gap in front of the list and the way in which it opens. -/
theorem next_of_change? {f : Statement → Option Statement}
    (hopening : ∀ old new, f old = some new → new.opening = old.opening)
    (h : block.change? f i = some edited) :
    ∃ gap old new rest rest', block = .next gap old rest ∧ edited = .next gap new rest' ∧
      new.opening = old.opening := by
  cases block with
  | done trailing => cases i <;> cases h
  | next gap old rest =>
    cases i with
    | zero =>
      obtain ⟨new, hnew, rfl⟩ := Option.map_eq_some_iff.mp h
      exact ⟨gap, old, new, rest, rest, rfl, rfl, hopening old new hnew⟩
    | succ i =>
      obtain ⟨rest', -, rfl⟩ := Option.map_eq_some_iff.mp h
      exact ⟨gap, old, old, rest, rest', rfl, rfl, rfl⟩

/-- A statement that opens as before needs to be read again, and nothing else. -/
theorem stands_iff_of_opening (hparser : parser.Sequential r) {f : Statement → Option Statement}
    (hopening : ∀ old new, f old = some new → new.opening = old.opening)
    (h : block.change? f i = some edited) (hblock : r.Stands stop first block) :
    ∃ old new behind, block.statements[i]? = some old ∧ f old = some new ∧ r.Reads old behind ∧
      (r.Stands stop first edited ↔ r.Reads new behind) := by
  induction i generalizing block edited first with
  | zero =>
    cases block with
    | done trailing => cases h
    | next gap old rest =>
      obtain ⟨new, hnew, rfl⟩ := Option.map_eq_some_iff.mp h
      obtain ⟨hlead, hold, hrest⟩ := hblock
      refine ⟨old, new, _, rfl, hnew, hold, fun hstands => hstands.2.1, fun hreads => ?_⟩
      exact ⟨hparser.gap (hopening old new hnew) hold hreads hlead, hreads, hrest⟩
  | succ i ih =>
    cases block with
    | done trailing => cases h
    | next gap statement rest =>
      obtain ⟨rest', hchange, rfl⟩ := Option.map_eq_some_iff.mp h
      obtain ⟨old, new, behind, hmem, hnew, hold, hrest⟩ := ih hchange hblock.2.2
      refine ⟨old, new, behind, hmem, hnew, hold, fun hstands => hrest.mp hstands.2.2,
        fun hreads => ?_⟩
      obtain ⟨gap', next, next', others, others', rfl, rfl, hsame⟩ :=
        next_of_change? hopening hchange
      exact hblock.next_congr hparser (hrest.mpr hreads) hsame

/-- A list in a block may be exchanged for every list that stands there. -/
theorem stands_iff_of_inner (hparser : parser.Sequential r) {f : Block → Option Block} {s b : Nat}
    (h : block.change? (fun statement => statement.change? f b) s = some edited)
    (hblock : r.Stands stop first block) :
    ∃ statement inner inner', block.statements[s]? = some statement ∧
      statement.blocks[b]? = some inner ∧ f inner = some inner' ∧
      r.Stands ['\x7d'] false inner ∧
      (r.Stands stop first edited ↔ r.Stands ['\x7d'] false inner') := by
  obtain ⟨old, new, behind, hmem, hchange, hold, hstands⟩ :=
    stands_iff_of_opening hparser (fun _ _ => opening_of_change?) h hblock
  obtain ⟨inner, inner', hinner, hinner', hexchange⟩ := exchange_of_change? hchange
  have hself := Statement.change?_of_eq (f := fun _ => some inner) hinner rfl
  exact ⟨old, inner, inner', hmem, hinner, hinner', (hparser.exchange hold hself).mp hold,
    hstands.trans (hparser.exchange hold hexchange)⟩

/-- What stops the list at an address below a list that `stop` stops. -/
def stopAt (stop : List Char) : Address → List Char
  | [] => stop
  | _ :: _ => ['\x7d']

theorem stopAt_brace (address : Address) : stopAt ['\x7d'] address = ['\x7d'] := by
  cases address <;> rfl

/-- A list with a changed list in it stands again if and only if the changed one does. -/
theorem stands_changeList? (hparser : parser.Sequential r) {f : Block → Option Block} :
    {address : Address} → {stop : List Char} → {first : Bool} → {block edited : Block} →
      block.changeList? f address = some edited → r.Stands stop first block →
      ∃ old new, block.list? address = some old ∧ f old = some new ∧
        r.Stands (stopAt stop address) (first && address.isEmpty) old ∧
        (r.Stands stop first edited ↔
          r.Stands (stopAt stop address) (first && address.isEmpty) new)
  | [], stop, first, block, edited, h, hblock => by
    have hplace : (first && ([] : Address).isEmpty) = first := Bool.and_true first
    rw [hplace]
    exact ⟨block, edited, rfl, h, hblock, Iff.rfl⟩
  | [_], _, _, _, _, h, _ => nomatch h
  | s :: b :: address, stop, first, block, edited, h, hblock => by
    obtain ⟨statement, inner, inner', hstatement, hinner, hchange, hstands, hiff⟩ :=
      stands_iff_of_inner hparser h hblock
    obtain ⟨old, new, hold, hnew, hstands', hiff'⟩ := stands_changeList? hparser hchange hstands
    have hplace : (first && (s :: b :: address).isEmpty) = false := Bool.and_false first
    rw [stopAt_brace, Bool.false_and] at hstands' hiff'
    rw [hplace]
    refine ⟨old, new, ?_, hnew, hstands', hiff.trans hiff'⟩
    rw [Block.list?, hstatement, Option.bind_eq_bind, Option.bind_some, hinner]
    exact hold

end Reading

end Retrofit.Script
