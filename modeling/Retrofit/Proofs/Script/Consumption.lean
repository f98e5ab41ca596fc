import Retrofit.Proofs.Script.Source

/-!
# Statements take text

A reader consumes if it leaves less text than there was whenever it succeeds (`Consumes`). A lexeme
has at least one character, so a reader that takes one consumes, and so does every reader with a
part that does. An operand begins with a lexeme, and a statement with a symbol, a word or an
operand.

A script therefore has no more statements than characters, and its reader, which stops after that
many, reads all of them.
-/

namespace Retrofit.Script

variable {α β : Type} {c c' : Cursor} {cs rest : List Char}

/-! ## Readers that consume -/

/-- A reader that starts at the cursor `c` leaves less text. -/
def ConsumesFrom (c : Cursor) (p : Reader α) : Prop :=
  c.Fits → ∀ a c', p.run c = some (a, c') → c'.rest.length < c.rest.length

/-- A reader leaves less text. -/
class Consumes (p : Reader α) : Prop where
  consumesFrom : ∀ c, ConsumesFrom c p

open Reader

/-- A reader consumes if its first part does and nothing goes back behind that. -/
theorem Consumes.bind {p : Reader α} {f : α → Reader β} (hp : Consumes p)
    (hf : ∀ a, Advances (f a)) [Advances p] : Consumes (p >>= f) := by
  refine ⟨fun c hfits b c'' h => ?_⟩
  obtain ⟨a, c', hrun, h⟩ := run_bind_eq_some.mp h
  have hless := hp.consumesFrom c hfits a c' hrun
  have hfits' := (Advances.reaches hfits hrun).fits hfits
  have hle := ((hf a).reaches hfits' h).rest.length_le
  omega

/-- A reader consumes if what follows its first part does. -/
theorem Consumes.after {p : Reader α} {f : α → Reader β} [Advances p]
    (hf : ∀ a, Consumes (f a)) : Consumes (p >>= f) := by
  refine ⟨fun c hfits b c'' h => ?_⟩
  obtain ⟨a, c', hrun, h⟩ := run_bind_eq_some.mp h
  have hreach := Advances.reaches hfits hrun
  have hless := (hf a).consumesFrom c' (hreach.fits hfits) b c'' h
  have hle := hreach.rest.length_le
  omega

instance : Consumes (failure : Reader α) :=
  ⟨fun _ _ _ _ h => by cases h⟩

instance {p q : Reader α} [hp : Consumes p] [hq : Consumes q] : Consumes (p <|> q) := by
  refine ⟨fun c hfits a c' h => ?_⟩
  have h : (p.run c <|> q.run c) = some (a, c') := h
  cases hrun : p.run c with
  | none =>
    rw [hrun] at h
    exact hq.consumesFrom c hfits a c' h
  | some result =>
    rw [hrun] at h
    cases h
    exact hp.consumesFrom c hfits a c' hrun

theorem consumes_ite {condition : Prop} [Decidable condition] {p q : Reader α} (_ : Consumes p)
    (_ : Consumes q) : Consumes (if condition then p else q) := by
  split <;> assumption

theorem consumes_ahead_bind {f : List Char → Reader α} (h : ∀ c, ConsumesFrom c (f c.rest)) :
    Consumes (ahead >>= f) :=
  ⟨fun c => h c⟩

/-- To move the cursor over a character is to consume. -/
theorem ConsumesFrom.moveTo_bind {f : Unit → Reader α} [hf : Advances (f ())]
    (h : cs.length < c.rest.length) : ConsumesFrom c (moveTo cs >>= f) := by
  intro hfits a c' hrun
  obtain ⟨_, c₁, hmove, hrun⟩ := run_bind_eq_some.mp hrun
  cases hmove
  have hfits₁ : Cursor.Fits { c with rest := cs } :=
    Nat.le_trans (Nat.le_of_lt h) hfits
  have hle : c'.rest.length ≤ cs.length := (hf.reaches hfits₁ hrun).rest.length_le
  omega

/-! ## Lexemes -/

theorem Takes.consumes_take {lexeme : List Char → Option (List Char)} (h : Takes lexeme) :
    Consumes (take lexeme) := by
  refine consumes_ahead_bind fun c hfits a c' hrun => ?_
  split at hrun
  · rename_i hlexeme
    cases hrun
    exact (h hlexeme).length_lt
  · cases hrun

/-- A symbol with characters consumes. -/
theorem consumes_symbol {text : String} (h : text ≠ "") : Consumes (symbol text) := by
  refine ⟨fun c hfits _ c' hrun => ?_⟩
  obtain ⟨hreach, -, hplace⟩ := run_symbol hfits hrun
  have hlen := List.length_pos_iff.mpr fun hnone => h (String.toList_eq_nil_iff.mp hnone)
  have hlength := hreach.length
  unfold Cursor.Fits at hfits
  unfold Cursor.place at hplace
  omega

instance : Consumes word := by
  refine Consumes.after (p := gap) fun _ => consumes_ahead_bind fun c hfits a c' hrun => ?_
  split at hrun
  · rename_i hword
    cases hrun
    exact (word?_behind hword).length_lt
  · cases hrun

instance (w : String) : Consumes (keyword w) := by
  unfold keyword
  exact Consumes.bind (p := word) inferInstance fun _ => inferInstance

/-! ## Operands -/

variable (g : Nested) [g.Advancing] (mode : Mode)

instance : Consumes (readElement g) := by
  unfold readElement
  exact (consumes_symbol (by decide)).bind fun _ => inferInstance

instance : Consumes (readWordUnit g mode) := by
  refine Consumes.bind (p := word) inferInstance fun w => ?_
  split <;> infer_instance

instance [hmarkup : Consumes g.markup] : Consumes (readUnit g mode) := by
  have htake : ∀ {lexeme : List Char → Option (List Char)} {f : Unit → Reader Form},
      Takes lexeme → (∀ a, Advances (f a)) → Consumes (take lexeme >>= f) := by
    intro lexeme f hlexeme hf
    have := hlexeme.endsIn.advances_take
    exact hlexeme.consumes_take.bind hf
  have hsign : ∀ {cs rest : List Char} {twice : Prop} [Decidable twice],
      cs.length < rest.length → (if twice then cs.drop 1 else cs).length < rest.length := by
    intro cs rest twice _ hlt
    split
    · exact Nat.lt_of_le_of_lt (List.drop_suffix 1 cs).length_le hlt
    · exact hlt
  refine Consumes.after (p := gap) fun _ => consumes_ahead_bind fun c => ?_
  split
  · exact Consumes.consumesFrom c
  · rename_i d cs hrest
    have hlt : cs.length < c.rest.length := by rw [hrest, List.length_cons]; omega
    split
    · exact .moveTo_bind hlt
    · exact .moveTo_bind hlt
    · exact .moveTo_bind hlt
    · exact .moveTo_bind hlt
    · exact (htake takes_string? fun _ => inferInstance).consumesFrom c
    · exact (htake takes_string? fun _ => inferInstance).consumesFrom c
    · exact (htake takes_pattern? fun _ => inferInstance).consumesFrom c
    · exact (hmarkup.bind fun _ => inferInstance).consumesFrom c
    · have hclass : Consumes (do keyword "class"; let _ ← readClass g; return Form.plain) :=
        Consumes.bind (p := keyword _) inferInstance fun _ => inferInstance
      exact (Consumes.after (p := readDecorators g) fun _ => hclass).consumesFrom c
    · exact (htake takes_privateName? fun _ => inferInstance).consumesFrom c
    · exact .moveTo_bind hlt
    · exact .moveTo_bind hlt
    · exact .moveTo_bind (hsign hlt)
    · exact .moveTo_bind (hsign hlt)
    · have hnumeral := htake (f := fun _ => pure Form.plain) takes_numeral? fun _ => inferInstance
      exact (consumes_ite hnumeral inferInstance).consumesFrom c

instance [Consumes g.markup] : Consumes (readOperand g mode) := by
  unfold readOperand
  exact Consumes.bind (p := readUnit g mode) inferInstance fun _ => inferInstance

instance [Consumes g.markup] : Consumes (readExpression g mode) := by
  unfold readExpression
  exact Consumes.bind (p := readOperand g mode) inferInstance fun _ => inferInstance

instance (limit depth : Nat) : Consumes (nested limit depth).markup := by
  cases depth with
  | zero => exact inferInstanceAs (Consumes failure)
  | succ depth => exact inferInstanceAs (Consumes (readElement (nested limit depth)))

instance (limit depth : Nat) : Consumes ((nested limit depth).expression mode) := by
  cases depth with
  | zero => exact inferInstanceAs (Consumes failure)
  | succ depth => exact inferInstanceAs (Consumes (readExpression (nested limit depth) mode))

/-! ## Statements -/

variable [∀ mode, Consumes (g.expression mode)]

instance : Consumes (readValue g mode) := by
  unfold readValue
  exact Consumes.bind (p := g.expression mode) inferInstance fun _ => inferInstance

instance : Consumes (readExpressionStatement g) := by
  unfold readExpressionStatement readValues
  exact (Consumes.bind (p := readValue g .last) inferInstance fun _ => inferInstance).bind
    fun _ => inferInstance

instance : Consumes (readBraces g) := by
  refine ⟨fun c hfits filled c' h => ?_⟩
  obtain ⟨hreach, hplace⟩ := run_readBraces hfits h
  have hlength := hreach.length
  unfold Cursor.Fits at hfits
  unfold Cursor.place at hplace
  omega

theorem consumesFrom_word {w : String} {behind : List Char}
    (h : behind.length < c.rest.length) : ConsumesFrom c (readNamedStatement g w behind) := by
  have hnext := Nat.lt_of_le_of_lt (skipGap_suffix true 0 behind).length_le h
  unfold readNamedStatement
  dsimp only
  split
  · rename_i hread
    have := advances_of_readWordStatement? g hread
    exact .moveTo_bind h
  · split
    · exact .moveTo_bind (Nat.lt_of_le_of_lt (List.drop_suffix 1 _).length_le hnext)
    · split
      · split
        · exact .moveTo_bind h
        · exact Consumes.consumesFrom c
      · split
        · exact Consumes.consumesFrom c
        · exact .moveTo_bind h
      · split
        · exact .moveTo_bind h
        · exact Consumes.consumesFrom c
      · split
        · rename_i hbehind
          exact .moveTo_bind (Nat.lt_of_le_of_lt (behindFunction?_suffix hbehind).length_le h)
        · exact Consumes.consumesFrom c
      · exact Consumes.consumesFrom c

instance : Consumes (readBraced g) := by
  refine consumes_ahead_bind fun c => ?_
  extract_lets cs block
  have hblock : Consumes block := by
    refine ⟨fun c hfits mayFollow c' h => ?_⟩
    obtain ⟨_, c₁, hget, h⟩ := run_bind_eq_some.mp h
    cases hget
    obtain ⟨filled, c₁, hbraces, h⟩ := run_bind_eq_some.mp h
    have hless := Consumes.consumesFrom c hfits _ _ hbraces
    have hfits₁ := (Advances.reaches hfits hbraces).fits hfits
    obtain ⟨ended, c₂, hclose, h⟩ := run_bind_eq_some.mp h
    have hreach₂ := Advances.reaches hfits₁ hclose
    have hless₂ := Nat.lt_of_le_of_lt hreach₂.rest.length_le hless
    cases ended with
    | true =>
      cases h
      exact hless₂
    | false =>
      obtain ⟨_, c₃, hahead, h⟩ := run_bind_eq_some.mp h
      cases hahead
      split at h
      · obtain ⟨_, c₃, hmodify, h⟩ := run_bind_eq_some.mp h
        cases hmodify
        have hfits₂ : Cursor.Fits { c₂ with blocks := c.blocks } := hreach₂.fits hfits₁
        exact Nat.lt_of_le_of_lt (Advances.reaches hfits₂ h).rest.length_le hless₂
      · cases h
        exact hless₂
  exact (consumes_ite inferInstance (consumes_ite inferInstance hblock)).consumesFrom c

instance : Consumes (readStatement g) := by
  refine consumes_ahead_bind fun c => ?_
  split
  · exact Consumes.consumesFrom c
  · rename_i cs hrest
    exact .moveTo_bind (by rw [hrest, List.length_cons]; omega)
  · exact Consumes.consumesFrom c
  · have hdecorated : Consumes (do
        match ← word with
        | "class" => finishNamed g (← readClass g)
        | "export" => readExport g
        | _ => failure) := by
      refine Consumes.bind (p := word) inferInstance fun w => ?_
      split <;> infer_instance
    exact (Consumes.after (p := readDecorators g) fun _ => hdecorated).consumesFrom c
  · split
    · rename_i hword
      exact consumesFrom_word g (word?_behind hword).length_lt
    · exact Consumes.consumesFrom c

/-- A statement of a script takes text. -/
instance : Consumes readOutermost := by
  unfold readOutermost
  exact Consumes.after (p := ahead) fun _ => inferInstance

end Retrofit.Script
