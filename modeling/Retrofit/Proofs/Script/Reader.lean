import Retrofit.Proofs.Script.Lexeme
import Retrofit.Proofs.Script.Shift

/-!
# Readers only advance

A reader that starts at a cursor leaves a cursor that it *reaches* from there: what is left is an
end of what was left before, and the blocks that were recorded on the way lie in order between the
two places. `Advances p` says so of every run of the reader `p`.

**Text in front.** A reader does not look at the text in front of the cursor. If there is more of
it, the reader does the same, and the places of the blocks move on (`Cursor.shift`). `Advances p`
says this of `p` too, because the places come out right only as long as the reader stays in the
text.

**Composition.** Sequences, choices and repetitions of readers that advance advance. These laws are
instances, so that a reader that is only composed of others advances by their instances. A reader
that looks at the text and moves the cursor itself needs the fact that it moves to an end of the
text; `AdvancesFrom c p` speaks of a reader that has just seen the cursor `c`.
-/

namespace Retrofit.Script

variable {α β : Type} {c c' c'' : Cursor} {cs : List Char} {a b start stop mid : Nat}
  {nodes more : List SourceNode}

theorem Ordered.append (h : Ordered start mid nodes) (h' : Ordered mid stop more) :
    Ordered start stop (nodes ++ more) := by
  induction nodes generalizing start with
  | nil =>
    cases more with
    | nil => exact Nat.le_trans h h'
    | cons node rest => exact ⟨Nat.le_trans h h'.1, h'.2⟩
  | cons node rest ih => exact ⟨h.1, h.2.1, ih h.2.2⟩

/-! ## Reaching a cursor -/

/-- What is left to read is no longer than the text. -/
def Cursor.Fits (c : Cursor) : Prop :=
  c.rest.length ≤ c.length

/-- The cursor `c'` lies behind `c`, and has the blocks in between. -/
structure Cursor.Reaches (c c' : Cursor) : Prop where
  rest : c'.rest <:+ c.rest
  length : c'.length = c.length
  blocks : ∃ added, c'.blocks = added ++ c.blocks ∧ Ordered c.place c'.place added.reverse

/-- The cursor with `k` more characters in front of the text. -/
def Cursor.shift (k : Nat) (c : Cursor) : Cursor :=
  ⟨c.rest, c.length + k, shiftAll k c.blocks⟩

theorem Cursor.Fits.place_shift (h : c.Fits) (k : Nat) : (c.shift k).place = c.place + k := by
  show c.length + k - c.rest.length = c.length - c.rest.length + k
  unfold Fits at h
  omega

namespace Cursor.Reaches

theorem place_le (h : c.Reaches c') : c.place ≤ c'.place := by
  obtain ⟨added, -, hadded⟩ := h.blocks
  exact hadded.le

theorem fits (h : c.Reaches c') (hfits : c.Fits) : c'.Fits := by
  have hlen := h.rest.length_le
  unfold Fits at hfits ⊢
  rw [h.length]
  omega

theorem trans (h : c.Reaches c') (h' : c'.Reaches c'') : c.Reaches c'' := by
  obtain ⟨added, hblocks, hadded⟩ := h.blocks
  obtain ⟨more, hblocks', hmore⟩ := h'.blocks
  refine ⟨h'.rest.trans h.rest, h'.length.trans h.length, more ++ added, ?_, ?_⟩
  · rw [hblocks', hblocks, List.append_assoc]
  · rw [List.reverse_append]
    exact hadded.append hmore

theorem moved (h : cs <:+ c.rest) : c.Reaches { c with rest := cs } := by
  refine ⟨h, rfl, [], rfl, ?_⟩
  have hlen := h.length_le
  show c.length - c.rest.length ≤ c.length - cs.length
  omega

theorem refl (c : Cursor) : c.Reaches c :=
  moved (List.suffix_refl _)

end Cursor.Reaches

/-! ## Readers that advance -/

/-- A reader that starts at the cursor `c` reaches the cursor it ends at, and does the same with
more text in front. -/
structure AdvancesFrom (c : Cursor) (p : Reader α) : Prop where
  reaches : c.Fits → ∀ a c', p.run c = some (a, c') → c.Reaches c'
  shifts : c.Fits → ∀ k, p.run (c.shift k) = (p.run c).map (Prod.map id (Cursor.shift k))

/-- A reader reaches the cursor it ends at, and does the same with more text in front. -/
class Advances (p : Reader α) : Prop where
  advancesFrom : ∀ c, AdvancesFrom c p

theorem Advances.reaches {p : Reader α} [hp : Advances p] {a : α} (hfits : c.Fits)
    (h : p.run c = some (a, c')) : c.Reaches c' :=
  (hp.advancesFrom c).reaches hfits a c' h

theorem Advances.shifts (p : Reader α) [hp : Advances p] (hfits : c.Fits) (k : Nat) :
    p.run (c.shift k) = (p.run c).map (Prod.map id (Cursor.shift k)) :=
  (hp.advancesFrom c).shifts hfits k

open Reader

theorem run_bind_eq_some {p : Reader α} {f : α → Reader β} {b : β} :
    (p >>= f).run c = some (b, c') ↔
      ∃ a c₁, p.run c = some (a, c₁) ∧ (f a).run c₁ = some (b, c') := by
  rw [StateT.run_bind, Option.bind_eq_bind, Option.bind_eq_some_iff]
  exact Prod.exists

/-- Two readers in a row do the same with more text in front, if both do so and what the second one
is given has moved. -/
theorem run_bind_shift {p p' : Reader α} {f f' : α → Reader β} {k : Nat} {m : α → α}
    {m' : β → β} (hp : p'.run (c.shift k) = (p.run c).map (Prod.map m (Cursor.shift k)))
    (hf : ∀ a c', p.run c = some (a, c') → (f' (m a)).run (c'.shift k) =
      ((f a).run c').map (Prod.map m' (Cursor.shift k))) :
    (p' >>= f').run (c.shift k) = ((p >>= f).run c).map (Prod.map m' (Cursor.shift k)) := by
  rw [StateT.run_bind, StateT.run_bind, hp]
  cases hrun : p.run c with
  | none => rfl
  | some result => exact hf result.1 result.2 hrun

theorem AdvancesFrom.bind {p : Reader α} {f : α → Reader β} (hp : AdvancesFrom c p)
    (hf : ∀ a, Advances (f a)) : AdvancesFrom c (p >>= f) where
  reaches hfits b c'' h := by
    obtain ⟨a, c', hrun, h⟩ := run_bind_eq_some.mp h
    have hreach := hp.reaches hfits a c' hrun
    exact hreach.trans ((hf a).reaches (hreach.fits hfits) h)
  shifts hfits k := run_bind_shift (hp.shifts hfits k) fun a c' hrun =>
    (hf a).shifts _ ((hp.reaches hfits a c' hrun).fits hfits) k

theorem AdvancesFrom.moveTo (h : cs <:+ c.rest) : AdvancesFrom c (Reader.moveTo cs) where
  reaches _ a c' hrun := by
    cases hrun
    exact .moved h
  shifts _ _ := rfl

theorem AdvancesFrom.moveTo_bind {f : Unit → Reader α} [Advances (f ())] (h : cs <:+ c.rest) :
    AdvancesFrom c (Reader.moveTo cs >>= f) :=
  (AdvancesFrom.moveTo h).bind fun _ => inferInstance

theorem Advances.bind {p : Reader α} {f : α → Reader β} (hp : Advances p)
    (hf : ∀ a, Advances (f a)) : Advances (p >>= f) :=
  ⟨fun c => (hp.advancesFrom c).bind hf⟩

instance {p : Reader α} {f : α → Reader β} [hp : Advances p] [hf : ∀ a, Advances (f a)] :
    Advances (p >>= f) :=
  hp.bind hf

instance {p : Reader α} {q : Reader β} [hp : Advances p] [hq : Advances q] : Advances (p *> q) :=
  hp.bind fun _ => hq

instance (a : α) : Advances (pure a : Reader α) := by
  refine ⟨fun c => ⟨fun _ b c' h => ?_, fun _ _ => rfl⟩⟩
  cases h
  exact .refl c

instance : Advances (failure : Reader α) := by
  refine ⟨fun c => ⟨fun _ b c' h => ?_, fun _ _ => rfl⟩⟩
  cases h

instance {p q : Reader α} [hp : Advances p] [hq : Advances q] : Advances (p <|> q) := by
  have hchoice : ∀ c, (p <|> q).run c = (p.run c <|> q.run c) := fun c => rfl
  refine ⟨fun c => ⟨fun hfits a c' h => ?_, fun hfits k => ?_⟩⟩
  · rw [hchoice] at h
    cases hrun : p.run c with
    | none =>
      rw [hrun] at h
      exact hq.reaches hfits h
    | some result =>
      rw [hrun] at h
      cases h
      exact hp.reaches hfits hrun
  · rw [hchoice, hchoice, hp.shifts p hfits k]
    cases p.run c with
    | none => exact hq.shifts q hfits k
    | some result => rfl

theorem advances_ite {condition : Prop} [Decidable condition] {p q : Reader α} (_ : Advances p)
    (_ : Advances q) : Advances (if condition then p else q) := by
  split <;> assumption

instance {condition : Prop} [Decidable condition] {p q : Reader α} [hp : Advances p]
    [hq : Advances q] : Advances (if condition then p else q) :=
  advances_ite hp hq

theorem advances_iterate {step : α → Reader (ForInStep α)} (hstep : ∀ a, Advances (step a))
    (limit : Nat) (a : α) : Advances (iterate step limit a) := by
  induction limit generalizing a with
  | zero =>
    rw [iterate]
    infer_instance
  | succ limit ih =>
    rw [iterate]
    refine Advances.bind (hstep a) fun next => ?_
    cases next with
    | done b => exact inferInstanceAs (Advances (pure b))
    | yield b => exact ih b

instance {step : α → Reader (ForInStep α)} [hstep : ∀ a, Advances (step a)] (limit : Nat) (a : α) :
    Advances (iterate step limit a) :=
  advances_iterate hstep limit a

/-! ## Looking ahead -/

theorem advances_ahead_bind {f : List Char → Reader α} (h : ∀ c, AdvancesFrom c (f c.rest)) :
    Advances (ahead >>= f) :=
  ⟨fun c => ⟨(h c).reaches, (h c).shifts⟩⟩

theorem advances_whatFollows_bind {commentEnds : Bool} {f : Following → Reader α}
    (h : ∀ c next, next.place <:+ c.rest → AdvancesFrom c (f next)) :
    Advances (whatFollows commentEnds >>= f) := by
  refine ⟨fun c => ?_⟩
  have hfollowing := h c _ (following_suffix commentEnds c.rest)
  exact ⟨hfollowing.reaches, hfollowing.shifts⟩

instance : Advances ahead := by
  refine ⟨fun c => ⟨fun _ cs c' h => ?_, fun _ _ => rfl⟩⟩
  cases h
  exact .refl c

/-! ## Basic readers -/

instance (condition : Bool) : Advances (require condition) := by
  unfold require
  infer_instance

/-- A condition leaves the cursor where it is. -/
theorem AdvancesFrom.require_bind {condition : Bool} {f : Unit → Reader α}
    (h : AdvancesFrom c (f ())) : AdvancesFrom c (require condition >>= f) := by
  cases condition with
  | false =>
    refine ⟨fun _ a c' hrun => ?_, fun _ _ => rfl⟩
    cases hrun
  | true => exact ⟨h.reaches, h.shifts⟩

theorem EndsIn.advances_take {lexeme : List Char → Option (List Char)} (h : EndsIn lexeme) :
    Advances (take lexeme) := by
  refine advances_ahead_bind fun c => ?_
  split
  · rename_i hlexeme
    exact .moveTo (h hlexeme)
  · exact Advances.advancesFrom c

instance : Advances gap :=
  advances_ahead_bind fun _ => .moveTo (skipGap_suffix ..)

instance (text : String) : Advances (symbol text) := by
  have := (endsIn_strip? text.toList).advances_take
  unfold symbol
  infer_instance

instance (text : String) : Advances (symbolIf text) := by
  refine advances_ahead_bind fun c => ?_
  dsimp only
  split
  · rename_i hstrip
    exact .moveTo_bind ((endsIn_strip? _ hstrip).trans (skipGap_suffix ..))
  · exact Advances.advancesFrom c

instance : Advances nextChar := by
  unfold nextChar
  infer_instance

instance : Advances word := by
  refine Advances.bind (p := gap) inferInstance fun _ => advances_ahead_bind fun c => ?_
  split
  · rename_i hword
    exact .moveTo_bind (word?_suffix hword)
  · exact Advances.advancesFrom c

instance : Advances nextWord := by
  unfold nextWord
  infer_instance

instance (w : String) : Advances (keyword w) := by
  unfold keyword
  infer_instance

instance (w : String) : Advances (keywordIf w) := by
  unfold keywordIf
  infer_instance

instance : Advances string := by
  have := takes_string?.endsIn.advances_take
  unfold string
  infer_instance

instance (commentEnds : Bool) : Advances (whatFollows commentEnds) := by
  unfold whatFollows
  infer_instance

instance (commentEnds : Bool) : Advances (endStatement commentEnds) := by
  refine advances_whatFollows_bind fun c next hnext => ?_
  split
  · exact .moveTo hnext
  · exact .moveTo ((List.suffix_cons _ _).trans hnext)
  · exact Advances.advancesFrom c

instance (commentEnds : Bool) : Advances (closeIf commentEnds) := by
  refine advances_whatFollows_bind fun c next hnext => ?_
  split
  · exact .moveTo_bind hnext
  · exact Advances.advancesFrom c

/-- A symbol leaves the blocks alone and takes as many characters as it has. -/
theorem run_symbol {text : String} (hfits : c.Fits) (h : (symbol text).run c = some ((), c')) :
    c.Reaches c' ∧ c'.blocks = c.blocks ∧ c.place + text.toList.length ≤ c'.place := by
  obtain ⟨_, c₁, hgap, h⟩ := run_bind_eq_some.mp h
  cases hgap
  obtain ⟨cs, c₁, hahead, h⟩ := run_bind_eq_some.mp h
  cases hahead
  split at h
  · rename_i rest hstrip
    cases h
    have hskip := skipGap_suffix true 0 c.rest
    have hlen : (skipGap true 0 c.rest).length = (text.toList ++ rest).length :=
      congrArg List.length (Text.eq_append_of_strip? hstrip)
    have hle := hskip.length_le
    refine ⟨.moved ((endsIn_strip? _ hstrip).trans hskip), rfl, ?_⟩
    unfold Cursor.Fits at hfits
    rw [List.length_append] at hlen
    show c.length - c.rest.length + text.toList.length ≤ c.length - rest.length
    omega
  · cases h

theorem run_iterate_succ (step : α → Reader (ForInStep α)) (limit : Nat) (a : α) (c : Cursor) :
    (iterate step (limit + 1) a).run c =
      match (step a).run c with
      | none => none
      | some (.done b, c') => some (b, c')
      | some (.yield b, c') => (iterate step limit b).run c' := by
  rw [iterate, StateT.run_bind]
  rcases (step a).run c with _ | ⟨_ | _, _⟩ <;> rfl

/-- What a step returns, moved. -/
def moveStep (move : α → α) : ForInStep α → ForInStep α
  | .done a => .done (move a)
  | .yield a => .yield (move a)

/-- A repetition does the same with more text in front if each of its steps does. -/
theorem run_iterate_shift (P : α → Cursor → Prop) {step : α → Reader (ForInStep α)} {k : Nat}
    {m : α → α}
    (hstep : ∀ a c, P a c → (step (m a)).run (c.shift k) =
      ((step a).run c).map (Prod.map (moveStep m) (Cursor.shift k)))
    (hkept : ∀ a c next c', P a c → (step a).run c = some (next, c') → P next.value c')
    {limit : Nat} {a : α} (ha : P a c) : (iterate step limit (m a)).run (c.shift k) =
      ((iterate step limit a).run c).map (Prod.map m (Cursor.shift k)) := by
  induction limit generalizing a c with
  | zero => rfl
  | succ limit ih =>
    rw [iterate, iterate]
    refine run_bind_shift (hstep a c ha) fun next c' hrun => ?_
    have hnext := hkept a c next c' ha hrun
    cases next with
    | done b => rfl
    | yield b => exact ih hnext

/-- What every step of a repetition keeps holds at its end. -/
theorem run_iterate (P : α → Cursor → Prop) {step : α → Reader (ForInStep α)}
    (hstep : ∀ a c next c', P a c → (step a).run c = some (next, c') → P next.value c')
    {limit : Nat} {a b : α} (ha : P a c) (h : (iterate step limit a).run c = some (b, c')) :
    P b c' := by
  induction limit generalizing a c with
  | zero => cases h
  | succ limit ih =>
    obtain ⟨next, c₁, hrun, h⟩ := run_bind_eq_some.mp h
    have hnext := hstep a c next c₁ ha hrun
    cases next with
    | done b =>
      cases h
      exact hnext
    | yield b => exact ih hnext h

end Retrofit.Script
