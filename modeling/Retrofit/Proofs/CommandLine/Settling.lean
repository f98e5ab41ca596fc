import Retrofit.Proofs.CommandLine.Parts
import Retrofit.Proofs.Except

/-!
# Values are looked at in time

A reading leaves the last value pending until the next argument, or the end, makes it look
(`settle`). As far as it matters whether a command line is accepted and what it means, the reading
may as well look at once:

- a step that begins by looking at what is pending does the same from the settled reading
  (`SettlesFirst`);
- every argument is such a step, except the two hyphens, which leave all as it is
  (`take_of_not_waiting`);
- so every meaning of the arguments that takes them one by one is the same from the settled reading
  (`TakesEach.eq_of_not_waiting`).

Only which of two mistakes is reported would change.
-/

namespace Retrofit.Reading

variable {place : Option Verb} {r r' : Reading} {argument next name : String} {rest : List String}
  {s : Setting} {value : String}

/-- The reading in which nothing is pending any more. -/
def settle? (r : Reading) : Option Reading :=
  r.settle.toOption

/-- What the arguments in one place say behind those that have been read. -/
def run? (place : Option Verb) (r : Reading) (arguments : List String) : Option Reading :=
  (arguments.foldlM (take place) r >>= settle).toOption

/-! ## Settling -/

theorem settle_of_pending (h : r.pending = none) : r.settle = .ok r := by
  rw [settle, h]

theorem settle?_of_pending (h : r.pending = none) : r.settle? = some r := by
  rw [settle?, settle_of_pending h]
  rfl

theorem settle?_of_waiting (h : r.pending = some (.setting s none)) : r.settle? = none := by
  rw [settle?, settle, h]
  rfl

theorem settle?_of_setting (h : r.pending = some (.setting s (some value))) :
    r.settle? = (GlobalOption.give? r.options (.setting s value)).map fun options =>
      { r with options, pending := none } := by
  rw [settle?, settle, h, GlobalOption.give?]
  cases hgiven : (s.get? r.options).isSome <;> cases hallowed : s.allows value <;>
    simp [GlobalOption.isGiven, GlobalOption.allowed, GlobalOption.give, hgiven, hallowed,
      Except.toOption]

theorem settle?_of_shell (h : r.pending = some (.shell name)) :
    r.settle? = (Shell.ofName? name).map fun shell => { r with shell, pending := none } := by
  rw [settle?, settle, h]
  simp only
  cases Shell.ofName? name <;> rfl

theorem pending_of_settle? (h : r.settle? = some r') :
    r'.pending = none ∧ r'.wordsOnly = r.wordsOnly := by
  match hpending : r.pending with
  | none =>
    rw [settle?_of_pending hpending] at h
    obtain rfl := Option.some.inj h
    exact ⟨hpending, rfl⟩
  | some (.setting _ none) =>
    rw [settle?_of_waiting hpending] at h
    cases h
  | some (.setting _ (some _)) =>
    rw [settle?_of_setting hpending, Option.map_eq_some_iff] at h
    obtain ⟨_, -, rfl⟩ := h
    exact ⟨rfl, rfl⟩
  | some (.shell _) =>
    rw [settle?_of_shell hpending, Option.map_eq_some_iff] at h
    obtain ⟨_, -, rfl⟩ := h
    exact ⟨rfl, rfl⟩

/-! ## Steps -/

/-- Whether a step begins by looking at what is pending. -/
def SettlesFirst {α : Type} (f : Reading → Except UsageError α) : Prop :=
  ∀ r, (f r).toOption = r.settle?.bind fun r' => (f r').toOption

theorem settlesFirst_error {α : Type} (e : UsageError) :
    SettlesFirst fun _ => (.error e : Except UsageError α) := by
  intro r
  cases r.settle? <;> rfl

theorem settlesFirst_settle {α : Type} (f : Reading → Except UsageError α) :
    SettlesFirst fun r => r.settle >>= f := by
  intro r
  cases hsettled : r.settle with
  | error e => simp [settle?, hsettled, Except.toOption, error_bind]
  | ok r' =>
    have hsome : r.settle? = some r' := by rw [settle?, hsettled]; rfl
    have hagain : r'.settle = .ok r' := settle_of_pending (pending_of_settle? hsome).1
    simp only [hsome, Option.bind_some, hsettled, hagain]

theorem SettlesFirst.bind {α β : Type} {f : Reading → Except UsageError α} (h : SettlesFirst f)
    (g : α → Except UsageError β) : SettlesFirst fun r => f r >>= g := by
  intro r
  simp only [toOption_bind]
  rw [h r, Option.bind_assoc]

theorem settlesFirst_takeSwitch (s : Switch) : SettlesFirst (takeSwitch s) :=
  settlesFirst_settle _

theorem settlesFirst_takeSetting (s : Setting) (value : Option String) :
    SettlesFirst (takeSetting s value) :=
  settlesFirst_settle _

theorem settlesFirst_takeLetters (place : Option Verb) (c : Char) (letters : List Char) :
    SettlesFirst (takeLetters place (c :: letters)) := by
  cases hswitch : (Switch.ofLetter? c).filter (·.belongsTo place) with
  | none =>
    have heq : takeLetters place (c :: letters) = fun _ => .error .unknownArgument := by
      funext r
      rw [takeLetters, hswitch]
    rw [heq]
    exact settlesFirst_error _
  | some s =>
    have heq : takeLetters place (c :: letters) =
        fun r => r.takeSwitch s >>= takeLetters place letters := by
      funext r
      rw [takeLetters, hswitch]
    rw [heq]
    exact (settlesFirst_takeSwitch s).bind _

theorem settlesFirst_takeNamed (place : Option Verb) (name : String) (value : Option String) :
    SettlesFirst (takeNamed place name value) := by
  unfold takeNamed
  split
  · exact settlesFirst_takeSetting _ _
  · split
    · split
      · exact settlesFirst_error _
      · exact settlesFirst_takeSwitch _
    · exact settlesFirst_error _

/-- A word behind a command for which one is enough. What is pending may be the first one. -/
theorem settlesFirst_takeWord_completions (word : String) :
    SettlesFirst (takeWord (some .completions) word) := by
  intro r
  match hpending : r.pending with
  | none => rw [settle?_of_pending hpending, Option.bind_some]
  | some (.setting s none) =>
    rw [settle?_of_waiting hpending, Option.bind_none, takeWord]
    cases hshell : r.shell <;> simp [hpending, settle]
  | some (.setting s (some value)) =>
    rw [takeWord, hpending]
    cases hshell : r.shell with
    | some shell =>
      rw [settle?_of_setting hpending]
      cases GlobalOption.give? r.options (.setting s value) <;> simp [takeWord, hshell]
    | none =>
      simp only [toOption_bind]
      rw [← settle?, settle?_of_setting hpending]
      cases GlobalOption.give? r.options (.setting s value) <;> simp [takeWord, hshell, settle]
  | some (.shell name) =>
    rw [settle?_of_shell hpending]
    cases Shell.ofName? name <;> cases hshell : r.shell <;> simp [takeWord, hshell, hpending]

theorem toOption_takeWord_none (word : String) (r : Reading) :
    (takeWord none word r).toOption = none := by
  rw [takeWord]
  split <;> rfl

theorem settlesFirst_takeWord (place : Option Verb) (word : String) :
    SettlesFirst (takeWord place word) := by
  match place with
  | some .js => exact settlesFirst_settle _
  | some .completions => exact settlesFirst_takeWord_completions word
  | some .patch | some .list | some .modules | some .files | some .clean =>
    exact settlesFirst_error _
  | none =>
    intro r
    rw [toOption_takeWord_none]
    cases r.settle? <;> simp [toOption_takeWord_none]

/-- At the latest the next argument makes a reading look at what is pending, unless it is the two
hyphens. -/
theorem take_of_not_waiting (hwaiting : r.waiting? = none)
    (hargument : r.wordsOnly = true ∨ Token.ofText argument ≠ .wordsFollow) :
    (take place r argument).toOption =
      r.settle?.bind fun r' => (take place r' argument).toOption := by
  -- The step that the argument stands for depends only on what settling does not change.
  obtain ⟨f, hfirst, hf⟩ : ∃ f, SettlesFirst f ∧ ∀ r', r'.waiting? = none →
      r'.wordsOnly = r.wordsOnly → take place r' argument = f r' := by
    cases hwords : r.wordsOnly with
    | true =>
      refine ⟨_, settlesFirst_takeWord place argument, fun r' _ hwords' => ?_⟩
      rw [take, if_pos hwords']
    | false =>
      cases htoken : Token.ofText argument with
      | wordsFollow => simp [hwords, htoken] at hargument
      | named name value =>
        refine ⟨_, settlesFirst_takeNamed place name value, fun r' _ hwords' => ?_⟩
        simp [take, hwords', htoken]
      | letters letters =>
        obtain ⟨c, letters, rfl⟩ := Token.exists_cons_of_letters htoken
        refine ⟨_, settlesFirst_takeLetters place c letters, fun r' _ hwords' => ?_⟩
        simp [take, hwords', htoken]
      | word word =>
        refine ⟨_, settlesFirst_takeWord place word, fun r' hwaiting' hwords' => ?_⟩
        simp [take, hwords', htoken, hwaiting']
  rw [hf r hwaiting rfl, hfirst r]
  refine Option.bind_congr fun r' hsettled => ?_
  obtain ⟨hpending, hwords⟩ := pending_of_settle? hsettled
  rw [hf r' (by rw [waiting?, hpending]) hwords]

/-- What is pending does not depend on whether only words follow. -/
theorem settle?_words (r : Reading) :
    settle? { r with wordsOnly := true } = r.settle?.map ({ · with wordsOnly := true }) := by
  obtain ⟨options, dryRun, words, shell, pending, wordsOnly⟩ := r
  match pending with
  | none =>
    rw [settle?_of_pending rfl, settle?_of_pending rfl]
    rfl
  | some (.setting _ none) =>
    rw [settle?_of_waiting rfl, settle?_of_waiting rfl]
    rfl
  | some (.setting _ (some _)) =>
    rw [settle?_of_setting rfl, settle?_of_setting rfl, Option.map_map]
    rfl
  | some (.shell _) =>
    rw [settle?_of_shell rfl, settle?_of_shell rfl, Option.map_map]
    rfl

/-! ## Runs -/

/-- That `f` takes the arguments behind a reading one by one. A word that is no value may mean
something else to it, but only once the value in front of the word has been looked at. -/
structure TakesEach {α : Type} (place : Option Verb) (f : Reading → List String → Option α) :
    Prop where
  nil : ∀ r : Reading, f r [] = r.settle?.bind (f · [])
  cons : ∀ (r : Reading) (argument : String) (rest : List String),
    r.wordsOnly = true ∨ r.waiting? ≠ none ∨ (∀ word, Token.ofText argument ≠ .word word) →
    f r (argument :: rest) = (take place r argument).toOption.bind (f · rest)
  word : ∀ (r : Reading) (word : String) (rest : List String),
    r.wordsOnly = false → r.waiting? = none → Token.ofText word = .word word →
    f r (word :: rest) = r.settle?.bind (f · (word :: rest))

namespace TakesEach

variable {α : Type} {f : Reading → List String → Option α}

/-- What is pending can be looked at at once. -/
theorem eq_of_not_waiting (hf : TakesEach place f) (h : r.waiting? = none)
    (arguments : List String) :
    f r arguments = r.settle?.bind (f · arguments) := by
  induction arguments generalizing r with
  | nil => exact hf.nil r
  | cons argument rest ih =>
    cases hwords : r.wordsOnly with
    | true =>
      rw [hf.cons r argument rest (.inl hwords), take_of_not_waiting h (.inl hwords),
        Option.bind_assoc]
      refine Option.bind_congr fun r' hsettled => ?_
      rw [hf.cons r' argument rest (.inl ((pending_of_settle? hsettled).2.trans hwords))]
    | false =>
      cases htoken : Token.ofText argument with
      | word word =>
        obtain rfl := Token.eq_of_word htoken
        exact hf.word r word rest hwords h htoken
      | wordsFollow =>
        -- Here `take` does not look at what is pending: the arguments behind the two hyphens do.
        have hword : ∀ word, Token.ofText argument ≠ .word word := by simp [htoken]
        have htake : ∀ r' : Reading, r'.wordsOnly = false →
            take place r' argument = .ok { r' with wordsOnly := true } := by
          intro r' hwords'
          rw [take, hwords', if_neg Bool.false_ne_true, htoken]
        rw [hf.cons r argument rest (.inr (.inr hword)), htake r hwords, toOption_ok,
          Option.bind_some, ih (by exact h), settle?_words, Option.bind_map]
        refine Option.bind_congr fun r' hsettled => ?_
        rw [hf.cons r' argument rest (.inr (.inr hword)),
          htake r' ((pending_of_settle? hsettled).2.trans hwords)]
        rfl
      | named | letters =>
        have hword : ∀ word, Token.ofText argument ≠ .word word := by simp [htoken]
        have hargument : r.wordsOnly = true ∨ Token.ofText argument ≠ .wordsFollow := by
          simp [htoken]
        simp only [hf.cons _ argument rest (.inr (.inr hword))]
        rw [take_of_not_waiting h hargument, Option.bind_assoc]

end TakesEach

theorem run?_cons :
    run? place r (argument :: rest) =
      (take place r argument).toOption.bind (run? place · rest) := by
  simp only [run?, List.foldlM_cons, toOption_bind, Option.bind_assoc]

theorem takesEach_run? (place : Option Verb) : TakesEach place (run? place) where
  nil r := by
    have hsettled : ∀ r', r.settle? = some r' → run? place r' [] = some r' := fun r' h' =>
      settle?_of_pending (pending_of_settle? h').1
    rw [Option.bind_congr hsettled, Option.bind_fun_some]
    rfl
  cons r argument rest _ := run?_cons
  word r word rest _ hwaiting htoken := by
    simp only [run?_cons]
    rw [take_of_not_waiting hwaiting (.inr (by simp [htoken])), Option.bind_assoc]

end Retrofit.Reading
