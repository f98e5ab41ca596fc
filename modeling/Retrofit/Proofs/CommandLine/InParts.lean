import Retrofit.Proofs.CommandLine.Settling

/-!
# Reading part by part

The reader takes a command line argument by argument. Here it is shown to take it part by part
(`takePart?`):

- an argument that is no word and waits for no value is taken as the part that it is alone
  (`toOption_take`), and so is a word that is no value, once it is looked at (`takeWord_settle?`);
- an option and the value behind it are taken as one part (`TakesEach.cons_cons_eq_bind`);
- an option without the value that it waits for makes a command line wrong
  (`TakesEach.cons_eq_none`).

So whatever takes the arguments one by one takes the parts one by one (`TakesEach.eq_of_parts`).
-/

namespace Retrofit

namespace Switch

/-- No letter alone makes a command only show what it would do. -/
theorem ne_dryRun_of_letter {c : Char} {s : Switch} (h : ofLetter? c = some s) : s ≠ dryRun := by
  unfold ofLetter? at h
  split at h <;> cases h <;> decide

theorem eq_verbose_of_letter {c : Char} {o : GlobalOption}
    (h : (ofLetter? c).bind GlobalOption.ofSwitch? = some o) : o = .verbose := by
  unfold ofLetter? at h
  split at h <;> cases h
  rfl

/-- An option for every command can stand behind every command, and in front of it. -/
theorem ofSwitch?_of_not_belongsTo {place : Option Verb} {s : Switch}
    (h : ¬ s.belongsTo place = true) :
    GlobalOption.ofSwitch? s = none := by
  match s with
  | dryRun | version | help => rfl
  | offline | verbose => exact absurd rfl h

end Switch

namespace Reading

variable {place : Option Verb} {r r' : Reading} {argument next name : String} {rest : List String}
  {s : Setting} {value : String}

/-! ## Parts one by one -/

/-- The reading with one more word that is no value, if there can be one. -/
def addWord? (place : Option Verb) (r : Reading) (word : String) : Option Reading :=
  match place with
  | some .js => some { r with words := r.words ++ [word] }
  | some .completions =>
    if r.shell.isSome then none
    else (Shell.ofName? word).map fun shell => { r with shell := some shell }
  | _ => none

/-- The reading with one more argument that is none of the options for every command. -/
def takeOther? (place : Option Verb) (r : Reading) (argument : String) : Option Reading :=
  if r.wordsOnly then r.addWord? place argument
  else match Token.ofText argument with
    | .wordsFollow => some { r with wordsOnly := true }
    | .word word => r.addWord? place word
    | .named name none =>
      if Switch.ofName? name = some .dryRun ∧ place = some .clean ∧ r.dryRun = false then
        some { r with dryRun := true }
      else none
    | .named _ (some _) | .letters _ => none

/-- The reading with one more part. -/
def takePart? (place : Option Verb) (r : Reading) : Part → Option Reading
  | .option o => (o.give? r.options).map ({ r with options := · })
  | .other argument => r.takeOther? place argument

/-! ## What a part leaves as it is -/

theorem eq_of_addWord? {word : String} (hr : r.addWord? place word = some r') :
    r'.pending = r.pending ∧ r'.options = r.options ∧ r'.wordsOnly = r.wordsOnly := by
  unfold addWord? at hr
  split at hr
  · cases hr
    exact ⟨rfl, rfl, rfl⟩
  · split at hr
    · cases hr
    · obtain ⟨shell, -, rfl⟩ := Option.map_eq_some_iff.mp hr
      exact ⟨rfl, rfl, rfl⟩
  · cases hr

theorem eq_of_takeOther? (hr : r.takeOther? place argument = some r') :
    r'.pending = r.pending ∧ r'.options = r.options ∧
      (Token.ofText argument ≠ .wordsFollow → r'.wordsOnly = r.wordsOnly) := by
  rw [takeOther?] at hr
  split at hr
  · obtain ⟨hpending, hoptions, hwords⟩ := eq_of_addWord? hr
    exact ⟨hpending, hoptions, fun _ => hwords⟩
  · split at hr
    next htoken =>
      cases hr
      exact ⟨rfl, rfl, fun hargument => absurd htoken hargument⟩
    next word htoken =>
      obtain ⟨hpending, hoptions, hwords⟩ := eq_of_addWord? hr
      exact ⟨hpending, hoptions, fun _ => hwords⟩
    next name htoken =>
      split at hr <;> cases hr
      exact ⟨rfl, rfl, fun _ => rfl⟩
    · cases hr
    · cases hr

/-- A part leaves nothing pending. -/
theorem pending_of_takePart? (h : r.pending = none) {p : Part}
    (hr : takePart? place r p = some r') :
    r'.pending = none := by
  cases p with
  | option o =>
    obtain ⟨options, -, rfl⟩ := Option.map_eq_some_iff.mp hr
    exact h
  | other argument => exact (eq_of_takeOther? hr).1.trans h

theorem takePart?_ofArgument (place : Option Verb) (r : Reading) (argument : String) :
    takePart? place r (.ofArgument argument) =
      match GlobalOption.ofArgument? argument with
      | some o => takePart? place r (.option o)
      | none => takeOther? place r argument := by
  rw [Part.ofArgument]
  cases GlobalOption.ofArgument? argument <;> rfl

theorem wordsOnly_of_takePart? (hargument : Token.ofText argument ≠ .wordsFollow)
    (hr : takePart? place r (.ofArgument argument) = some r') : r'.wordsOnly = r.wordsOnly := by
  rw [takePart?_ofArgument] at hr
  split at hr
  · obtain ⟨options, -, rfl⟩ := Option.map_eq_some_iff.mp hr
    rfl
  · exact (eq_of_takeOther? hr).2.2 hargument

/-! ## Arguments one by one -/

theorem toOption_takeSwitch (place : Option Verb) (h : r.pending = none) (s : Switch) :
    (takeSwitch s r).toOption =
      match GlobalOption.ofSwitch? s with
      | some o => takePart? place r (.option o)
      | none => if s = .dryRun ∧ r.dryRun = false then some { r with dryRun := true }
        else none := by
  rw [takeSwitch, settle_of_pending h]
  obtain ⟨⟨_, _, _, _, _, offline, verbose⟩, dryRun, words, shell, pending, wordsOnly⟩ := r
  match s with
  | .help | .version => rfl
  | .dryRun => cases dryRun <;> rfl
  | .offline => cases offline <;> rfl
  | .verbose => cases verbose <;> rfl

/-- The first of the letters behind one hyphen. -/
theorem toOption_takeLetters_cons (h : r.pending = none) (c : Char) (letters : List Char) :
    (takeLetters place (c :: letters) r).toOption =
      ((Switch.ofLetter? c).bind GlobalOption.ofSwitch?).bind fun o =>
        (takePart? place r (.option o)).bind fun r' => (takeLetters place letters r').toOption := by
  rw [takeLetters]
  cases hletter : Switch.ofLetter? c with
  | none => rfl
  | some s =>
    rw [Option.filter_some, Option.bind_some]
    split_ifs with hplace
    · simp only [toOption_bind, toOption_takeSwitch place h s]
      cases GlobalOption.ofSwitch? s with
      | some o => rfl
      | none =>
        rw [if_neg fun hdry => Switch.ne_dryRun_of_letter hletter hdry.1]
        rfl
    · rw [Switch.ofSwitch?_of_not_belongsTo hplace]
      rfl

/-- Two letters or more behind one hyphen are never right. -/
theorem toOption_takeLetters (h : r.pending = none) (c : Char) (letters : List Char) :
    (takeLetters place (c :: letters) r).toOption =
      if letters = [] then
        ((Switch.ofLetter? c).bind GlobalOption.ofSwitch?).bind fun o =>
          takePart? place r (.option o)
      else none := by
  rw [toOption_takeLetters_cons h]
  split_ifs with hletters
  · subst hletters
    exact Option.bind_congr fun o _ => Option.bind_fun_some _
  · -- Both letters would have to be that of the one option that has a letter.
    obtain ⟨d, letters, rfl⟩ := List.exists_cons_of_ne_nil hletters
    refine Option.bind_eq_none_iff.mpr fun o ho => Option.bind_eq_none_iff.mpr fun r' hr' => ?_
    rw [toOption_takeLetters_cons (pending_of_takePart? h hr')]
    refine Option.bind_eq_none_iff.mpr fun o' ho' => ?_
    obtain rfl := Switch.eq_verbose_of_letter ho
    obtain rfl := Switch.eq_verbose_of_letter ho'
    obtain ⟨options, hgive, rfl⟩ := Option.map_eq_some_iff.mp hr'
    obtain ⟨-, -, rfl⟩ := GlobalOption.give?_eq_some_iff.mp hgive
    rfl

theorem toOption_takeSetting (place : Option Verb) (h : r.pending = none) (s : Setting)
    (value : String) :
    (takeSetting s (some value) r).toOption = takePart? place r (.option (.setting s value)) := by
  rw [takeSetting, settle_of_pending h, ok_bind]
  obtain ⟨options, dryRun, words, shell, _, wordsOnly⟩ := r
  cases h
  change settle? ⟨options, dryRun, words, shell, some (.setting s (some value)), wordsOnly⟩ = _
  rw [settle?_of_setting rfl]
  rfl

/-- Only an option of those with a value can have one. -/
theorem toOption_takeNamed_of_value (hs : Setting.ofName? name = none) :
    (takeNamed place name (some value) r).toOption = none := by
  rw [takeNamed, hs]
  cases (Switch.ofName? name).filter (·.belongsTo place) <;> rfl

theorem toOption_takeNamed (h : r.pending = none) (hs : Setting.ofName? name = none) :
    (takeNamed place name none r).toOption =
      match (Switch.ofName? name).bind GlobalOption.ofSwitch? with
      | some o => takePart? place r (.option o)
      | none =>
        if Switch.ofName? name = some .dryRun ∧ place = some .clean ∧ r.dryRun = false then
          some { r with dryRun := true }
        else none := by
  have htake := toOption_takeSwitch place h
  simp only [takeNamed, hs]
  cases Switch.ofName? name with
  | none => simp
  | some switch =>
    match switch with
    | .offline => exact htake .offline
    | .verbose => exact htake .verbose
    | .help => exact htake .help
    | .version =>
      cases place with
      | none => exact htake .version
      | some verb => rfl
    | .dryRun =>
      by_cases hplace : place = some .clean
      · subst hplace
        refine (htake .dryRun).trans ?_
        simp [GlobalOption.ofSwitch?]
      · have hfilter : (some Switch.dryRun).filter (·.belongsTo place) = none := by
          simp [Option.filter_some, Switch.belongsTo, hplace]
        simp [hfilter, GlobalOption.ofSwitch?, hplace]

/-- An argument that is no word and waits for no value is a part. -/
theorem toOption_take (h : r.pending = none) (hwords : r.wordsOnly = false)
    (hword : ∀ word, Token.ofText argument ≠ .word word)
    (hvalue : GlobalOption.awaitedBy? argument = none) :
    (take place r argument).toOption = takePart? place r (.ofArgument argument) := by
  obtain ⟨options, dryRun, words, shell, _, _⟩ := r
  cases h
  cases hwords
  rw [take, takePart?_ofArgument, GlobalOption.ofArgument?, takeOther?]
  rw [GlobalOption.awaitedBy?] at hvalue
  cases htoken : Token.ofText argument with
  | wordsFollow => rfl
  | word word => exact absurd htoken (hword word)
  | letters letters =>
    obtain ⟨c, letters, rfl⟩ := Token.exists_cons_of_letters htoken
    refine (toOption_takeLetters rfl c letters).trans ?_
    cases letters with
    | nil =>
      dsimp only
      cases (Switch.ofLetter? c).bind GlobalOption.ofSwitch? <;> rfl
    | cons => rfl
  | named name value =>
    rw [htoken] at hvalue
    cases value with
    | none => exact toOption_takeNamed rfl hvalue
    | some value =>
      cases hs : Setting.ofName? name with
      | some s =>
        have htake :=
          toOption_takeSetting (r := { options, dryRun, words, shell }) place rfl s value
        simpa [takeNamed, hs] using htake
      | none =>
        simp [toOption_takeNamed_of_value hs, hs]

/-- A word that is no value is a part. -/
theorem takeWord_settle? (h : r.pending = none) (word : String) :
    (takeWord place word r).toOption.bind settle? = r.addWord? place word := by
  obtain ⟨options, dryRun, words, shell, _, wordsOnly⟩ := r
  cases h
  match place with
  | some .js => rfl
  | some .completions =>
    cases shell with
    | some shell => rfl
    | none =>
      change settle? ⟨options, dryRun, words, none, some (.shell word), wordsOnly⟩ = _
      rw [settle?_of_shell rfl]
      simp [addWord?]
  | some .patch | some .list | some .modules | some .files | some .clean => rfl
  | none =>
    rw [takeWord]
    split <;> rfl

theorem waiting?_of_takeWord {word : String} (h : r.pending = none)
    (hr : (takeWord place word r).toOption = some r') : r'.waiting? = none := by
  obtain ⟨options, dryRun, words, shell, _, wordsOnly⟩ := r
  cases h
  match place with
  | some .js =>
    cases hr
    rfl
  | some .completions =>
    cases shell with
    | some shell => cases hr
    | none =>
      cases hr
      rfl
  | some .patch | some .list | some .modules | some .files | some .clean => cases hr
  | none =>
    rw [takeWord] at hr
    split at hr <;> cases hr

/-- An option that waits for its value. -/
theorem take_of_awaitedBy (place : Option Verb) (h : r.pending = none)
    (hwords : r.wordsOnly = false) (hvalue : GlobalOption.awaitedBy? argument = some s) :
    take place r argument = .ok { r with pending := some (.setting s none) } ∧
      ∀ word, Token.ofText argument ≠ .word word := by
  rw [GlobalOption.awaitedBy?] at hvalue
  split at hvalue
  next name htoken =>
    refine ⟨?_, by simp [htoken]⟩
    simp [take, hwords, htoken, takeNamed, hvalue, takeSetting, settle_of_pending h,
      ok_bind, pure_eq_ok]
  · cases hvalue

/-- Without its value it is no part of a command line that is right. -/
theorem takePart?_of_awaitedBy (hwords : r.wordsOnly = false)
    (hvalue : GlobalOption.awaitedBy? argument = some s) :
    takePart? place r (.ofArgument argument) = none := by
  rw [GlobalOption.awaitedBy?] at hvalue
  split at hvalue
  next name htoken =>
    have hswitch : Switch.ofName? name = none := by
      refine Option.eq_none_iff_forall_ne_some.mpr fun switch hswitch => ?_
      rw [Setting.ofName?_of_switch hswitch] at hvalue
      cases hvalue
    simp [takePart?_ofArgument, GlobalOption.ofArgument?, takeOther?, htoken, hwords, hswitch]
  · cases hvalue

/-! ## Parts one by one -/

namespace TakesEach

variable {α : Type} {f : Reading → List String → Option α} {arguments : List String}

/-- An option waits in vain if no value follows. -/
theorem eq_none_of_waiting (hf : TakesEach place f) (h : r.pending = some (.setting s none))
    (hvalue : r.wordsOnly = true ∨
      ∀ argument ∈ arguments.head?, ∀ word, Token.ofText argument ≠ .word word) :
    f r arguments = none := by
  induction arguments generalizing r with
  | nil => rw [hf.nil, settle?_of_waiting h, Option.bind_none]
  | cons argument rest ih =>
    have hwaiting : r.waiting? ≠ none := by simp [waiting?, h]
    rw [hf.cons r argument rest (.inr (.inl hwaiting))]
    have hfirst : ∀ g : Reading → Except UsageError Reading, SettlesFirst g →
        (g r).toOption = none := by
      intro g hg
      rw [hg r, settle?_of_waiting h, Option.bind_none]
    cases hwords : r.wordsOnly with
    | true =>
      rw [take, if_pos hwords, hfirst _ (settlesFirst_takeWord place argument), Option.bind_none]
    | false =>
      rw [hwords] at hvalue
      have hword := hvalue.resolve_left Bool.false_ne_true argument rfl
      rw [take, hwords, if_neg Bool.false_ne_true]
      cases htoken : Token.ofText argument with
      | word word => exact absurd htoken (hword word)
      | wordsFollow => exact ih (by exact h) (.inl rfl)
      | named name value => simp [hfirst _ (settlesFirst_takeNamed place name value)]
      | letters letters =>
        obtain ⟨c, letters, rfl⟩ := Token.exists_cons_of_letters htoken
        simp [hfirst _ (settlesFirst_takeLetters place c letters)]

/-- An argument that waits for no value is a part. -/
theorem cons_eq_bind (hf : TakesEach place f) (h : r.pending = none) (hwords : r.wordsOnly = false)
    (hvalue : GlobalOption.awaitedBy? argument = none)
    (hcons : f r (argument :: rest) = (take place r argument).toOption.bind (f · rest)) :
    f r (argument :: rest) = (takePart? place r (.ofArgument argument)).bind (f · rest) := by
  cases htoken : Token.ofText argument with
  | wordsFollow | named | letters => rw [hcons, toOption_take h hwords (by simp [htoken]) hvalue]
  | word word =>
    have hwaiting : r.waiting? = none := by rw [waiting?, h]
    have htake : take place r argument = takeWord place word r := by
      simp [take, hwords, htoken, hwaiting]
    have hpart : takePart? place r (.ofArgument argument) = r.addWord? place word := by
      simp [Part.ofArgument_of_word htoken, takePart?, takeOther?, htoken, hwords]
    rw [hcons, htake, hpart, ← takeWord_settle? h, Option.bind_assoc]
    exact Option.bind_congr fun r' hr' => hf.eq_of_not_waiting (waiting?_of_takeWord h hr') rest

/-- An option and the value behind it are a part. -/
theorem cons_cons_eq_bind (hf : TakesEach place f) (h : r.pending = none)
    (hwords : r.wordsOnly = false)
    {o : GlobalOption} (ho : GlobalOption.ofArguments? argument next = some o) :
    f r (argument :: next :: rest) = (takePart? place r (.option o)).bind (f · rest) := by
  rw [GlobalOption.ofArguments?] at ho
  split at ho
  next s value hvalue hnext =>
    cases ho
    obtain ⟨htake, hword⟩ := take_of_awaitedBy place h hwords hvalue
    have htakeNext : take place { r with pending := some (.setting s none) } next =
        .ok { r with pending := some (.setting s (some value)) } := by
      simp [take, hwords, hnext, waiting?]
    rw [hf.cons r argument _ (.inr (.inr hword)), htake, toOption_ok, Option.bind_some,
      hf.cons _ next rest (.inr (.inl (by simp [waiting?]))), htakeNext, toOption_ok,
        Option.bind_some,
      hf.eq_of_not_waiting rfl, settle?_of_setting rfl]
    obtain ⟨options, dryRun, words, shell, _, wordsOnly⟩ := r
    cases h
    rfl
  · cases ho

/-- An option without the value it waits for makes a command line wrong. -/
theorem cons_eq_none (hf : TakesEach place f) (h : r.pending = none) (hwords : r.wordsOnly = false)
    (hvalue : GlobalOption.awaitedBy? argument = some s)
    (hrest : ∀ next ∈ rest.head?, ∀ word, Token.ofText next ≠ .word word) :
    f r (argument :: rest) = none := by
  obtain ⟨htake, hword⟩ := take_of_awaitedBy place h hwords hvalue
  rw [hf.cons r argument rest (.inr (.inr hword)), htake, toOption_ok, Option.bind_some]
  exact hf.eq_none_of_waiting rfl (.inr hrest)

/-- **A command line means what its parts mean one by one**, if that holds where a word begins and
where two hyphens stand. -/
theorem eq_of_parts (hf : TakesEach place f) {g : Reading → List Part → Option α}
    (hnil : ∀ r : Reading, r.pending = none → f r [] = g r [])
    (hpart : ∀ r p ps, (∀ argument, p = .other argument →
        Token.ofText argument ≠ .wordsFollow ∧ ∀ word, Token.ofText argument ≠ .word word) →
      g r (p :: ps) = (takePart? place r p).bind (g · ps))
    (hword : ∀ (r : Reading) word rest, r.pending = none → r.wordsOnly = false →
      Token.ofText word = .word word →
      (∀ r' : Reading, r'.pending = none → r'.wordsOnly = false →
        f r' rest = g r' (CommandLine.parts rest)) →
      f r (word :: rest) = g r (.other word :: CommandLine.parts rest))
    (hfollow : ∀ (r : Reading) argument rest, r.pending = none → r.wordsOnly = false →
      Token.ofText argument = .wordsFollow →
      f r (argument :: rest) = g r (.other argument :: rest.map .other))
    (h : r.pending = none) (hwords : r.wordsOnly = false) :
    f r arguments = g r (CommandLine.parts arguments) := by
  have halone : ∀ (r : Reading) (argument : String) (rest : List String),
      r.pending = none → r.wordsOnly = false → Token.ofText argument ≠ .wordsFollow →
      (∀ s, GlobalOption.awaitedBy? argument = some s →
        ∀ next ∈ rest.head?, ∀ word, Token.ofText next ≠ .word word) →
      (∀ r' : Reading, r'.pending = none → r'.wordsOnly = false →
        f r' rest = g r' (CommandLine.parts rest)) →
      f r (argument :: rest) = g r (.ofArgument argument :: CommandLine.parts rest) := by
    intro r argument rest h hwords hfollow hvalue ih
    by_cases hargument : ∃ word, Token.ofText argument = .word word
    · obtain ⟨word, htoken⟩ := hargument
      obtain rfl := Token.eq_of_word htoken
      rw [Part.ofArgument_of_word htoken]
      exact hword r word rest h hwords htoken ih
    · rw [not_exists] at hargument
      have hstep : g r (.ofArgument argument :: CommandLine.parts rest) =
          (takePart? place r (.ofArgument argument)).bind (g · (CommandLine.parts rest)) := by
        refine hpart r _ _ fun argument' heq => ?_
        obtain rfl := Part.eq_of_ofArgument heq
        exact ⟨hfollow, hargument⟩
      cases hwaits : GlobalOption.awaitedBy? argument with
      | some s =>
        rw [hf.cons_eq_none h hwords hwaits (hvalue s hwaits), hstep,
          takePart?_of_awaitedBy hwords hwaits, Option.bind_none]
      | none =>
        rw [hf.cons_eq_bind h hwords hwaits (hf.cons r argument rest (.inr (.inr hargument))),
          hstep]
        refine Option.bind_congr fun r' hr' => ih r' (pending_of_takePart? h hr') ?_
        exact (wordsOnly_of_takePart? hfollow hr').trans hwords
  induction arguments using CommandLine.parts.induct generalizing r with
  | case1 => exact hnil r h
  | case2 argument =>
    by_cases htoken : Token.ofText argument = .wordsFollow
    · rw [CommandLine.parts, Part.ofArgument_of_wordsFollow htoken]
      exact hfollow r argument [] h hwords htoken
    · exact halone r argument [] h hwords htoken (by simp) fun r' h' _ => hnil r' h'
  | case3 argument next rest htoken =>
    rw [CommandLine.parts, if_pos htoken]
    exact hfollow r argument (next :: rest) h hwords htoken
  | case4 argument next rest htoken o ho ih =>
    rw [CommandLine.parts, if_neg htoken, ho, hf.cons_cons_eq_bind h hwords ho,
      hpart r _ _ (by simp)]
    refine Option.bind_congr fun r' hr' => ih (pending_of_takePart? h hr') ?_
    obtain ⟨options, -, rfl⟩ := Option.map_eq_some_iff.mp hr'
    exact hwords
  | case5 argument next rest htoken hnone ih =>
    rw [CommandLine.parts, if_neg htoken, hnone]
    refine halone r argument (next :: rest) h hwords htoken ?_ fun r' h' hwords' => ih h' hwords'
    intro s hs next' hnext word hword
    cases hnext
    simp [GlobalOption.ofArguments?, hs, hword] at hnone

end TakesEach

end Reading

end Retrofit
