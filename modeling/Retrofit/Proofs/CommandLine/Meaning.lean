import Retrofit.Proofs.CommandLine.InParts

/-!
# What the parts of a command line mean

**One place.** What the arguments behind a command say, their parts say one by one
(`run?_eq_foldlM`), and of these the options and the other arguments can be read apart
(`foldlM_takePart?`).

**Whole command lines.** A command line means what its parts mean (`toOption_readFrom`). So what is
accepted has the command that the other arguments name (`commandOf?`) and the options that are given
(`eq_of_ofArguments`), and a command is accepted with any options that are allowed and given once
(`ofArguments_of_once`).
-/

namespace Retrofit

namespace Reading

variable {place : Option Verb} {r r' : Reading} {arguments : List String}

/-! ## One place -/

theorem run?_of_wordsOnly (h : r.pending = none) (hwords : r.wordsOnly = true) :
    run? place r arguments = (arguments.map Part.other).foldlM (takePart? place) r := by
  induction arguments generalizing r with
  | nil => exact settle?_of_pending h
  | cons argument rest ih =>
    have htake : take place r argument = takeWord place argument r := by rw [take, if_pos hwords]
    have hpart : takePart? place r (.other argument) =
        (takeWord place argument r).toOption.bind settle? := by
      rw [takeWord_settle? h, takePart?, takeOther?, if_pos hwords]
    have hlate : ∀ r', (takeWord place argument r).toOption = some r' →
        run? place r' rest = r'.settle?.bind (run? place · rest) := fun r' hr' =>
      (takesEach_run? place).eq_of_not_waiting (waiting?_of_takeWord h hr') rest
    rw [run?_cons, htake, Option.bind_congr hlate, ← Option.bind_assoc, ← hpart, List.map_cons,
      List.foldlM_cons]
    refine Option.bind_congr fun r' hr' => ih (pending_of_takePart? h hr') ?_
    rw [takePart?, takeOther?, if_pos hwords] at hr'
    exact (eq_of_addWord? hr').2.2.trans hwords

/-- What the arguments in one place say, their parts say one by one. -/
theorem run?_eq_foldlM (h : r.pending = none) (hwords : r.wordsOnly = false) :
    run? place r arguments = (CommandLine.parts arguments).foldlM (takePart? place) r := by
  have hcons : ∀ (r : Reading) argument rest, r.pending = none → r.wordsOnly = false →
      GlobalOption.awaitedBy? argument = none →
      run? place r (argument :: rest) =
        (takePart? place r (.ofArgument argument)).bind (run? place · rest) := by
    intro r argument rest h hwords hvalue
    exact (takesEach_run? place).cons_eq_bind h hwords hvalue run?_cons
  refine (takesEach_run? place).eq_of_parts (g := fun r ps => ps.foldlM (takePart? place) r)
    (fun r h => settle?_of_pending h) (fun r p ps _ => List.foldlM_cons) ?_ ?_ h hwords
  · intro r word rest h hwords htoken ih
    rw [hcons r word rest h hwords (by simp [GlobalOption.awaitedBy?, htoken]),
      Part.ofArgument_of_word htoken, List.foldlM_cons]
    refine Option.bind_congr fun r' hr' => ih r' (pending_of_takePart? h hr') ?_
    exact ((eq_of_takeOther? hr').2.2 (by simp [htoken])).trans hwords
  · intro r argument rest h hwords htoken
    have hpart : takePart? place r (.other argument) = some { r with wordsOnly := true } := by
      simp [takePart?, takeOther?, hwords, htoken]
    rw [hcons r argument rest h hwords (by simp [GlobalOption.awaitedBy?, htoken]),
      Part.ofArgument_of_wordsFollow htoken, List.foldlM_cons, hpart]
    exact run?_of_wordsOnly h rfl

/-! ## Options and other arguments apart -/

theorem addWord?_options (place : Option Verb) (r : Reading) (options : GlobalOptions)
    (word : String) :
    addWord? place { r with options } word = (addWord? place r word).map ({ · with options }) := by
  unfold addWord?
  split
  · rfl
  · split
    · rfl
    · rw [Option.map_map]
      rfl
  · rfl

theorem takeOther?_options (place : Option Verb) (r : Reading) (options : GlobalOptions)
    (argument : String) :
    takeOther? place { r with options } argument =
      (takeOther? place r argument).map ({ · with options }) := by
  rw [takeOther?, takeOther?]
  split
  · exact addWord?_options ..
  · split
    · rfl
    · exact addWord?_options ..
    · split <;> rfl
    · rfl
    · rfl

/-- The options have no part in what the other arguments say. -/
theorem foldlM_takeOther?_options (options : GlobalOptions) (others : List String) :
    others.foldlM (takeOther? place) { r with options } =
      (others.foldlM (takeOther? place) r).map ({ · with options }) := by
  induction others generalizing r with
  | nil => rfl
  | cons argument rest ih =>
    rw [List.foldlM_cons, List.foldlM_cons, takeOther?_options]
    cases takeOther? place r argument with
    | none => rfl
    | some r' => exact ih

/-- The options and the other arguments can be read apart. -/
theorem foldlM_takePart? (place : Option Verb) (r : Reading) (ps : List Part) :
    ps.foldlM (takePart? place) r =
      ((ps.filterMap Part.option?).foldlM GlobalOption.give? r.options).bind fun options =>
        ((ps.filterMap Part.other?).foldlM (takeOther? place) r).map ({ · with options }) := by
  induction ps generalizing r with
  | nil => rfl
  | cons p rest ih =>
    cases p with
    | option o =>
      rw [List.foldlM_cons, takePart?, Part.filterMap_option?_option, Part.filterMap_other?_option,
        List.foldlM_cons]
      cases hgive : GlobalOption.give? r.options o with
      | none => rfl
      | some options =>
        refine (ih { r with options }).trans (Option.bind_congr fun options' _ => ?_)
        rw [foldlM_takeOther?_options, Option.map_map]
        rfl
    | other argument =>
      rw [List.foldlM_cons, takePart?, Part.filterMap_option?_other, Part.filterMap_other?_other,
        List.foldlM_cons]
      cases htake : takeOther? place r argument with
      | none => cases (rest.filterMap Part.option?).foldlM GlobalOption.give? r.options <;> rfl
      | some r' =>
        refine (ih r').trans ?_
        rw [(eq_of_takeOther? htake).2.1]
        rfl

end Reading

/-! ## Options that are given once -/

namespace GlobalOption

variable {options options' : GlobalOptions} {given : List GlobalOption}

theorem foldlM_give?_eq_some (h : given.foldlM give? options = some options') :
    (∀ o ∈ given, o.allowed = true) ∧ options' = given.foldl give options := by
  induction given generalizing options with
  | nil =>
    cases h
    exact ⟨by simp, rfl⟩
  | cons o rest ih =>
    obtain ⟨between, hgive, hrest⟩ := Option.bind_eq_some_iff.mp h
    obtain ⟨hallowed, -, rfl⟩ := give?_eq_some_iff.mp hgive
    obtain ⟨hothers, rfl⟩ := ih hrest
    exact ⟨List.forall_mem_cons.mpr ⟨hallowed, hothers⟩, rfl⟩

/-- Giving the first option does not give the others. -/
theorem isGiven_give_of_once {o : GlobalOption} (honce : ((o :: given).map name).Nodup)
    (hnew : ∀ o' ∈ given, o'.isGiven options = false) :
    ∀ o' ∈ given, o'.isGiven (give options o) = false := by
  intro o' ho'
  have hname : o.name ≠ o'.name := fun heq =>
    (List.nodup_cons.mp honce).1 (heq ▸ List.mem_map_of_mem ho')
  rw [isGiven_give hname, hnew o' ho']

theorem foldlM_give?_of_once (honce : (given.map name).Nodup)
    (hallowed : ∀ o ∈ given, o.allowed = true) (hnew : ∀ o ∈ given, o.isGiven options = false) :
    given.foldlM give? options = some (given.foldl give options) := by
  induction given generalizing options with
  | nil => rfl
  | cons o rest ih =>
    rw [List.forall_mem_cons] at hallowed hnew
    have hgive : give? options o = some (give options o) :=
      give?_eq_some_iff.mpr ⟨hallowed.1, hnew.1, rfl⟩
    rw [List.foldlM_cons, hgive]
    exact ih (List.nodup_cons.mp honce).2 hallowed.2 (isGiven_give_of_once honce hnew.2)

end GlobalOption

/-! ## Whole command lines -/

namespace Verb

theorem command_options (verb : Verb) (r : Reading) (options : GlobalOptions) :
    verb.command { r with options } = verb.command r := by
  cases verb <;> rfl

theorem ofText_of_verb {argument : String} {verb : Verb} (h : ofText? argument = some verb) :
    Token.ofText argument = .word argument := by
  unfold ofText? at h
  split at h <;> first | (cases h; done) | decide +kernel

theorem ofText?_eq_none {argument : String} (h : ∀ word, Token.ofText argument ≠ .word word) :
    ofText? argument = none :=
  Option.eq_none_iff_forall_ne_some.mpr fun _ hverb => h argument (ofText_of_verb hverb)

end Verb

/-- The options with the place of the catalog that the environment names, if they name none. -/
def GlobalOptions.withEnvironment (options : GlobalOptions) (environment : Option String) :
    GlobalOptions :=
  { options with patches := options.patches <|> environment }

namespace CommandLine

/-- The command that the arguments name which are none of the options for every command. -/
def commandOf? : List String → Option Command
  | [] => none
  | argument :: rest => do
    let verb ← Verb.ofText? argument
    let r ← rest.foldlM (Reading.takeOther? (some verb)) {}
    (verb.command r).toOption

end CommandLine

namespace Invocation

variable {environment : Option String} {r : Reading} {argument word : String}
  {rest arguments : List String}

theorem toOption_behind (verb : Verb) (arguments : List String) :
    (behind verb arguments).toOption =
      ((CommandLine.parts arguments).foldlM (Reading.takePart? (some verb)) {}).bind fun r =>
        (verb.command r).toOption.map fun command => ⟨r.options, command⟩ := by
  rw [← Reading.run?_eq_foldlM rfl rfl, Reading.run?, behind, toOption_bind, toOption_bind,
    Option.bind_assoc]
  refine Option.bind_congr fun r _ => ?_
  rw [toOption_bind]
  refine Option.bind_congr fun r' _ => ?_
  cases verb.command r' <;> rfl

theorem toOption_readFrom_nil : (readFrom environment r []).toOption = none := by
  rw [readFrom, toOption_bind]
  refine Option.bind_eq_none_iff.mpr fun r' _ => ?_
  split <;> rfl

theorem readFrom_cons
    (h : r.wordsOnly = true ∨ r.waiting? ≠ none ∨ ∀ word, Token.ofText argument ≠ .word word) :
    readFrom environment r (argument :: rest) =
      r.take none argument >>= (readFrom environment · rest) := by
  rcases h with hwords | hwaiting | hargument
  · simp [readFrom, hwords]
  · simp [readFrom, hwaiting]
  · have hhelp : argument ≠ helpWord := by
      rintro rfl
      exact hargument helpWord (by decide +kernel)
    simp [readFrom, hhelp, Verb.ofText?_eq_none hargument]

/-- A word that is no value has to be a command. -/
theorem toOption_readFrom_word (hwords : r.wordsOnly = false) (hwaiting : r.waiting? = none)
    (htoken : Token.ofText word = .word word) :
    (readFrom environment r (word :: rest)).toOption =
      (Verb.ofText? word).bind fun verb => (behind verb rest).toOption.bind fun inner =>
        r.settle?.map fun r =>
          { inner with options :=
            (r.options.merge inner.options).withEnvironment environment } := by
  rw [readFrom, hwords, hwaiting]
  simp only [Bool.not_false, Option.isNone_none, Bool.and_self, Bool.true_and,
    decide_eq_true_eq, if_true]
  split_ifs with hhelp
  · subst hhelp
    rfl
  · cases hverb : Verb.ofText? word with
    | some verb =>
      simp only [toOption_bind, Option.bind_some]
      refine Option.bind_congr fun inner _ => ?_
      rw [Option.map_eq_bind]
      rfl
    | none =>
      have htake : (r.take none word).toOption = none := by
        simp [Reading.take, hwords, htoken, hwaiting, Reading.takeWord]
      simp only [toOption_bind, htake]
      rfl

theorem takesEach_readFrom (environment : Option String) :
    Reading.TakesEach none fun r arguments => (readFrom environment r arguments).toOption where
  nil r := by
    simp only [toOption_readFrom_nil]
    cases r.settle? <;> rfl
  cons r argument rest h := by
    rw [readFrom_cons h, toOption_bind]
  word r word rest hwords hwaiting htoken := by
    rw [toOption_readFrom_word hwords hwaiting htoken]
    cases hsettled : r.settle? with
    | none => simp
    | some r' =>
      obtain ⟨hpending, hwords'⟩ := Reading.pending_of_settle? hsettled
      have hwaiting' : r'.waiting? = none := by rw [Reading.waiting?, hpending]
      rw [Option.bind_some, toOption_readFrom_word (hwords'.trans hwords) hwaiting' htoken,
        Reading.settle?_of_pending hpending]

/-- No command stands behind two hyphens. -/
theorem toOption_readFrom_of_wordsOnly (hwords : r.wordsOnly = true) :
    (readFrom environment r arguments).toOption = none := by
  cases arguments with
  | nil => exact toOption_readFrom_nil
  | cons word rest =>
    rw [readFrom_cons (.inl hwords), toOption_bind, Reading.take, if_pos hwords,
      Reading.toOption_takeWord_none, Option.bind_none]

/-- In front of the command there are no options but those for every command. -/
theorem takeOther?_none (r : Reading) (hfollow : Token.ofText argument ≠ .wordsFollow)
    (hargument : ∀ word, Token.ofText argument ≠ .word word) :
    r.takeOther? none argument = none := by
  rw [Reading.takeOther?]
  split
  · rfl
  · cases htoken : Token.ofText argument with
    | wordsFollow => exact absurd htoken hfollow
    | word word => exact absurd htoken (hargument word)
    | letters letters => rfl
    | named name value => cases value <;> simp

/-- The invocation of a command line in parts, where `options` are those given so far. -/
def ofParts? (environment : Option String) (options : GlobalOptions) : List Part → Option Invocation
  | [] => none
  | .option o :: rest => do ofParts? environment (← GlobalOption.give? options o) rest
  | .other argument :: rest => do
    let verb ← Verb.ofText? argument
    let r ← rest.foldlM (Reading.takePart? (some verb)) {}
    let command ← (verb.command r).toOption
    some ⟨(options.merge r.options).withEnvironment environment, command⟩

/-- A command line means what its parts mean. -/
theorem toOption_readFrom (h : r.pending = none) (hwords : r.wordsOnly = false) :
    (readFrom environment r arguments).toOption =
      ofParts? environment r.options (CommandLine.parts arguments) := by
  refine (takesEach_readFrom environment).eq_of_parts
    (g := fun r ps => ofParts? environment r.options ps)
    (fun r _ => toOption_readFrom_nil) ?_ ?_ ?_ h hwords
  · intro r p ps hp
    cases p with
    | option o =>
      rw [Reading.takePart?, Option.bind_map]
      rfl
    | other argument =>
      obtain ⟨hfollow, hargument⟩ := hp argument rfl
      rw [Reading.takePart?, takeOther?_none r hfollow hargument, ofParts?,
        Verb.ofText?_eq_none hargument]
      rfl
  · -- Here the command begins. What is pending in front of it is settled last, so nothing may be
    -- pending.
    intro r word rest h hwords htoken _
    have hwaiting : r.waiting? = none := by rw [Reading.waiting?, h]
    rw [toOption_readFrom_word hwords hwaiting htoken, ofParts?]
    refine Option.bind_congr fun verb _ => ?_
    rw [toOption_behind, Option.bind_assoc, Reading.settle?_of_pending h]
    refine Option.bind_congr fun inner _ => ?_
    cases verb.command inner <;> rfl
  · intro r argument rest h hwords htoken
    have hargument : ∀ word, Token.ofText argument ≠ .word word := by simp [htoken]
    have htake : r.take none argument = .ok { r with wordsOnly := true } := by
      simp [Reading.take, hwords, htoken]
    rw [readFrom_cons (.inr (.inr hargument)), htake, ok_bind,
      toOption_readFrom_of_wordsOnly rfl, ofParts?, Verb.ofText?_eq_none hargument]
    rfl

/-! ### What is accepted -/

/-- What is accepted names a command, and has only options that are allowed. -/
theorem eq_of_ofParts? {options : GlobalOptions} {ps : List Part} {invocation : Invocation}
    (h : ofParts? environment options ps = some invocation) :
    (∀ o ∈ ps.filterMap Part.option?, o.allowed = true) ∧
      CommandLine.commandOf? (ps.filterMap Part.other?) = some invocation.command ∧
      invocation.options =
        ((ps.filterMap Part.option?).foldl GlobalOption.give options).withEnvironment
          environment := by
  induction ps generalizing options with
  | nil => cases h
  | cons p rest ih =>
    cases p with
    | option o =>
      rw [Part.filterMap_option?_option, Part.filterMap_other?_option]
      obtain ⟨between, hgive, hrest⟩ := Option.bind_eq_some_iff.mp h
      obtain ⟨hallowed, -, rfl⟩ := GlobalOption.give?_eq_some_iff.mp hgive
      obtain ⟨hothers, hcommand, hoptions⟩ := ih hrest
      exact ⟨List.forall_mem_cons.mpr ⟨hallowed, hothers⟩, hcommand, hoptions⟩
    | other argument =>
      rw [Part.filterMap_option?_other, Part.filterMap_other?_other]
      obtain ⟨verb, hverb, hread⟩ := Option.bind_eq_some_iff.mp h
      obtain ⟨r, hr, hcommand⟩ := Option.bind_eq_some_iff.mp hread
      obtain ⟨command, hnamed, hinvocation⟩ := Option.bind_eq_some_iff.mp hcommand
      rw [Reading.foldlM_takePart?] at hr
      obtain ⟨given, hgiven, hr⟩ := Option.bind_eq_some_iff.mp hr
      obtain ⟨r', hr', rfl⟩ := Option.map_eq_some_iff.mp hr
      obtain ⟨hallowed, rfl⟩ := GlobalOption.foldlM_give?_eq_some hgiven
      obtain rfl := Option.some.inj hinvocation
      rw [Verb.command_options] at hnamed
      refine ⟨hallowed, ?_, ?_⟩
      · simp [CommandLine.commandOf?, hverb, hr', hnamed]
      · exact congrArg (·.withEnvironment environment) (GlobalOption.merge_foldl_give options _)

/-- Options of which each is allowed and given once, and a command, are accepted. -/
theorem ofParts?_of_once {options : GlobalOptions} {ps : List Part} {command : Command}
    (honce : ((ps.filterMap Part.option?).map GlobalOption.name).Nodup)
    (hallowed : ∀ o ∈ ps.filterMap Part.option?, o.allowed = true)
    (hnew : ∀ o ∈ ps.filterMap Part.option?, o.isGiven options = false)
    (hcommand : CommandLine.commandOf? (ps.filterMap Part.other?) = some command) :
    ofParts? environment options ps =
      some
        ⟨((ps.filterMap Part.option?).foldl GlobalOption.give options).withEnvironment environment,
        command⟩ := by
  induction ps generalizing options with
  | nil => cases hcommand
  | cons p rest ih =>
    cases p with
    | option o =>
      rw [Part.filterMap_option?_option] at honce hallowed hnew ⊢
      rw [List.forall_mem_cons] at hallowed hnew
      have hgive : GlobalOption.give? options o = some (GlobalOption.give options o) :=
        GlobalOption.give?_eq_some_iff.mpr ⟨hallowed.1, hnew.1, rfl⟩
      rw [ofParts?, hgive]
      exact ih (List.nodup_cons.mp honce).2 hallowed.2
        (GlobalOption.isGiven_give_of_once honce hnew.2) hcommand
    | other argument =>
      rw [Part.filterMap_option?_other] at honce hallowed ⊢
      obtain ⟨verb, hverb, hbehind⟩ := Option.bind_eq_some_iff.mp hcommand
      obtain ⟨r, hr, hnamed⟩ := Option.bind_eq_some_iff.mp hbehind
      have hgiven : (rest.filterMap Part.option?).foldlM GlobalOption.give? {} =
          some ((rest.filterMap Part.option?).foldl GlobalOption.give {}) :=
        GlobalOption.foldlM_give?_of_once honce hallowed fun o _ => GlobalOption.isGiven_empty o
      have hread : rest.foldlM (Reading.takePart? (some verb)) {} =
          some { r with options := (rest.filterMap Part.option?).foldl GlobalOption.give {} } := by
        rw [Reading.foldlM_takePart?, hgiven, hr]
        rfl
      simp [ofParts?, hverb, hread, Verb.command_options, hnamed, GlobalOption.merge_foldl_give]

theorem ofArguments_eq_ok_iff {invocation : Invocation} :
    ofArguments environment arguments = .ok invocation ↔
      ofParts? environment {} (CommandLine.parts arguments) = some invocation := by
  rw [← toOption_eq_some, ofArguments, toOption_readFrom rfl rfl]

/-- What is accepted names a command, and the options are those that are given. -/
theorem eq_of_ofArguments {invocation : Invocation}
    (h : ofArguments environment arguments = .ok invocation) :
    (∀ o ∈ CommandLine.given arguments, o.allowed = true) ∧
      CommandLine.commandOf? (CommandLine.others arguments) = some invocation.command ∧
      invocation.options =
        ((CommandLine.given arguments).foldl GlobalOption.give {}).withEnvironment environment :=
  eq_of_ofParts? (ofArguments_eq_ok_iff.mp h)

/-- A command and options of which each is allowed and given once are accepted. -/
theorem ofArguments_of_once {command : Command}
    (honce : ((CommandLine.given arguments).map GlobalOption.name).Nodup)
    (hallowed : ∀ o ∈ CommandLine.given arguments, o.allowed = true)
    (hcommand : CommandLine.commandOf? (CommandLine.others arguments) = some command) :
    ofArguments environment arguments =
      .ok ⟨((CommandLine.given arguments).foldl GlobalOption.give {}).withEnvironment environment,
        command⟩ :=
  ofArguments_eq_ok_iff.mpr (ofParts?_of_once honce hallowed (fun o _ => o.isGiven_empty) hcommand)

end Invocation

end Retrofit
