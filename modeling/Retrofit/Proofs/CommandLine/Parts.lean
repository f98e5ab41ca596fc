import Mathlib.Data.List.Induction
import Mathlib.Data.List.Nodup
import Retrofit.CommandLine.Reading

/-!
# The parts of a command line

An argument alone does not tell what it is: it may be the value of the option in front of it, and
behind two hyphens everything is a word. Cut into its parts (`parts`), a command line consists of
options that every command takes, each together with its value, and of other arguments.

**Giving.** An option can be given where its value is allowed and the option is not given yet
(`give?`). Options with different names can be given in any order (`foldl_give_perm`), and what is
given in front of a command and what is given behind it comes to the same as all of it given in one
place (`merge_foldl_give`).
-/

namespace Retrofit

/-! ## Options -/

namespace Setting

/-- The name of an option. -/
def name : Setting → String
  | root => "root"
  | config => "config"
  | patches => "patches"
  | baseDir => "base-dir"
  | vendorPrefix => "vendor-prefix"

end Setting

/-- An option that every command takes, with its value. -/
inductive GlobalOption where
  | setting (s : Setting) (value : String)
  | offline
  | verbose
deriving DecidableEq, Repr

namespace GlobalOption

/-- The name of an option. -/
def name : GlobalOption → String
  | setting s _ => s.name
  | offline => "offline"
  | verbose => "verbose"

/-- Whether the value is allowed. -/
def allowed : GlobalOption → Bool
  | setting s value => s.allows value
  | offline | verbose => true

/-- Whether an option with this name is given. -/
def isGiven (o : GlobalOption) (options : GlobalOptions) : Bool :=
  match o with
  | setting s _ => (s.get? options).isSome
  | offline => options.offline
  | verbose => options.verbose

/-- The options with one more that is given. -/
def give (options : GlobalOptions) : GlobalOption → GlobalOptions
  | setting s value => s.set value options
  | offline => { options with offline := true }
  | verbose => { options with verbose := true }

/-- The options with one more that is given, if it can be. -/
def give? (options : GlobalOptions) (o : GlobalOption) : Option GlobalOptions :=
  if o.allowed ∧ o.isGiven options = false then some (give options o) else none

theorem give?_eq_some_iff {options options' : GlobalOptions} {o : GlobalOption} :
    give? options o = some options' ↔
      o.allowed = true ∧ o.isGiven options = false ∧ give options o = options' := by
  rw [give?, Option.ite_none_right_eq_some, Option.some.injEq, and_assoc]

theorem isGiven_empty (o : GlobalOption) : o.isGiven {} = false := by
  cases o with
  | setting s value => cases s <;> rfl
  | offline => rfl
  | verbose => rfl

/-- Giving an option does not give another one. -/
theorem isGiven_give {o o' : GlobalOption} (h : o.name ≠ o'.name) (options : GlobalOptions) :
    o'.isGiven (give options o) = o'.isGiven options := by
  rcases o with ⟨_ | _ | _ | _ | _, value⟩ | _ | _ <;>
    rcases o' with ⟨_ | _ | _ | _ | _, value'⟩ | _ | _ <;>
    first | rfl | exact absurd rfl h

/-- Two options with different names can be given in any order. -/
theorem give_comm {o o' : GlobalOption} (h : o.name ≠ o'.name) (options : GlobalOptions) :
    give (give options o) o' = give (give options o') o := by
  rcases o with ⟨_ | _ | _ | _ | _, value⟩ | _ | _ <;>
    rcases o' with ⟨_ | _ | _ | _ | _, value'⟩ | _ | _ <;>
    first | rfl | exact absurd rfl h

/-- What is given last counts most. -/
theorem merge_give (outer inner : GlobalOptions) (o : GlobalOption) :
    outer.merge (give inner o) = give (outer.merge inner) o := by
  cases o with
  | setting s value => cases s <;> rfl
  | offline => rfl
  | verbose => rfl

theorem merge_empty (options : GlobalOptions) : options.merge {} = options := by
  simp [GlobalOptions.merge]

/-- Options that are given in two places are given in one. -/
theorem merge_foldl_give (options : GlobalOptions) (given : List GlobalOption) :
    options.merge (given.foldl give {}) = given.foldl give options := by
  induction given using List.reverseRecOn with
  | nil => exact merge_empty options
  | append_singleton front last ih =>
    rw [List.foldl_append, List.foldl_append, List.foldl_cons, List.foldl_cons, List.foldl_nil,
      List.foldl_nil, merge_give, ih]

/-- Options of which each is given once can be given in any order. -/
theorem foldl_give_perm {given given' : List GlobalOption} (hperm : given.Perm given')
    (honce : (given.map name).Nodup) (options : GlobalOptions) :
    given.foldl give options = given'.foldl give options := by
  refine hperm.foldl_eq' (fun o ho o' ho' between => ?_) options
  by_cases heq : o = o'
  · rw [heq]
  · exact give_comm (fun hname => heq (List.inj_on_of_nodup_map honce ho ho' hname)) between

/-! ## Options among the arguments -/

end GlobalOption

namespace Token

theorem exists_cons_of_letters {argument : String} {letters : List Char}
    (h : ofText argument = .letters letters) : ∃ c rest, letters = c :: rest := by
  unfold ofText at h
  split at h
  · cases h
  · split at h <;> cases h
  · cases h
    exact ⟨_, _, rfl⟩
  · cases h

theorem eq_of_word {argument word : String} (h : ofText argument = .word word) :
    word = argument := by
  unfold ofText at h
  split at h
  · cases h
  · split at h <;> cases h
  · cases h
  · cases h
    rfl

end Token

/-- The names of the options with a value and of those without one are different. -/
theorem Setting.ofName?_of_switch {name : String} {s : Switch} (h : Switch.ofName? name = some s) :
    Setting.ofName? name = none := by
  unfold Switch.ofName? at h
  split at h <;> first | rfl | cases h

namespace GlobalOption

/-- The option that every command takes and that a switch is. -/
def ofSwitch? : Switch → Option GlobalOption
  | .offline => some offline
  | .verbose => some verbose
  | .dryRun | .help | .version => none

/-- The option that an argument is, with its value. -/
def ofArgument? (argument : String) : Option GlobalOption :=
  match Token.ofText argument with
  | .named name (some value) => (Setting.ofName? name).map (setting · value)
  | .named name none => (Switch.ofName? name).bind ofSwitch?
  | .letters [c] => (Switch.ofLetter? c).bind ofSwitch?
  | _ => none

/-- The option that waits behind an argument for its value. -/
def awaitedBy? (argument : String) : Option Setting :=
  match Token.ofText argument with
  | .named name none => Setting.ofName? name
  | _ => none

/-- The option that an argument is, with the next one as its value. -/
def ofArguments? (argument next : String) : Option GlobalOption :=
  match awaitedBy? argument, Token.ofText next with
  | some s, .word value => some (setting s value)
  | _, _ => none

/-- What is an option alone neither waits for a value nor makes words of what follows. -/
theorem alone_of_ofArgument? {argument : String} {o : GlobalOption}
    (h : ofArgument? argument = some o) :
    Token.ofText argument ≠ .wordsFollow ∧ awaitedBy? argument = none := by
  rw [ofArgument?] at h
  rw [awaitedBy?]
  cases htoken : Token.ofText argument with
  | named name value =>
    rw [htoken] at h
    refine ⟨by simp, ?_⟩
    cases value with
    | some value => rfl
    | none =>
      obtain ⟨switch, hswitch, -⟩ := Option.bind_eq_some_iff.mp h
      exact Setting.ofName?_of_switch hswitch
  | letters letters => exact ⟨by simp, rfl⟩
  | word word => exact ⟨by simp, rfl⟩
  | wordsFollow =>
    rw [htoken] at h
    cases h

end GlobalOption

/-! ## Parts -/

/-- A part of a command line. -/
inductive Part where
  /-- An option that every command takes, with its value. -/
  | option (o : GlobalOption)
  | other (argument : String)
deriving DecidableEq, Repr

namespace Part

/-- The part that an argument is alone. -/
def ofArgument (argument : String) : Part :=
  match GlobalOption.ofArgument? argument with
  | some o => option o
  | none => other argument

theorem ofArgument_of_word {argument word : String} (h : Token.ofText argument = .word word) :
    ofArgument argument = other argument := by
  rw [ofArgument, GlobalOption.ofArgument?, h]

theorem ofArgument_of_wordsFollow {argument : String} (h : Token.ofText argument = .wordsFollow) :
    ofArgument argument = other argument := by
  rw [ofArgument, GlobalOption.ofArgument?, h]

theorem eq_of_ofArgument {argument argument' : String} (h : ofArgument argument = other argument') :
    argument' = argument := by
  rw [ofArgument] at h
  split at h <;> cases h
  rfl

/-- The option, if the part is one. -/
def option? : Part → Option GlobalOption
  | option o => some o
  | other _ => none

/-- The argument, if the part is no option. -/
def other? : Part → Option String
  | option _ => none
  | other argument => some argument

theorem filterMap_option?_option (o : GlobalOption) (ps : List Part) :
    (option o :: ps).filterMap option? = o :: ps.filterMap option? :=
  List.filterMap_cons_some rfl

theorem filterMap_option?_other (argument : String) (ps : List Part) :
    (other argument :: ps).filterMap option? = ps.filterMap option? :=
  List.filterMap_cons_none rfl

theorem filterMap_other?_option (o : GlobalOption) (ps : List Part) :
    (option o :: ps).filterMap other? = ps.filterMap other? :=
  List.filterMap_cons_none rfl

theorem filterMap_other?_other (argument : String) (ps : List Part) :
    (other argument :: ps).filterMap other? = argument :: ps.filterMap other? :=
  List.filterMap_cons_some rfl

end Part

namespace CommandLine

/-- The parts of a command line. An option that lacks its value is none of those with one. -/
def parts : List String → List Part
  | [] => []
  | [argument] => [.ofArgument argument]
  | argument :: next :: rest =>
    if Token.ofText argument = .wordsFollow then .other argument :: (next :: rest).map .other
    else match GlobalOption.ofArguments? argument next with
      | some o => .option o :: parts rest
      | none => .ofArgument argument :: parts (next :: rest)

/-- The options in a command line that every command takes. -/
def given (arguments : List String) : List GlobalOption :=
  (parts arguments).filterMap Part.option?

/-- The other arguments: the command, and what is said to it alone. -/
def others (arguments : List String) : List String :=
  (parts arguments).filterMap Part.other?

example : parts ["-v", "--root", "js", "js", "a", "--config=b", "--", "--offline"] =
    [.option .verbose, .option (.setting .root "js"), .other "js", .other "a",
      .option (.setting .config "b"), .other "--", .other "--offline"] := by
  decide +kernel

end CommandLine

end Retrofit
