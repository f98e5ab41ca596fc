import Retrofit.Proofs.CommandLine.Moving
import Retrofit.Settings.Basic

/-!
# Settings in layers

**What is given.** Of the options that a command line gives, the last with a name counts
(`get?_foldl_give`).

**What the file says.** The fields of an accepted settings file hold what the document gives to
their keys (`exists_entries_of_ofText?`): a line sets the field of its key and no other
(`get?_add`).

**Theorem (`options_stand_anywhere`).** Let a command line be accepted. If it gives each option
once, it means the same with options in other places. And over every settings file that is accepted,
the settings are what is given, else what the file says, else the defaults. The marker and the
package manager are those of the file, or the defaults, and without the network is enough to be said
once. Where the catalog is, the environment may say too: it counts less than what is given, and more
than the file.
-/

namespace Retrofit

/-! ## What is given last -/

namespace GlobalOption

/-- The value that an option gives to `s`. -/
def valueFor? (s : Setting) : GlobalOption → Option String
  | setting s' value => if s' = s then some value else none
  | offline | verbose => none

/-- The value that is given last to `s`. -/
def lastValue? (s : Setting) (given : List GlobalOption) : Option String :=
  given.reverse.findSome? (valueFor? s)

theorem get?_give (s : Setting) (options : GlobalOptions) (o : GlobalOption) :
    s.get? (give options o) = (o.valueFor? s <|> s.get? options) := by
  rcases o with ⟨_ | _ | _ | _ | _, value⟩ | _ | _ <;> cases s <;> rfl

theorem get?_foldl_give (s : Setting) (given : List GlobalOption) :
    s.get? (given.foldl give {}) = lastValue? s given := by
  induction given using List.reverseRecOn with
  | nil => cases s <;> rfl
  | append_singleton front last ih =>
    rw [List.foldl_append, List.foldl_cons, List.foldl_nil, get?_give, ih, lastValue?, lastValue?,
      List.reverse_append, List.reverse_singleton, List.singleton_append, List.findSome?_cons]
    cases last.valueFor? s <;> rfl

theorem offline_foldl_give (given : List GlobalOption) (options : GlobalOptions) :
    (given.foldl give options).offline = (options.offline || decide (offline ∈ given)) := by
  induction given generalizing options with
  | nil => simp
  | cons o rest ih =>
    rw [List.foldl_cons, ih]
    rcases o with ⟨_ | _ | _ | _ | _, value⟩ | _ | _ <;> simp [give, Setting.set]

end GlobalOption

/-! ## What a settings file says -/

namespace FileSettings

open Toml

variable {document key : String} {file file' : FileSettings} {entry : String × Scalar}
  {entries : List (String × Scalar)}

/-- The value of a key. -/
def get? (file : FileSettings) : String → Option Scalar
  | "patches" => file.patches.map .text
  | "base_dir" => file.baseDir.map .text
  | "vendor_prefix" => file.vendorPrefix.map .text
  | "offline" => file.offline.map .switch
  | "marker" => file.marker.map .text
  | "bower" => file.manager.map .text
  | _ => none

theorem get?_empty (key : String) : get? {} key = none := by
  unfold get?
  split <;> rfl

theorem setOnce_eq_some {α : Type} {old : Option α} :
    setOnce old file = some file' ↔ old = none ∧ file = file' := by
  cases old <;> simp [setOnce]

/-- A line sets a key that is not set yet, and no other. -/
theorem get?_add (h : file.add entry = some file') :
    file.get? entry.1 = none ∧
      ∀ key, file'.get? key = if entry.1 = key then some entry.2 else file.get? key := by
  unfold add at h
  split at h
  case h_7 => cases h
  all_goals
    obtain ⟨hold, rfl⟩ := setOnce_eq_some.mp h
    refine ⟨by simp [get?, hold], fun key => ?_⟩
    split_ifs with hkey
    · subst hkey
      rfl
    · unfold get?
      split <;> first | rfl | exact absurd rfl hkey

theorem get?_foldlM_add (h : entries.foldlM add file = some file') (key : String) :
    file'.get? key = (file.get? key <|> Dictionary.get? key entries) := by
  induction entries generalizing file with
  | nil =>
    cases h
    simp [Dictionary.get?]
  | cons entry rest ih =>
    obtain ⟨between, hadd, hrest⟩ := Option.bind_eq_some_iff.mp h
    obtain ⟨hnew, hbetween⟩ := get?_add hadd
    rw [ih hrest, hbetween, Dictionary.get?]
    split_ifs with hkey
    · subst hkey
      rw [hnew]
      rfl
    · rfl

/-- What a document that is accepted gives to the keys is what the settings have. -/
theorem exists_entries_of_ofText? (h : ofText? document = some file) :
    ∃ entries, entries? document = some entries ∧
      ∀ key, file.get? key = Dictionary.get? key entries := by
  obtain ⟨entries, hentries, hfile⟩ := Option.bind_eq_some_iff.mp h
  refine ⟨entries, hentries, fun key => (get?_foldlM_add hfile key).trans ?_⟩
  rw [get?_empty]
  rfl

end FileSettings

namespace Settings

open Toml

variable {files : Files} {options : GlobalOptions} {entries : List (String × Scalar)}
  {file : FileSettings}

/-- What the settings file gives to the keys. It is the one that is named, or the one in the
project, which may be missing. -/
inductive Supplies (files : Files) (options : GlobalOptions) : List (String × Scalar) → Prop where
  | file {document : String} {file : FileSettings} {entries : List (String × Scalar)} :
      files.readText (options.config.getD (Path.under options.rootPath FileSettings.fileName)) =
        .ok document →
      FileSettings.ofText? document = some file → entries? document = some entries →
      Supplies files options entries
  | missing :
      files.readText (options.config.getD (Path.under options.rootPath FileSettings.fileName)) =
        .error .notFound →
      options.config = none → Supplies files options []

/-- The text that a settings file gives to a key. -/
def textOf? (key : String) (entries : List (String × Scalar)) : Option String :=
  match Dictionary.get? key entries with
  | some (.text value) => some value
  | _ => none

/-- The switch that a settings file gives to a key. -/
def switchOf? (key : String) (entries : List (String × Scalar)) : Option Bool :=
  match Dictionary.get? key entries with
  | some (.switch value) => some value
  | _ => none

/-- The settings are what is given as options, else what the environment and the settings file say,
else the defaults. -/
structure Layered (given : List GlobalOption) (environment : Option String)
    (entries : List (String × Scalar)) (settings : Settings) : Prop where
  root : settings.options.root = (GlobalOption.lastValue? .root given).getD "."
  patches : settings.options.patches =
    (GlobalOption.lastValue? .patches given <|> environment <|> textOf? "patches" entries).getD
      ({} : ProjectOptions).patches
  baseDir : settings.options.baseDir =
    (GlobalOption.lastValue? .baseDir given <|> textOf? "base_dir" entries).getD
      ({} : ProjectOptions).baseDir
  vendorPrefix : settings.options.vendorPrefix =
    (GlobalOption.lastValue? .vendorPrefix given <|> textOf? "vendor_prefix" entries).getD
      ({} : ProjectOptions).vendorPrefix
  offline : settings.options.offline =
    (decide (.offline ∈ given) || (switchOf? "offline" entries).getD false)
  marker : settings.options.marker = (textOf? "marker" entries).getD ({} : ProjectOptions).marker
  manager : settings.manager = (textOf? "bower" entries).getD defaultManager

/-- A settings file that is accepted, or missing where it may, is merged. -/
theorem load_of_supplies (h : Supplies files options entries) :
    ∃ file, load files options = .ok (merge options file) ∧
      ∀ key, file.get? key = Dictionary.get? key entries := by
  cases h with
  | file hdocument hfile hentries =>
    obtain ⟨entries', hentries', hkeys⟩ := FileSettings.exists_entries_of_ofText? hfile
    obtain rfl := Option.some.inj (hentries'.symm.trans hentries)
    refine ⟨_, ?_, hkeys⟩
    simp only [load, hdocument, hfile]
  | missing hfault hconfig =>
    refine ⟨{}, ?_, FileSettings.get?_empty⟩
    rw [hconfig, Option.getD_none] at hfault
    simp [load, hfault, hconfig]

theorem textOf?_eq {key : String} {value : Option String}
    (h : value.map .text = Dictionary.get? key entries) :
    textOf? key entries = value := by
  rw [textOf?, ← h]
  cases value <;> rfl

theorem switchOf?_eq {key : String} {value : Option Bool}
    (h : value.map .switch = Dictionary.get? key entries) : switchOf? key entries = value := by
  rw [switchOf?, ← h]
  cases value <;> rfl

theorem layered_merge {given : List GlobalOption} {environment : Option String}
    (hfile : ∀ key, file.get? key = Dictionary.get? key entries) :
    (merge ((given.foldl GlobalOption.give {}).withEnvironment environment) file).Layered
      given environment
      entries where
  root := by
    rw [← GlobalOption.get?_foldl_give]
    rfl
  patches := by
    have hassoc : ∀ first second third : Option String,
        ((first <|> second) <|> third) = (first <|> second <|> third) := by
      rintro (_ | first) second third <;> rfl
    rw [← GlobalOption.get?_foldl_give, textOf?_eq (hfile "patches"), ← hassoc]
    rfl
  baseDir := by
    rw [← GlobalOption.get?_foldl_give, textOf?_eq (hfile "base_dir")]
    rfl
  vendorPrefix := by
    rw [← GlobalOption.get?_foldl_give, textOf?_eq (hfile "vendor_prefix")]
    rfl
  offline := by
    have hgiven := GlobalOption.offline_foldl_give given {}
    rw [Bool.false_or] at hgiven
    rw [← hgiven, switchOf?_eq (hfile "offline")]
    rfl
  marker := by
    rw [textOf?_eq (hfile "marker")]
    rfl
  manager := by
    rw [textOf?_eq (hfile "bower")]
    rfl

end Settings

/-! ## The command line over the settings file -/

namespace Invocation

/-- **Options may stand anywhere, and count more than the settings file.** With the invocation the
command stays the same, and so do the settings that are loaded for it. -/
theorem options_stand_anywhere {environment : Option String} {arguments : List String}
    {invocation : Invocation} (h : ofArguments environment arguments = .ok invocation) :
    (((CommandLine.given arguments).map GlobalOption.name).Nodup →
      ∀ moved, Relation.ReflTransGen CommandLine.Moves arguments moved →
        ofArguments environment moved = .ok invocation) ∧
    ∀ files entries, Settings.Supplies files invocation.options entries →
      ∃ settings, Settings.load files invocation.options = .ok settings ∧
        settings.Layered (CommandLine.given arguments) environment entries := by
  refine ⟨fun honce moved hmoved => ofArguments_of_moves h honce hmoved,
    fun files entries hentries => ?_⟩
  obtain ⟨file, hload, hfile⟩ := Settings.load_of_supplies hentries
  obtain ⟨-, -, hoptions⟩ := eq_of_ofArguments h
  refine ⟨_, hload, ?_⟩
  rw [hoptions]
  exact Settings.layered_merge hfile

/-- A project with a settings file. -/
def configured : Files where
  nodes := [("/x", .directory 0),
    ("/x/esx.toml", .file (Text.encode "offline = true\nbase_dir = 'app'") 0)]
  current := []

/-- The directory of the project is named in front of the command, and then between what is said to
it. -/
theorem options_stand_anywhere_js :
    ofArguments (some "e.json") ["-v", "js", "a", "--root", "x", "--base-dir=lib", "b"] =
        .ok ⟨{ root := "x", patches := "e.json", baseDir := "lib", verbose := true },
          .js "a" ["b"]⟩ ∧
      ∃ settings, Settings.load configured
          { root := "x", patches := "e.json", baseDir := "lib", verbose := true } = .ok settings ∧
        settings.Layered [.setting .root "x", .verbose, .setting .baseDir "lib"] (some "e.json")
          [("offline", .switch true), ("base_dir", .text "app")] := by
  have h : ofArguments (some "e.json") ["--root", "x", "-v", "js", "a", "--base-dir=lib", "b"] =
      .ok ⟨{ root := "x", patches := "e.json", baseDir := "lib", verbose := true },
        .js "a" ["b"]⟩ := rfl
  obtain ⟨hmoved, hload⟩ := options_stand_anywhere h
  have hmove : CommandLine.Moves ["--root", "x", "-v", "js", "a", "--base-dir=lib", "b"]
      ["-v", "js", "a", "--root", "x", "--base-dir=lib", "b"] :=
    .back [] ["--root", "x"] ["-v", "js", "a"] ["--base-dir=lib", "b"] (.setting .root "x")
      (by decide +kernel) (by decide +kernel) (by decide +kernel)
  have hdocument : configured.readText "x/esx.toml" = .ok "offline = true\nbase_dir = 'app'" := by
    decide +kernel
  have hfile : FileSettings.ofText? "offline = true\nbase_dir = 'app'" =
      some { offline := true, baseDir := "app" } := by
    decide +kernel
  exact ⟨hmoved (by decide +kernel) _ (.single hmove),
    hload configured _ (.file hdocument hfile (by decide +kernel))⟩

end Invocation

end Retrofit
