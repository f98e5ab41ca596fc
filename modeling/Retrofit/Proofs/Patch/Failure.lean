import Retrofit.Patch.File
import Retrofit.Proofs.Except
import Retrofit.Proofs.Files.Frame
import Retrofit.Proofs.Transform.Wrapping

/-!
# Jobs that fail

**Accesses.** A time that cannot be told, a file that cannot be read and a write that is refused
need not have their cause in the files: there may be no right to it, or no space left. An `Access`
to files may fail for such causes wherever it likes. Where it does not, it gives what the files
hold, and what it writes is written as a whole. A job can be run through any access
(`PatchJob.runThrough`); through the one that fails only where the files say so it is run as usual
(`PatchJob.run_eq_runThrough`).

**Theorem (`wholeOrUntouched`).** Whatever access a job is run through, it leaves all files as they
are, unless it rebuilds the artifact. Then it changes no other file, and the artifact holds what the
transforms together make of the source.

There are five ways in which a job can end (`PatchJob.Ends`), told by the times of the two files, by
the transforms one after the other, and by the two accesses that may fail. Only the last of them
changes the files.
-/

namespace Retrofit

variable {files : Files} {vendor : String} {catalog : Option Nat} {now : Nat} {job : PatchJob}

/-! ## Transforms one after the other -/

namespace Transform

variable {t : Transform} {transforms rest : List Transform} {source result : String}
  {error : TransformError}

/-- Transforms take one text to another, each of them what the one in front of it has made. -/
inductive Leads (vendor : String) : String → List Transform → String → Prop where
  | done (source : String) : Leads vendor source [] source
  | next {source middle result : String} {t : Transform} {rest : List Transform}
      (h : t.apply vendor source = .ok middle) (hrest : Leads vendor middle rest result) :
      Leads vendor source (t :: rest) result

/-- The transforms in front of some transform take a text to one with which this transform fails. -/
def Fails (vendor source : String) (transforms : List Transform) (error : TransformError) : Prop :=
  ∃ front t rest middle, transforms = front ++ t :: rest ∧ Leads vendor source front middle ∧
    t.apply vendor middle = .error error

theorem leads_cons : Leads vendor source (t :: rest) result ↔
    ∃ middle, t.apply vendor source = .ok middle ∧ Leads vendor middle rest result := by
  constructor
  · intro h
    cases h with
    | next h hrest => exact ⟨_, h, hrest⟩
  · rintro ⟨middle, h, hrest⟩
    exact .next h hrest

theorem fails_cons : Fails vendor source (t :: rest) error ↔
    t.apply vendor source = .error error ∨
      ∃ middle, t.apply vendor source = .ok middle ∧ Fails vendor middle rest error := by
  constructor
  · rintro ⟨front, t', rest', middle, hcut, hfront, hfails⟩
    cases hfront with
    | done =>
      obtain ⟨rfl, rfl⟩ := List.cons.inj hcut
      exact .inl hfails
    | next h hfront =>
      obtain ⟨rfl, rfl⟩ := List.cons.inj hcut
      exact .inr ⟨_, h, _, t', rest', middle, rfl, hfront, hfails⟩
  · rintro (hfails | ⟨next, h, front, t', rest', middle, rfl, hfront, hfails⟩)
    · exact ⟨[], t, rest, source, rfl, .done source, hfails⟩
    · exact ⟨t :: front, t', rest', middle, rfl, .next h hfront, hfails⟩

theorem applyAll_eq_ok :
    applyAll vendor transforms source = .ok result ↔ Leads vendor source transforms result := by
  induction transforms generalizing source with
  | nil =>
    constructor
    · intro h
      cases h
      exact .done _
    · intro h
      cases h
      rfl
  | cons t rest ih =>
    rw [applyAll_cons, bind_eq_ok, leads_cons]
    exact exists_congr fun middle => and_congr_right fun _ => ih

theorem applyAll_eq_error :
    applyAll vendor transforms source = .error error ↔ Fails vendor source transforms error := by
  induction transforms generalizing source with
  | nil =>
    constructor
    · intro h
      cases h
    · rintro ⟨front, t, rest, middle, hcut, -, -⟩
      cases front <;> cases hcut
  | cons t rest ih =>
    rw [applyAll_cons, fails_cons]
    cases happly : t.apply vendor source with
    | error => simp [error_bind]
    | ok middle => simp [ok_bind, ih]

end Transform

/-! ## Accesses that may fail -/

/-- A way to get at files. Each access may fail; one that does not gives what the files hold, and
one that writes stores the whole content. -/
structure Access (files : Files) where
  modified : String → Except FileFault Nat
  read : String → Except FileFault (List UInt8)
  write : String → List UInt8 → Nat → Except FileFault Files
  modified_of_ok : ∀ {path time}, modified path = .ok time → files.modified path = .ok time
  read_of_ok : ∀ {path content}, read path = .ok content → files.read path = .ok content
  write_of_ok : ∀ {path content now new}, write path content now = .ok new →
    files.write path content now = .ok new

/-- The access that fails only where the files say so. -/
def Files.direct (files : Files) : Access files where
  modified := files.modified
  read := files.read
  write := files.write
  modified_of_ok := id
  read_of_ok := id
  write_of_ok := id

namespace PatchJob

variable {access : Access files} {ending : Except PatchError Outcome × Files}

/-- Whether the artifact has to be rebuilt, as far as the access tells. -/
def isStaleThrough (access : Access files) (catalog : Option Nat) (job : PatchJob) : Bool :=
  match access.modified job.artifact, access.modified job.source with
  | .ok artifact, .ok source => artifact ≤ source || catalog.any (artifact ≤ ·)
  | _, _ => true

/-- Patches a file if its artifact is stale, by way of the access. -/
def runThrough (access : Access files) (vendor : String) (catalog : Option Nat) (now : Nat)
    (job : PatchJob) : Except PatchError Outcome × Files :=
  if !job.isStaleThrough access catalog then (.ok .upToDate, files)
  else match access.read job.source with
    | .error fault => (.error (.read fault), files)
    | .ok bytes =>
      match Transform.applyAll vendor job.transforms (Text.decode bytes) with
      | .error error => (.error (.transform error), files)
      | .ok text =>
        match access.write job.artifact (Text.encode text) now with
        | .error fault => (.error (.write fault), files)
        | .ok new => (.ok .rebuilt, new)

theorem run_eq_runThrough (files : Files) (vendor : String) (catalog : Option Nat) (now : Nat)
    (job : PatchJob) :
    job.run files vendor catalog now = job.runThrough files.direct vendor catalog now := by
  have hstale : job.isStaleThrough files.direct catalog = job.isStale files catalog := rfl
  have hread : files.direct.read job.source = files.read job.source := rfl
  unfold run plan runThrough
  rw [hstale, hread]
  cases job.isStale files catalog with
  | false => rfl
  | true =>
    cases files.read job.source with
    | error fault => rfl
    | ok bytes =>
      dsimp only
      cases Transform.applyAll vendor job.transforms (Text.decode bytes) with
      | error error => rfl
      | ok text => rfl

/-! ## How a job ends -/

/-- The artifact is newer than its source and newer than the catalog, as the access tells. -/
def IsFresh (access : Access files) (catalog : Option Nat) (job : PatchJob) : Prop :=
  ∃ built changed, access.modified job.artifact = .ok built ∧
    access.modified job.source = .ok changed ∧ changed < built ∧ ∀ time ∈ catalog, time < built

theorem isStaleThrough_eq_false :
    job.isStaleThrough access catalog = false ↔ job.IsFresh access catalog := by
  unfold isStaleThrough IsFresh
  cases access.modified job.artifact with
  | error fault => simp
  | ok built =>
    cases access.modified job.source with
    | error fault => simp
    | ok changed => cases catalog <;> simp

theorem isStaleThrough_eq_true :
    job.isStaleThrough access catalog = true ↔ ¬ job.IsFresh access catalog := by
  rw [← isStaleThrough_eq_false, Bool.not_eq_false]

/-- The ways in which a job can end, and the files that it leaves. -/
inductive Ends (access : Access files) (vendor : String) (catalog : Option Nat) (now : Nat)
    (job : PatchJob) : Except PatchError Outcome × Files → Prop where
  | kept (h : job.IsFresh access catalog) :
      Ends access vendor catalog now job (.ok .upToDate, files)
  | unread {fault : FileFault} (hstale : ¬ job.IsFresh access catalog)
      (hread : access.read job.source = .error fault) :
      Ends access vendor catalog now job (.error (.read fault), files)
  | failed {bytes : List UInt8} {error : TransformError} (hstale : ¬ job.IsFresh access catalog)
      (hread : access.read job.source = .ok bytes)
      (hfails : Transform.Fails vendor (Text.decode bytes) job.transforms error) :
      Ends access vendor catalog now job (.error (.transform error), files)
  | unwritten {bytes : List UInt8} {text : String} {fault : FileFault}
      (hstale : ¬ job.IsFresh access catalog) (hread : access.read job.source = .ok bytes)
      (hleads : Transform.Leads vendor (Text.decode bytes) job.transforms text)
      (hwrite : access.write job.artifact (Text.encode text) now = .error fault) :
      Ends access vendor catalog now job (.error (.write fault), files)
  | rebuilt {bytes : List UInt8} {text : String} {new : Files}
      (hstale : ¬ job.IsFresh access catalog) (hread : access.read job.source = .ok bytes)
      (hleads : Transform.Leads vendor (Text.decode bytes) job.transforms text)
      (hwrite : access.write job.artifact (Text.encode text) now = .ok new) :
      Ends access vendor catalog now job (.ok .rebuilt, new)

theorem ends_runThrough (access : Access files) (vendor : String) (catalog : Option Nat) (now : Nat)
    (job : PatchJob) :
    job.Ends access vendor catalog now (job.runThrough access vendor catalog now) := by
  unfold runThrough
  cases hstale : job.isStaleThrough access catalog with
  | false => exact .kept (isStaleThrough_eq_false.mp hstale)
  | true =>
    have hstale := isStaleThrough_eq_true.mp hstale
    cases hread : access.read job.source with
    | error fault => exact .unread hstale hread
    | ok bytes =>
      cases happly : Transform.applyAll vendor job.transforms (Text.decode bytes) with
      | error error =>
        simp only [happly]
        exact .failed hstale hread (Transform.applyAll_eq_error.mp happly)
      | ok text =>
        have hleads := Transform.applyAll_eq_ok.mp happly
        cases hwrite : access.write job.artifact (Text.encode text) now with
        | error fault =>
          simp only [happly, hwrite]
          exact .unwritten hstale hread hleads hwrite
        | ok new =>
          simp only [happly, hwrite]
          exact .rebuilt hstale hread hleads hwrite

/-- A job ends in the way that its accesses and its transforms tell, and in no other. -/
theorem runThrough_eq_iff :
    job.runThrough access vendor catalog now = ending ↔
      job.Ends access vendor catalog now ending := by
  constructor
  · rintro rfl
    exact ends_runThrough access vendor catalog now job
  · intro h
    cases h with
    | kept hfresh => simp [runThrough, isStaleThrough_eq_false.mpr hfresh]
    | unread hstale hread =>
      simp [runThrough, isStaleThrough_eq_true.mpr hstale, hread]
    | failed hstale hread hfails =>
      simp [runThrough, isStaleThrough_eq_true.mpr hstale, hread,
        Transform.applyAll_eq_error.mpr hfails]
    | unwritten hstale hread hleads hwrite =>
      simp [runThrough, isStaleThrough_eq_true.mpr hstale, hread,
        Transform.applyAll_eq_ok.mpr hleads, hwrite]
    | rebuilt hstale hread hleads hwrite =>
      simp [runThrough, isStaleThrough_eq_true.mpr hstale, hread,
        Transform.applyAll_eq_ok.mpr hleads, hwrite]

/-! ## What a job leaves behind -/

/-- What a write changes is what stands at the place to which the path leads, and the time of the
directory if nothing stood there. -/
theorem Files.locate_of_write_changes {files new : Files} {path : String} {content : List UInt8}
    {now : Nat} (h : files.write path content now = .ok new) {place : Place}
    (hplace : new.node? place ≠ files.node? place) :
    ∃ target, files.locate path = .ok target ∧ (place.path = target.path ∨
      files.node? target = none ∧ place.path = Place.path target.dropLast ∧
        Node.SameEntry (new.node? place) (files.node? place)) := by
  obtain ⟨target, hlocate, -, rfl⟩ := Files.write_eq_ok.mp h
  refine ⟨target, hlocate, or_iff_not_imp_left.mpr fun hne => ?_⟩
  have hentry : files.node? target = none ∧ place.path = Place.path target.dropLast := by
    by_contra hkept
    exact hplace (Files.node?_putFile_of_ne hne fun hnone hpath => hkept ⟨hnone, hpath⟩)
  exact ⟨hentry.1, hentry.2, Files.sameEntry_putFile fun _ => hne⟩

/-- The text of a source: what its bytes encode, with replacements only where they are no UTF-8. -/
def original (bytes : List UInt8) : String :=
  (Text.decode? bytes).getD (Text.decode bytes)

/-- A job that is run through the access leaves the files alone or makes the whole artifact. -/
structure WholeOrUntouched (access : Access files) (vendor : String)
    (catalog : Option Nat) (now : Nat) (job : PatchJob) : Prop where
  /-- Without a new artifact all files are as they were. -/
  untouched : ∀ result new, job.runThrough access vendor catalog now = (result, new) →
    result ≠ .ok .rebuilt → new = files
  /-- It does not matter which transform fails, and whether there is an artifact. -/
  failed : ∀ bytes error, ¬ job.IsFresh access catalog → access.read job.source = .ok bytes →
    Transform.Fails vendor (original bytes) job.transforms error →
    job.runThrough access vendor catalog now = (.error (.transform error), files)
  /-- It does not matter what the source holds. -/
  kept : job.runThrough access vendor catalog now = (.ok .upToDate, files) ↔
    job.IsFresh access catalog
  /-- Nothing changes but the artifact, and the time of the directory that it is new in. -/
  rebuilt : ∀ new, job.runThrough access vendor catalog now = (.ok .rebuilt, new) →
    ∃ bytes text, files.read job.source = .ok bytes ∧
      Transform.Leads vendor (original bytes) job.transforms text ∧
      new.readText job.artifact = .ok text ∧ new.current = files.current ∧
      ∀ place, new.node? place ≠ files.node? place →
        ∃ target, files.locate job.artifact = .ok target ∧ (place.path = target.path ∨
          files.node? target = none ∧ place.path = Place.path target.dropLast ∧
            Node.SameEntry (new.node? place) (files.node? place))

theorem untouched_of_ends {result : Except PatchError Outcome} {new : Files}
    (h : job.Ends access vendor catalog now (result, new)) (hresult : result ≠ .ok .rebuilt) :
    new = files := by
  cases h with
  | rebuilt => exact absurd rfl hresult
  | _ => rfl

/-- **All or nothing.** -/
theorem wholeOrUntouched (files : Files) (vendor : String) (catalog : Option Nat) (now : Nat)
    (job : PatchJob) :
    (∀ access : Access files, job.WholeOrUntouched access vendor catalog now) ∧
      job.run files vendor catalog now = job.runThrough files.direct vendor catalog now := by
  refine ⟨fun access => ?_, run_eq_runThrough files vendor catalog now job⟩
  constructor
  case untouched =>
    intro result new h
    exact untouched_of_ends (runThrough_eq_iff.mp h)
  case failed =>
    intro bytes error hstale hread hfails
    rw [original, ← Text.decode_eq_getD] at hfails
    exact runThrough_eq_iff.mpr (.failed hstale hread hfails)
  case kept =>
    rw [runThrough_eq_iff]
    constructor
    · intro h
      cases h with
      | kept hfresh => exact hfresh
    · exact .kept
  case rebuilt =>
    intro new h
    cases runThrough_eq_iff.mp h with
    | @rebuilt bytes text _ hstale hread hleads hwrite =>
      have hwrite := access.write_of_ok hwrite
      refine ⟨bytes, text, access.read_of_ok hread, ?_, ?_, (Files.write_within hwrite).current,
        fun place => Files.locate_of_write_changes hwrite⟩
      · rw [original, ← Text.decode_eq_getD]
        exact hleads
      · exact Files.readText_of_get (Files.get_write_self hwrite)

end PatchJob

end Retrofit
