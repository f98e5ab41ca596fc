import Retrofit.Files.Basic
import Retrofit.Proofs.Dictionary
import Retrofit.Proofs.Text.Utf8

/-!
# What a change to the files leaves alone

**Directories decide where a path leads.** `Files.Within` compares two stores by their directories:
a path that leads somewhere in the one with fewer of them leads to the same place in the other
(`locate_within`). Writing a file keeps the directories as they are and removing a path adds none,
so neither can redirect a path.

**Entries.** What comes into a directory or goes out of it changes the time of the directory. So
what stands at other places is the same up to such times (`Node.SameEntry`), and a file is the very
same.

**The frame.** A written file can be read back (`get_write_self`), and a path that names a file at
another place still names it (`get_file_write_other`). A directory may get the time of the write
(`Node.Becomes`). What can still be found after a removal is unchanged in this sense
(`get_of_get_remove`), and what stood at the removed path cannot be found (`get_remove_self`).
-/

namespace Retrofit

/-! ## Times of directories -/

/-- What stands at a place, without the time if it is a directory. -/
def Node.untimed : Node → Node
  | .file content modified => .file content modified
  | .directory _ => .directory 0

/-- The same file stands at both places, or a directory does, or nothing. -/
def Node.SameEntry (new old : Option Node) : Prop :=
  new.map Node.untimed = old.map Node.untimed

/-- What stands at a place at first and at last, if no more than its directory has changed in
between, at the time `now`. -/
inductive Node.Becomes (now : Nat) : Node → Node → Prop where
  | kept (node : Node) : Becomes now node node
  | touched (modified : Nat) : Becomes now (.directory modified) (.directory now)

namespace Node

variable {new old : Option Node} {node next : Node} {content : List UInt8} {now modified : Nat}

theorem SameEntry.refl (node : Option Node) : SameEntry node node :=
  rfl

theorem SameEntry.symm (h : SameEntry new old) : SameEntry old new :=
  Eq.symm h

theorem SameEntry.trans {mid : Option Node} (h : SameEntry new mid) (h' : SameEntry mid old) :
    SameEntry new old :=
  Eq.trans h h'

theorem SameEntry.file_iff (h : SameEntry new old) :
    new = some (.file content modified) ↔ old = some (.file content modified) := by
  unfold SameEntry at h
  rcases new with _ | _ | _ <;> rcases old with _ | _ | _ <;> simp_all [untimed]

theorem SameEntry.directory_iff (h : SameEntry new old) :
    (∃ modified, new = some (.directory modified)) ↔
      ∃ modified, old = some (.directory modified) := by
  unfold SameEntry at h
  rcases new with _ | _ | _ <;> rcases old with _ | _ | _ <;> simp_all [untimed]

theorem SameEntry.none_iff (h : SameEntry new old) : new = none ↔ old = none := by
  unfold SameEntry at h
  rcases new with _ | _ | _ <;> rcases old with _ | _ | _ <;> simp_all

theorem Becomes.sameEntry (h : node.Becomes now next) : SameEntry (some next) (some node) := by
  cases h <;> rfl

theorem Becomes.eq_file (h : node.Becomes now (.file content modified)) :
    node = .file content modified := by
  cases h
  rfl

theorem Becomes.modified_eq (h : node.Becomes now next) :
    next.modified = node.modified ∨ next.modified = now := by
  cases h with
  | kept => exact .inl rfl
  | touched => exact .inr rfl

end Node

namespace Files

variable {files new old : Files} {path other : String} {place place' top : Place}
  {node next : Node} {content : List UInt8} {time now : Nat} {segment : Path.Segment} {key : String}

/-- A directory stands at a place. -/
def IsDirectory (files : Files) (place : Place) : Prop :=
  ∃ modified, files.node? place = some (.directory modified)

theorem isDirectory_nil : files.IsDirectory [] :=
  ⟨files.rootTime, rfl⟩

theorem node?_of_ne_nil (h : place ≠ []) :
    files.node? place = Dictionary.get? place.path files.nodes := by
  rw [node?, if_neg (by simpa using h)]

/-! ## Where paths lead -/

/-- The directories of one store are directories of the other, and relative paths begin at the same
place. -/
structure Within (new old : Files) : Prop where
  current : new.current = old.current
  directory : ∀ place, new.IsDirectory place → old.IsDirectory place

theorem Within.refl (files : Files) : files.Within files :=
  ⟨rfl, fun _ h => h⟩

theorem Within.trans {mid : Files} (h : Within new mid) (h' : Within mid old) : Within new old :=
  ⟨h.current.trans h'.current, fun place hplace => h'.directory place (h.directory place hplace)⟩

/-- Where a segment leads from a directory does not depend on the store. -/
theorem step_of_isDirectory (hn : new.IsDirectory place) (ho : old.IsDirectory place) :
    new.step place segment = old.step place segment := by
  obtain ⟨_, hn⟩ := hn
  obtain ⟨_, ho⟩ := ho
  simp only [step, hn, ho]

theorem isDirectory_of_step (h : files.step place segment = .ok place') :
    files.IsDirectory place := by
  unfold step at h
  cases hnode : files.node? place with
  | none => simp [hnode] at h
  | some node =>
    cases node with
    | file => simp [hnode] at h
    | directory modified => exact ⟨modified, hnode⟩

theorem step_within (within : Within new old) (h : new.step place segment = .ok place') :
    old.step place segment = .ok place' := by
  have hdir := isDirectory_of_step h
  rw [← step_of_isDirectory hdir (within.directory place hdir), h]

theorem foldlM_step_within (within : Within new old) (segments : List Path.Segment) :
    segments.foldlM new.step place = .ok place' → segments.foldlM old.step place = .ok place' := by
  induction segments generalizing place with
  | nil => exact id
  | cons segment rest ih =>
    intro h
    rw [List.foldlM_cons] at h ⊢
    cases hstep : new.step place segment with
    | error fault => simp [hstep, bind, Except.bind] at h
    | ok next =>
      rw [hstep] at h
      rw [step_within within hstep]
      exact ih h

theorem locate_within (within : Within new old) (h : new.locate path = .ok place) :
    old.locate path = .ok place := by
  unfold locate at h ⊢
  split_ifs at h ⊢
  · exact foldlM_step_within within _ h
  · rw [← within.current]
    exact foldlM_step_within within _ h

/-! ## Looking up -/

theorem get_eq_ok :
    files.get path = .ok node ↔
      ∃ place, files.locate path = .ok place ∧ files.node? place = some node := by
  unfold get
  cases files.locate path with
  | error fault => simp [bind, Except.bind]
  | ok place => cases hnode : files.node? place <;> simp [bind, Except.bind, hnode]

theorem exists_directory_within (within : Within new old)
    (h : new.get path = .ok (.directory time)) :
    ∃ modified, old.get path = .ok (.directory modified) := by
  obtain ⟨place, hplace, hnode⟩ := get_eq_ok.mp h
  obtain ⟨modified, hdir⟩ := within.directory place ⟨time, hnode⟩
  exact ⟨modified, get_eq_ok.mpr ⟨place, locate_within within hplace, hdir⟩⟩

theorem modified_eq_ok {time : Nat} :
    files.modified path = .ok time ↔ ∃ node, files.get path = .ok node ∧ node.modified = time := by
  unfold modified
  cases files.get path <;> simp [bind, Except.bind, pure, Except.pure]

theorem read_eq_ok :
    files.read path = .ok content ↔ ∃ time, files.get path = .ok (.file content time) := by
  unfold read
  cases files.get path with
  | error fault => simp [bind, Except.bind]
  | ok node => cases node <;> simp [bind, Except.bind]

theorem isFile_iff :
    files.isFile path = true ↔ ∃ content time, files.get path = .ok (.file content time) := by
  unfold isFile
  cases files.get path with
  | error fault => simp
  | ok node => cases node <;> simp

theorem readText_eq_ok {text : String} :
    files.readText path = .ok text ↔
      ∃ bytes, files.read path = .ok bytes ∧ Text.decode? bytes = some text := by
  unfold readText
  cases files.read path with
  | error => simp [bind, Except.bind]
  | ok bytes => cases htext : Text.decode? bytes <;> simp [bind, Except.bind, htext]

theorem readText_of_get {text : String} {time : Nat}
    (h : files.get path = .ok (.file (Text.encode text) time)) : files.readText path = .ok text :=
  readText_eq_ok.mpr ⟨_, read_eq_ok.mpr ⟨time, h⟩, Text.decode?_encode text⟩

theorem readText_of_get_imp {text : String}
    (h : ∀ content time, files.get path = .ok (.file content time) →
      new.get other = .ok (.file content time))
    (htext : files.readText path = .ok text) : new.readText other = .ok text := by
  obtain ⟨bytes, hread, hdecode⟩ := readText_eq_ok.mp htext
  obtain ⟨time, hget⟩ := read_eq_ok.mp hread
  exact readText_eq_ok.mpr ⟨bytes, read_eq_ok.mpr ⟨time, h _ _ hget⟩, hdecode⟩

/-! ## Entries of directories -/

/-- The root is no entry, so it does not matter if a path is that of the root. -/
theorem node?_put_of_ne (h : place' ≠ [] → place'.path ≠ place.path) :
    (files.put place node).node? place' = files.node? place' := by
  by_cases hroot : place' = []
  · rw [hroot]
    rfl
  · rw [node?_of_ne_nil hroot, node?_of_ne_nil hroot, put, Dictionary.get?_insert_of_ne (h hroot)]

/-- A change of a directory leaves what stands at any path, up to the time of the directory. -/
theorem sameEntry_get?_touch (files : Files) (place : Place) (now : Nat) (key : String) :
    Node.SameEntry (Dictionary.get? key (files.touch place now).nodes)
      (Dictionary.get? key files.nodes) := by
  unfold touch
  split_ifs with hroot
  · exact .refl _
  · rw [node?, if_neg hroot]
    rcases hnode : Dictionary.get? place.path files.nodes with _ | _ | modified
    · exact .refl _
    · exact .refl _
    · by_cases hkey : key = place.path
      · rw [hkey, hnode, put, Dictionary.get?_insert_self]
        rfl
      · rw [put, Dictionary.get?_insert_of_ne hkey]
        exact .refl _

theorem sameEntry_of_get? (h : Node.SameEntry (Dictionary.get? place.path new.nodes)
    (Dictionary.get? place.path old.nodes)) : Node.SameEntry (new.node? place)
      (old.node? place) := by
  by_cases hroot : place = []
  · rw [hroot]
    rfl
  · rwa [node?_of_ne_nil hroot, node?_of_ne_nil hroot]

/-- Only the one directory changes. -/
theorem node?_touch_of_ne (h : place.path ≠ top.path) :
    (files.touch top now).node? place = files.node? place := by
  unfold touch
  split_ifs with hroot
  · have hplace : place ≠ [] := by
      rintro rfl
      exact h (by rw [List.isEmpty_iff.mp hroot])
    rw [node?_of_ne_nil hplace, node?_of_ne_nil hplace]
  · rcases files.node? top with _ | _ | modified
    · rfl
    · rfl
    · exact node?_put_of_ne fun _ => h

/-- A directory that changes gets the time of the change. -/
theorem node?_touch_cases (files : Files) (top place : Place) (now : Nat) :
    (files.touch top now).node? place = files.node? place ∨
      (files.IsDirectory place ∧ (files.touch top now).node? place = some (.directory now)) := by
  unfold touch
  split_ifs with hroot
  · by_cases hplace : place = []
    · exact .inr ⟨hplace ▸ isDirectory_nil, by rw [hplace]; rfl⟩
    · exact .inl (by rw [node?_of_ne_nil hplace, node?_of_ne_nil hplace])
  · rcases hnode : files.node? top with _ | _ | modified
    · exact .inl rfl
    · exact .inl rfl
    · by_cases hpath : place ≠ [] → place.path ≠ top.path
      · exact .inl (node?_put_of_ne hpath)
      · push Not at hpath
        obtain ⟨hplace, hpath⟩ := hpath
        refine .inr ⟨⟨modified, ?_⟩, ?_⟩
        · rw [node?_of_ne_nil hplace, hpath, ← node?_of_ne_nil (by simpa using hroot), hnode]
        · rw [node?_of_ne_nil hplace, hpath, put, Dictionary.get?_insert_self]

@[simp] theorem touch_current (files : Files) (top : Place) (now : Nat) :
    (files.touch top now).current = files.current := by
  unfold touch
  split_ifs
  · rfl
  · rcases files.node? top with _ | _ | modified <;> rfl

@[simp] theorem putFile_current (files : Files) (place : Place) (content : List UInt8) (now : Nat) :
    (files.putFile place content now).current = files.current := by
  unfold putFile put
  dsimp only
  split_ifs
  · exact touch_current ..
  · rfl

theorem get?_putFile_self (files : Files) (place : Place) (content : List UInt8) (now : Nat) :
    Dictionary.get? place.path (files.putFile place content now).nodes =
      some (.file content now) :=
  Dictionary.get?_insert_self _

/-- A new file leaves what stands at other paths, up to the time of its directory. -/
theorem sameEntry_get?_putFile (h : key ≠ place.path) :
    Node.SameEntry (Dictionary.get? key (files.putFile place content now).nodes)
      (Dictionary.get? key files.nodes) := by
  unfold putFile put
  dsimp only
  rw [Dictionary.get?_insert_of_ne h]
  split_ifs
  · exact sameEntry_get?_touch ..
  · exact .refl _

/-- The file stands at the place, and wherever the path is the same. -/
theorem node?_putFile_of_path_eq (hne : place' ≠ []) (h : place'.path = place.path) :
    (files.putFile place content now).node? place' = some (.file content now) := by
  rw [node?_of_ne_nil hne, h, get?_putFile_self]

theorem sameEntry_putFile (h : place' ≠ [] → place'.path ≠ place.path) :
    Node.SameEntry ((files.putFile place content now).node? place') (files.node? place') := by
  by_cases hroot : place' = []
  · rw [hroot]
    rfl
  · exact sameEntry_of_get? (sameEntry_get?_putFile (h hroot))

/-- A new file leaves what stands at other places, except that its directory gets the time of the
write. -/
theorem node?_putFile_cases (h : place' ≠ [] → place'.path ≠ place.path) :
    (files.putFile place content now).node? place' = files.node? place' ∨
      (files.IsDirectory place' ∧
        (files.putFile place content now).node? place' = some (.directory now)) := by
  unfold putFile
  dsimp only
  rw [node?_put_of_ne h]
  split_ifs
  · exact node?_touch_cases ..
  · exact .inl rfl

/-- A file that was there before leaves all else as it was, and a new one all but its directory. -/
theorem node?_putFile_of_ne (h : place'.path ≠ place.path)
    (hentry : files.node? place = none → place'.path ≠ Place.path place.dropLast) :
    (files.putFile place content now).node? place' = files.node? place' := by
  unfold putFile
  dsimp only
  rw [node?_put_of_ne fun _ => h]
  split_ifs with hnone
  · exact node?_touch_of_ne (hentry (Option.isNone_iff_eq_none.mp hnone))
  · rfl

/-- A written file does not take anything away. -/
theorem node?_eq_none_of_putFile
    (h : (files.putFile place content now).node? place' = none) : files.node? place' = none := by
  by_cases hpath : place' ≠ [] → place'.path ≠ place.path
  · exact (sameEntry_putFile hpath).none_iff.mp h
  · push Not at hpath
    rw [node?_putFile_of_path_eq hpath.1 hpath.2] at h
    cases h

/-- What a directory becomes. -/
theorem becomes_of_node? (h : new.node? place = files.node? place ∨
      (files.IsDirectory place ∧ new.node? place = some (.directory now)))
    (hnode : new.node? place = some next) :
    ∃ node, files.node? place = some node ∧ node.Becomes now next := by
  rcases h with h | ⟨⟨modified, hdir⟩, h⟩
  · exact ⟨next, h ▸ hnode, .kept next⟩
  · rw [hnode, Option.some.injEq] at h
    exact ⟨_, hdir, h ▸ .touched modified⟩

theorem exists_becomes_of_node? (h : new.node? place = files.node? place ∨
      (files.IsDirectory place ∧ new.node? place = some (.directory now)))
    (hnode : files.node? place = some node) :
    ∃ next, new.node? place = some next ∧ node.Becomes now next := by
  rcases h with h | ⟨⟨modified, hdir⟩, h⟩
  · exact ⟨node, h.trans hnode, .kept node⟩
  · rw [hnode, Option.some.injEq] at hdir
    exact ⟨_, h, hdir ▸ .touched modified⟩

/-- The same files and directories stand at the same paths, where the directories may have changed
at other times. -/
structure SameEntries (new old : Files) : Prop where
  current : new.current = old.current
  entry : ∀ key, Node.SameEntry (Dictionary.get? key new.nodes) (Dictionary.get? key old.nodes)

theorem SameEntries.symm (h : new.SameEntries old) : old.SameEntries new :=
  ⟨h.current.symm, fun key => (h.entry key).symm⟩

theorem SameEntries.sameEntry (h : new.SameEntries old) (place : Place) :
    Node.SameEntry (new.node? place) (old.node? place) :=
  sameEntry_of_get? (h.entry place.path)

theorem SameEntries.within (h : new.SameEntries old) : new.Within old :=
  ⟨h.current, fun place => (h.sameEntry place).directory_iff.mp⟩

theorem SameEntries.get_file_iff (h : new.SameEntries old) :
    new.get path = .ok (.file content time) ↔ old.get path = .ok (.file content time) := by
  rw [get_eq_ok, get_eq_ok]
  exact exists_congr fun place => and_congr
    ⟨locate_within h.within, locate_within h.symm.within⟩ (h.sameEntry place).file_iff

/-! ## Writing -/

theorem putFile_within : (files.putFile place content now).Within files := by
  refine ⟨putFile_current .., fun p hp => ?_⟩
  by_cases hpath : p ≠ [] → p.path ≠ place.path
  · exact (sameEntry_putFile hpath).directory_iff.mp hp
  · push Not at hpath
    obtain ⟨modified, hnode⟩ := hp
    rw [node?_putFile_of_path_eq hpath.1 hpath.2] at hnode
    cases hnode

theorem within_putFile (h : ¬ files.IsDirectory place) :
    files.Within (files.putFile place content now) := by
  refine ⟨(putFile_current ..).symm, fun p hp => ?_⟩
  by_cases hpath : p ≠ [] → p.path ≠ place.path
  · exact (sameEntry_putFile hpath).directory_iff.mpr hp
  · push Not at hpath
    have hplace : place ≠ [] := fun heq => h (heq ▸ isDirectory_nil)
    obtain ⟨modified, hnode⟩ := hp
    rw [node?_of_ne_nil hpath.1, hpath.2, ← node?_of_ne_nil hplace] at hnode
    exact absurd ⟨modified, hnode⟩ h

theorem write_eq_ok :
    files.write path content now = .ok new ↔
      ∃ place, files.locate path = .ok place ∧ ¬ files.IsDirectory place ∧
        new = files.putFile place content now := by
  unfold write IsDirectory
  cases files.locate path with
  | error fault => simp [bind, Except.bind]
  | ok place =>
    cases hnode : files.node? place with
    | none => simp [bind, Except.bind, hnode, eq_comm]
    | some node => cases node <;> simp [bind, Except.bind, hnode, eq_comm]

theorem write_within (h : files.write path content now = .ok new) : new.Within files := by
  obtain ⟨place, -, -, rfl⟩ := write_eq_ok.mp h
  exact putFile_within

theorem within_write (h : files.write path content now = .ok new) : files.Within new := by
  obtain ⟨place, -, hplace, rfl⟩ := write_eq_ok.mp h
  exact within_putFile hplace

/-- A written file is found with its content and the time of the write. -/
theorem get_write_self (h : files.write path content now = .ok new) :
    new.get path = .ok (.file content now) := by
  have within := within_write h
  obtain ⟨place, hlocate, hplace, rfl⟩ := write_eq_ok.mp h
  have hne : place ≠ [] := fun heq => hplace (heq ▸ isDirectory_nil)
  exact get_eq_ok.mpr ⟨place, locate_within within hlocate, node?_putFile_of_path_eq hne rfl⟩

/-! ### Other paths -/

/-- The two paths do not lead to the same place. -/
def Apart (files : Files) (path other : String) : Prop :=
  ∀ place place', files.locate path = .ok place → files.locate other = .ok place' →
    place.path ≠ place'.path

instance : Decidable (files.Apart path other) :=
  decidable_of_iff (∀ place ∈ (files.locate path).toOption,
    ∀ place' ∈ (files.locate other).toOption,
      place.path ≠ place'.path) <| by
    unfold Apart
    cases files.locate path <;> cases files.locate other <;> simp [Except.toOption]

theorem Apart.symm (h : files.Apart path other) : files.Apart other path :=
  fun place place' hplace hplace' => (h place' place hplace' hplace).symm

/-- Paths stay apart as long as no directory is added. -/
theorem Apart.within (h : old.Apart path other) (within : Within new old) :
    new.Apart path other := by
  intro place place' hplace hplace'
  exact h place place' (locate_within within hplace) (locate_within within hplace')

/-- What is written at the first path is a new entry of what the second one leads to. -/
def AddsTo (files : Files) (path other : String) : Prop :=
  ∃ place top, files.locate path = .ok place ∧ files.node? place = none ∧
    files.locate other = .ok top ∧ top.path = Place.path place.dropLast

instance : Decidable (files.AddsTo path other) :=
  decidable_of_iff (∃ place ∈ (files.locate path).toOption, files.node? place = none ∧
      ∃ top ∈ (files.locate other).toOption, top.path = Place.path place.dropLast) <| by
    unfold AddsTo
    cases files.locate path <;> cases files.locate other <;> simp [Except.toOption]

/-- What a path names stays the same if nothing is written there, or right below it for the first
time. -/
theorem get_write_other (h : files.write path content now = .ok new)
    (apart : files.Apart other path) (hadds : ¬ files.AddsTo path other) :
    new.get other = .ok node ↔ files.get other = .ok node := by
  have hnew := write_within h
  have hold := within_write h
  obtain ⟨place, hlocate, -, rfl⟩ := write_eq_ok.mp h
  rw [get_eq_ok, get_eq_ok]
  refine exists_congr fun p => ?_
  have hsame (hp : files.locate other = .ok p) :
      (files.putFile place content now).node? p = files.node? p :=
    node?_putFile_of_ne (apart p place hp hlocate) fun hnone heq =>
      hadds ⟨place, p, hlocate, hnone, hp, heq⟩
  constructor
  · rintro ⟨hp, hnode⟩
    have hp := locate_within hnew hp
    exact ⟨hp, hsame hp ▸ hnode⟩
  · rintro ⟨hp, hnode⟩
    exact ⟨locate_within hold hp, (hsame hp).trans hnode⟩

/-- What a path to another place names after a write. -/
theorem get_of_get_write (h : files.write path content now = .ok new)
    (apart : files.Apart other path) (hget : new.get other = .ok next) :
    ∃ node, files.get other = .ok node ∧ node.Becomes now next := by
  have hnew := write_within h
  obtain ⟨place, hlocate, -, rfl⟩ := write_eq_ok.mp h
  obtain ⟨p, hp, hnode⟩ := get_eq_ok.mp hget
  have hp := locate_within hnew hp
  obtain ⟨node, hnode, hbecomes⟩ :=
    becomes_of_node? (node?_putFile_cases fun _ => apart p place hp hlocate) hnode
  exact ⟨node, get_eq_ok.mpr ⟨p, hp, hnode⟩, hbecomes⟩

/-- What a path to another place named before a write. -/
theorem exists_get_write (h : files.write path content now = .ok new)
    (apart : files.Apart other path) (hget : files.get other = .ok node) :
    ∃ next, new.get other = .ok next ∧ node.Becomes now next := by
  have hold := within_write h
  obtain ⟨place, hlocate, -, rfl⟩ := write_eq_ok.mp h
  obtain ⟨p, hp, hnode⟩ := get_eq_ok.mp hget
  obtain ⟨next, hnext, hbecomes⟩ :=
    exists_becomes_of_node? (node?_putFile_cases fun _ => apart p place hp hlocate) hnode
  exact ⟨next, get_eq_ok.mpr ⟨p, locate_within hold hp, hnext⟩, hbecomes⟩

/-- Writing a file leaves the files at other places. -/
theorem get_file_write_other {content' : List UInt8} (h : files.write path content now = .ok new)
    (apart : files.Apart other path) :
    new.get other = .ok (.file content' time) ↔ files.get other = .ok (.file content' time) := by
  constructor
  · intro hget
    obtain ⟨node, hget, hbecomes⟩ := get_of_get_write h apart hget
    rw [hget, hbecomes.eq_file]
  · intro hget
    obtain ⟨next, hnext, hbecomes⟩ := exists_get_write h apart hget
    cases hbecomes
    exact hnext

/-- A file may be written once more, but it does not disappear. -/
theorem isFile_write (h : files.write path content now = .ok new)
    (hfile : files.isFile other = true) :
    new.isFile other = true := by
  have hold := within_write h
  obtain ⟨place, -, -, rfl⟩ := write_eq_ok.mp h
  obtain ⟨content', time, hget⟩ := isFile_iff.mp hfile
  obtain ⟨p, hp, hnode⟩ := get_eq_ok.mp hget
  refine isFile_iff.mpr ?_
  by_cases hpath : p ≠ [] → p.path ≠ place.path
  · exact ⟨content', time, get_eq_ok.mpr ⟨p, locate_within hold hp,
      (sameEntry_putFile hpath).file_iff.mpr hnode⟩⟩
  · push Not at hpath
    exact ⟨content, now, get_eq_ok.mpr ⟨p, locate_within hold hp,
      node?_putFile_of_path_eq hpath.1 hpath.2⟩⟩

/-- What has a time before a write has it afterwards as well, or it has the time of the write. -/
theorem modified_write_cases (h : files.write path content now = .ok new)
    (hmodified : files.modified other = .ok time) :
    new.modified other = .ok time ∨ new.modified other = .ok now := by
  have hold := within_write h
  obtain ⟨place, -, hplace, rfl⟩ := write_eq_ok.mp h
  obtain ⟨node, hget, rfl⟩ := modified_eq_ok.mp hmodified
  obtain ⟨p, hp, hnode⟩ := get_eq_ok.mp hget
  have hp := locate_within hold hp
  have hmodified {next : Node} (hnext : (files.putFile place content now).node? p = some next) :
      (files.putFile place content now).modified other = .ok next.modified :=
    modified_eq_ok.mpr ⟨next, get_eq_ok.mpr ⟨p, hp, hnext⟩, rfl⟩
  by_cases hpath : p ≠ [] → p.path ≠ place.path
  · obtain ⟨next, hnext, hbecomes⟩ := exists_becomes_of_node? (node?_putFile_cases hpath) hnode
    rw [hmodified hnext]
    exact hbecomes.modified_eq.imp (congrArg _) (congrArg _)
  · push Not at hpath
    exact .inr (hmodified (node?_putFile_of_path_eq hpath.1 hpath.2))

/-! ## Removing -/

/-- What a removal leaves at a place stood there before. -/
theorem becomes_of_node?_remove (h : (files.remove path now).node? place = some next) :
    ∃ node, files.node? place = some node ∧ node.Becomes now next := by
  unfold remove at h
  cases hlocate : files.locate path with
  | error fault =>
    rw [hlocate] at h
    exact ⟨next, h, .kept next⟩
  | ok target =>
    simp only [hlocate] at h
    generalize heq : (if (files.node? target).isSome = true then files.touch target.dropLast now
      else files) = touched at h
    have htouched : touched.node? place = files.node? place ∨
        (files.IsDirectory place ∧ touched.node? place = some (.directory now)) := by
      rw [← heq]
      split_ifs
      · exact node?_touch_cases ..
      · exact .inl rfl
    refine becomes_of_node? htouched ?_
    by_cases hroot : place = []
    · rw [hroot] at h ⊢
      exact h
    · rw [node?_of_ne_nil hroot] at h ⊢
      rw [Dictionary.get?_filter fun p => p != target.path && (below? target.path p).isNone] at h
      split_ifs at h
      exact h

theorem remove_within : (files.remove path now).Within files := by
  refine ⟨?_, fun place ⟨modified, h⟩ => ?_⟩
  · unfold remove
    cases files.locate path with
    | error fault => rfl
    | ok place =>
      dsimp only
      split_ifs <;> simp
  · obtain ⟨node, hnode, hbecomes⟩ := becomes_of_node?_remove h
    exact hbecomes.sameEntry.directory_iff.mp ⟨modified, rfl⟩ |>.imp fun _ heq => hnode.trans heq

theorem get_of_get_remove (h : (files.remove path now).get other = .ok next) :
    ∃ node, files.get other = .ok node ∧ node.Becomes now next := by
  obtain ⟨place, hplace, hnext⟩ := get_eq_ok.mp h
  obtain ⟨node, hnode, hbecomes⟩ := becomes_of_node?_remove hnext
  exact ⟨node, get_eq_ok.mpr ⟨place, locate_within remove_within hplace, hnode⟩, hbecomes⟩

/-- A removed file cannot be found. -/
theorem get_remove_self (h : files.get path = .ok (.file content time)) :
    (files.remove path now).get path ≠ .ok next := by
  intro hget
  obtain ⟨place, hplace, hnode⟩ := get_eq_ok.mp h
  obtain ⟨place', hplace', hnode'⟩ := get_eq_ok.mp hget
  have heq : place' = place := by
    have := locate_within remove_within hplace'
    rw [hplace] at this
    exact (Except.ok.inj this).symm
  subst heq
  -- The root cannot be removed, but it is no file.
  cases place' with
  | nil => simp [node?] at hnode
  | cons segment rest =>
    rw [remove, hplace, node?, if_neg (by simp)] at hnode'
    simp [Dictionary.get?_filter fun p =>
      p != Place.path (segment :: rest) && (below? (Place.path (segment :: rest)) p).isNone]
      at hnode'

end Files

end Retrofit
