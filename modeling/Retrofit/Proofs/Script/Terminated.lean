import Mathlib.Data.List.TakeWhile
import Retrofit.Proofs.Script.Nodes
import Retrofit.Proofs.Script.Reading
import Retrofit.Text.Blank

/-!
# Terminated statements

A small grammar of scripts: a statement ends with its first semicolon, or with the brace that closes
its first block. Gaps are white space. Calls and functions are read as in the whole language, as long
as no text in quotes has a semicolon or a brace.

**Theorem (`sequential_terminated`).** The parser of this grammar reads statement by statement, in
the same way in every block.
-/

namespace Retrofit.Script

/-- Neither a semicolon nor a brace. -/
def isWording (c : Char) : Bool :=
  c != ';' && c != '\x7b' && c != '\x7d'

mutual

/-- The statement in front of a text, and the text behind it. -/
def terminatedStatement? : Nat → List Char → Option (Statement × List Char)
  | 0, _ => none
  | fuel + 1, cs =>
    match cs.dropWhile isWording with
    | ';' :: rest => some (.plain (String.ofList (cs.takeWhile isWording ++ [';'])), rest)
    | '\x7b' :: rest =>
      match terminatedList? fuel rest with
      | some (body, '\x7d' :: rest) =>
        some (.block (String.ofList (cs.takeWhile isWording ++ ['\x7b'])) body (.plain "\x7d"),
          rest)
      | _ => none
    | _ => none

/-- The list in front of a closing brace or the end of a text, and the text from there on. -/
def terminatedList? : Nat → List Char → Option (Block × List Char)
  | 0, _ => none
  | fuel + 1, cs =>
    let gap := String.ofList (cs.takeWhile Text.isBlank)
    match cs.dropWhile Text.isBlank with
    | [] => some (.done gap, [])
    | '\x7d' :: rest => some (.done gap, '\x7d' :: rest)
    | ahead => do
      let (statement, rest) ← terminatedStatement? fuel ahead
      let (list, rest) ← terminatedList? fuel rest
      return (.next gap statement list, rest)

end

/-- The reading of terminated statements. -/
def terminated : Reading where
  skip _ cs := cs.dropWhile Text.isBlank
  next? cs := terminatedStatement? (2 * cs.length) cs

/-- The parser of terminated statements. -/
def terminatedTree? : Parser := fun cs =>
  match terminatedList? (2 * cs.length + 1) cs with
  | some (block, []) => some ⟨"program", true, 0, cs.length, block.nodes 0⟩
  | _ => none

mutual

/-- The statement is one of the grammar. -/
def Statement.IsTerminated : Statement → Prop
  | .plain text => ∃ words, (∀ c ∈ words, isWording c) ∧ text.toList = words ++ [';']
  | .block before body rest => (∃ words, (∀ c ∈ words, isWording c) ∧
      before.toList = words ++ ['\x7b']) ∧ body.IsTerminated ∧ rest = .plain "\x7d"

/-- The list is one of the grammar. -/
def Block.IsTerminated : Block → Prop
  | .done trailing => ∀ c ∈ trailing.toList, Text.isBlank c
  | .next gap statement rest => (∀ c ∈ gap.toList, Text.isBlank c) ∧
      (∀ c ∈ statement.text.toList.head?, ¬Text.isBlank c) ∧ statement.IsTerminated ∧
      rest.IsTerminated

end

variable {fuel : Nat} {cs rest words : List Char} {statement : Statement} {block : Block}

/-- A list ends in front of a closing brace or at the end of the text. -/
def EndsList (rest : List Char) : Prop :=
  rest = [] ∨ ∃ behind, rest = '\x7d' :: behind

/-! ## What is read is terminated -/

/-- With so much fuel only what is terminated is read, and a list up to its end. -/
structure SoundAt (fuel : Nat) : Prop where
  statement : ∀ cs statement rest, terminatedStatement? fuel cs = some (statement, rest) →
    statement.IsTerminated ∧ cs = statement.text.toList ++ rest
  list : ∀ cs block rest, terminatedList? fuel cs = some (block, rest) →
    block.IsTerminated ∧ cs = block.text.toList ++ rest ∧ EndsList rest

theorem SoundAt.next_statement (ih : SoundAt fuel)
    (h : terminatedStatement? (fuel + 1) cs = some (statement, rest)) :
    statement.IsTerminated ∧ cs = statement.text.toList ++ rest := by
  have hwords : ∀ c ∈ cs.takeWhile isWording, isWording c :=
    List.all_eq_true.mp List.all_takeWhile
  have hcs : cs.takeWhile isWording ++ cs.dropWhile isWording = cs :=
    List.takeWhile_append_dropWhile
  rw [terminatedStatement?] at h
  split at h
  · rename_i behind hahead
    cases h
    refine ⟨⟨_, hwords, String.toList_ofList⟩, ?_⟩
    rw [Statement.text, String.toList_ofList, List.append_assoc, List.singleton_append, ← hahead,
      hcs]
  · rename_i inside hahead
    split at h
    · rename_i body behind hbody
      cases h
      obtain ⟨hterminated, hinside, -⟩ := ih.list _ _ _ hbody
      refine ⟨⟨⟨_, hwords, String.toList_ofList⟩, hterminated, rfl⟩, ?_⟩
      conv_lhs => rw [← hcs, hahead, hinside]
      simp [Statement.text]
    · cases h
  · cases h

theorem SoundAt.next_list (ih : SoundAt fuel)
    (h : terminatedList? (fuel + 1) cs = some (block, rest)) :
    block.IsTerminated ∧ cs = block.text.toList ++ rest ∧ EndsList rest := by
  have hgap : ∀ c ∈ cs.takeWhile Text.isBlank, Text.isBlank c :=
    List.all_eq_true.mp List.all_takeWhile
  have hcs : cs.takeWhile Text.isBlank ++ cs.dropWhile Text.isBlank = cs :=
    List.takeWhile_append_dropWhile
  rw [terminatedList?] at h
  dsimp only at h
  split at h
  · rename_i hahead
    cases h
    rw [hahead, List.append_nil] at hcs
    refine ⟨?_, ?_, .inl rfl⟩
    · rwa [Block.IsTerminated, String.toList_ofList]
    · rw [Block.text, String.toList_ofList, List.append_nil, hcs]
  · rename_i behind hahead
    cases h
    refine ⟨?_, ?_, .inr ⟨behind, rfl⟩⟩
    · rwa [Block.IsTerminated, String.toList_ofList]
    · rw [Block.text, String.toList_ofList, ← hahead, hcs]
  · obtain ⟨⟨statement, behind⟩, hstatement, h⟩ := Option.bind_eq_some_iff.mp h
    obtain ⟨⟨list, rest'⟩, hlist, h⟩ := Option.bind_eq_some_iff.mp h
    cases h
    obtain ⟨hterminated, hahead⟩ := ih.statement _ _ _ hstatement
    obtain ⟨hlist, hbehind, hends⟩ := ih.list _ _ _ hlist
    dsimp only at hbehind
    refine ⟨⟨by rwa [String.toList_ofList], ?_, hterminated, hlist⟩, ?_, hends⟩
    · intro c hc
      obtain ⟨more, hmore⟩ := List.head?_eq_some_iff.mp hc
      have hnot := List.head?_dropWhile_not Text.isBlank cs
      rw [hahead, hmore] at hnot
      exact Bool.eq_false_iff.mp hnot
    · conv_lhs => rw [← hcs, hahead, hbehind]
      simp [Block.text]

theorem soundAt : (fuel : Nat) → SoundAt fuel
  | 0 => ⟨nofun, nofun⟩
  | fuel + 1 => ⟨fun _ _ _ => (soundAt fuel).next_statement, fun _ _ _ => (soundAt fuel).next_list⟩

/-! ## What is terminated is read -/

/-- A statement of the grammar takes text, and does not begin as the end of a block. -/
theorem Statement.IsTerminated.opens (h : statement.IsTerminated) :
    ∃ c more, statement.text.toList = c :: more ∧ c ≠ '\x7d' := by
  have hfront : ∀ words : List Char, (∀ c ∈ words, isWording c) →
      ∀ (mark : Char) (behind : List Char),
      mark ≠ '\x7d' → ∃ c more, words ++ mark :: behind = c :: more ∧ c ≠ '\x7d' := by
    intro words hwords mark behind hmark
    cases words with
    | nil => exact ⟨mark, behind, rfl, hmark⟩
    | cons c words =>
      refine ⟨c, _, rfl, ?_⟩
      rintro rfl
      exact absurd (hwords '\x7d' List.mem_cons_self) (by decide)
  cases statement with
  | plain text =>
    obtain ⟨words, hwords, htext⟩ := h
    rw [Statement.text, htext]
    exact hfront words hwords ';' [] (by decide)
  | block before body rest =>
    obtain ⟨⟨words, hwords, hbefore⟩, -, -⟩ := h
    rw [Statement.text, String.toList_append, hbefore, List.append_assoc]
    exact hfront words hwords '\x7b' _ (by decide)

theorem takeWhile_of_front {p : Char → Bool} {front : List Char} (hfront : ∀ c ∈ front, p c)
    {c : Char} (hc : ¬p c) (behind : List Char) :
    (front ++ c :: behind).takeWhile p = front ∧
      (front ++ c :: behind).dropWhile p = c :: behind := by
  rw [List.takeWhile_append_of_pos hfront, List.dropWhile_append_of_pos hfront,
    List.takeWhile_cons_of_neg hc, List.dropWhile_cons_of_neg hc, List.append_nil]
  exact ⟨rfl, rfl⟩

mutual

theorem Statement.IsTerminated.read : (statement : Statement) → statement.IsTerminated →
    ∀ (fuel : Nat) (behind : List Char), 2 * statement.text.toList.length ≤ fuel →
      terminatedStatement? fuel (statement.text.toList ++ behind) = some (statement, behind)
  | .plain text, ⟨words, hwords, htext⟩, fuel, behind, hfuel => by
    have hstop : ¬isWording ';' := by decide
    obtain ⟨htake, hdrop⟩ := takeWhile_of_front hwords hstop behind
    rw [Statement.text, htext, List.length_append, List.length_singleton] at hfuel
    obtain ⟨n, rfl⟩ := Nat.exists_eq_add_of_le' (by omega : 1 ≤ fuel)
    rw [Statement.text, htext, List.append_assoc, List.singleton_append,
      terminatedStatement?, hdrop, htake, ← htext, String.ofList_toList]
    rfl
  | .block before body rest, ⟨⟨words, hwords, hbefore⟩, hbody, hrest⟩, fuel, behind, hfuel => by
    have hopen : ¬isWording '\x7b' := by decide
    obtain ⟨htake, hdrop⟩ := takeWhile_of_front hwords hopen (body.text.toList ++ '\x7d' :: behind)
    have htext : (Statement.block before body rest).text.toList =
        words ++ '\x7b' :: (body.text.toList ++ ['\x7d']) := by
      rw [hrest, Statement.text, Statement.text, String.toList_append,
        String.toList_append, hbefore]
      simp
    rw [htext, List.length_append, List.length_cons, List.length_append, List.length_singleton]
      at hfuel
    obtain ⟨n, rfl⟩ := Nat.exists_eq_add_of_le' (by omega : 1 ≤ fuel)
    have hread := Block.IsTerminated.read body hbody n (.inr ⟨behind, rfl⟩) (by omega)
    have hcs : words ++ '\x7b' :: (body.text.toList ++ ['\x7d']) ++ behind =
        words ++ '\x7b' :: (body.text.toList ++ '\x7d' :: behind) := by simp
    rw [htext, hcs, terminatedStatement?, hdrop, htake, ← hbefore, String.ofList_toList, hrest]
    simp only [hread]

theorem Block.IsTerminated.read : (block : Block) → block.IsTerminated →
    ∀ (fuel : Nat) {rest : List Char}, EndsList rest → 2 * block.text.toList.length + 1 ≤ fuel →
      terminatedList? fuel (block.text.toList ++ rest) = some (block, rest)
  | .done trailing, h, fuel, rest, hends, hfuel => by
    obtain ⟨n, rfl⟩ := Nat.exists_eq_add_of_le' (by omega : 1 ≤ fuel)
    obtain rfl | ⟨behind, rfl⟩ := hends
    · rw [Block.text, terminatedList?, List.dropWhile_append_of_pos h,
        List.takeWhile_append_of_pos h, List.takeWhile_nil, List.append_nil, String.ofList_toList]
      rfl
    · have hclose : ¬Text.isBlank '\x7d' := by decide
      obtain ⟨htake, hdrop⟩ := takeWhile_of_front h hclose behind
      rw [Block.text, terminatedList?, hdrop, htake, String.ofList_toList]
      rfl
  | .next gap statement tail, ⟨hgap, hhead, hstatement, htail⟩, fuel, rest, hends, hfuel => by
    obtain ⟨c, more, htext, hbrace⟩ := hstatement.opens
    have hblank : ¬Text.isBlank c := hhead c (by rw [htext]; rfl)
    obtain ⟨htake, hdrop⟩ := takeWhile_of_front hgap hblank (more ++ (tail.text.toList ++ rest))
    have hcs : (Block.next gap statement tail).text.toList ++ rest =
        gap.toList ++ c :: (more ++ (tail.text.toList ++ rest)) := by
      rw [Block.text, String.toList_append, String.toList_append, htext]
      simp
    have hahead : c :: (more ++ (tail.text.toList ++ rest)) =
        statement.text.toList ++ (tail.text.toList ++ rest) := by
      rw [htext, List.cons_append]
    have hlength : (Block.next gap statement tail).text.toList.length =
        gap.toList.length + (statement.text.toList.length + tail.text.toList.length) := by
      rw [Block.text, String.toList_append, String.toList_append, List.length_append,
        List.length_append]
    have hpos : 0 < statement.text.toList.length := by rw [htext]; exact Nat.succ_pos _
    obtain ⟨n, rfl⟩ := Nat.exists_eq_add_of_le' (by omega : 1 ≤ fuel)
    have hfirst := Statement.IsTerminated.read statement hstatement n
      (tail.text.toList ++ rest) (by omega)
    have hothers := Block.IsTerminated.read tail htail n hends (by omega)
    rw [hcs, terminatedList?, hdrop, htake, String.ofList_toList]
    split
    · rename_i hnil
      cases hnil
    · rename_i behind hcons
      cases hcons
      exact absurd rfl hbrace
    · rw [hahead, hfirst]
      dsimp only [Option.bind_eq_bind, Option.bind_some]
      rw [hothers]
      rfl

end

/-! ## The reading -/

variable {first : Bool} {gap : String} {behind stop : List Char}

theorem reads_terminated_iff : terminated.Reads statement behind ↔ statement.IsTerminated := by
  constructor
  · intro h
    exact ((soundAt _).statement _ _ _ h).1
  · intro h
    refine Statement.IsTerminated.read statement h _ behind ?_
    rw [List.length_append]
    omega

theorem skips_terminated_iff : terminated.Skips first gap behind ↔
    (∀ c ∈ gap.toList, Text.isBlank c) ∧ ∀ c ∈ behind.head?, ¬Text.isBlank c := by
  have hhead : behind.dropWhile Text.isBlank = behind ↔ ∀ c ∈ behind.head?, ¬Text.isBlank c := by
    cases behind with
    | nil => simp
    | cons c behind =>
      rw [List.dropWhile_eq_self_iff]
      simp
  show (gap.toList ++ behind).dropWhile Text.isBlank = behind ↔ _
  rw [List.dropWhile_append, ← hhead]
  split
  · rename_i hblank
    rw [List.isEmpty_iff, List.dropWhile_eq_nil_iff] at hblank
    exact (and_iff_right hblank).symm
  · rename_i hblank
    rw [List.isEmpty_iff, List.dropWhile_eq_nil_iff] at hblank
    refine iff_of_false (fun h => ?_) fun h => hblank h.1
    exact hblank (List.dropWhile_eq_nil_iff.mp (List.append_left_eq_self.mp h))

theorem Statement.IsTerminated.head?_eq (h : statement.IsTerminated) :
    (statement.text.toList ++ behind).head? = statement.opening.toList.head? := by
  cases statement with
  | plain text =>
    obtain ⟨words, -, htext⟩ := h
    cases words <;> simp [Statement.text, Statement.opening, htext]
  | block before body rest =>
    obtain ⟨⟨words, -, hbefore⟩, -, -⟩ := h
    cases words <;> simp [Statement.text, Statement.opening, hbefore]

theorem stands_terminated_iff (hstop : EndsList stop) :
    {block : Block} → {first : Bool} → (terminated.Stands stop first block ↔ block.IsTerminated)
  | .done trailing, first => by
    have hhead : ∀ c ∈ stop.head?, ¬Text.isBlank c := by
      obtain rfl | ⟨behind, rfl⟩ := hstop
      · simp
      · rintro _ ⟨⟩
        decide
    exact skips_terminated_iff.trans (and_iff_left hhead)
  | .next gap statement rest, first => by
    have hrest : terminated.Stands stop false rest ↔ rest.IsTerminated :=
      stands_terminated_iff hstop
    rw [Reading.Stands, reads_terminated_iff, hrest, Reading.Leads, skips_terminated_iff,
      Block.IsTerminated, and_assoc]
    refine and_congr_right fun _ => ?_
    constructor
    · rintro ⟨hhead, hstatement, hothers⟩
      rw [hstatement.head?_eq] at hhead
      refine ⟨?_, hstatement, hothers⟩
      rwa [← List.append_nil statement.text.toList, hstatement.head?_eq]
    · rintro ⟨hhead, hstatement, hothers⟩
      rw [← List.append_nil statement.text.toList, hstatement.head?_eq] at hhead
      exact ⟨by rwa [hstatement.head?_eq], hstatement, hothers⟩

/-- A script is read if and only if it is terminated. -/
theorem parse?_terminatedTree? {text : String} :
    parse? terminatedTree? text = some block ↔ block.text = text ∧ block.IsTerminated := by
  have hlift : ∀ list : Block, list.text = text →
      Block.ofNodes? text.toList text.toList.length 0 (list.nodes 0) = some list := by
    rintro list rfl
    have hnodes := @Block.ofNodes?_nodes list list.text.toList [] [] 0 (by simp) rfl
    rwa [Nat.zero_add] at hnodes
  unfold parse? terminatedTree?
  constructor
  · intro h
    obtain ⟨root, hroot, hblock⟩ := Option.bind_eq_some_iff.mp h
    split at hroot
    · rename_i list hlist
      cases hroot
      obtain ⟨hterminated, htext, -⟩ := (soundAt _).list _ _ _ hlist
      rw [List.append_nil] at htext
      have hsame := String.toList_inj.mp htext.symm
      rw [hlift list hsame] at hblock
      cases hblock
      exact ⟨hsame, hterminated⟩
    · cases hroot
  · rintro ⟨rfl, hterminated⟩
    have hread := Block.IsTerminated.read block hterminated _ (.inl rfl) (Nat.le_refl _)
    rw [List.append_nil] at hread
    rw [hread]
    exact hlift block rfl

/-- **Terminated scripts are read statement by statement.** -/
theorem sequential_terminated : Parser.Sequential terminatedTree? terminated where
  script text block := parse?_terminatedTree?.trans
    (and_congr_right fun _ => (stands_terminated_iff (.inl rfl)).symm)
  gap hopening hreads hreads' hskips := by
    rw [reads_terminated_iff] at hreads hreads'
    rw [skips_terminated_iff, hreads.head?_eq] at hskips
    rwa [skips_terminated_iff, hreads'.head?_eq, hopening]
  lookahead _ _ _ _ h := reads_terminated_iff.mpr (reads_terminated_iff.mp h)
  exchange {statement statement' i body behind} hreads h := by
    rw [reads_terminated_iff] at hreads ⊢
    rw [stands_terminated_iff (.inr ⟨[], rfl⟩)]
    cases statement with
    | plain text => cases i <;> cases h
    | block before old rest =>
      obtain ⟨hbefore, -, rfl⟩ := hreads
      cases i with
      | zero =>
        cases h
        exact (and_iff_right hbefore).trans (and_iff_left rfl)
      | succ i => cases i <;> cases h

end Retrofit.Script
