/-!
# Steps that can fail

How a step that may fail is continued, as equations for rewriting, and what a run through a list
gives: it succeeds if every step does (`exists_mapM_eq_ok`), and then holds the results of the steps
(`mem_iff_of_mapM_eq_ok`).
-/

namespace Retrofit

variable {α β ε : Type} {a : α} {as : List α} {bs : List β} {b : β}

theorem ok_bind (a : α) (f : α → Except ε β) : (Except.ok a >>= f) = f a :=
  rfl

theorem error_bind (e : ε) (f : α → Except ε β) : (Except.error e >>= f) = .error e :=
  rfl

/-- A step that is continued succeeds if it does and its continuation does. -/
theorem bind_eq_ok {x : Except ε α} {f : α → Except ε β} :
    (x >>= f) = .ok b ↔ ∃ a, x = .ok a ∧ f a = .ok b := by
  cases x <;> simp [ok_bind, error_bind]

theorem map_eq_map (f : α → β) (x : Except ε α) : f <$> x = x.map f :=
  rfl

theorem map_eq_ok {f : α → β} {x : Except ε α} : x.map f = .ok b ↔ ∃ a, x = .ok a ∧ f a = b := by
  cases x <;> simp [Except.map]

theorem mapError_ok {ε' : Type} (f : ε → ε') (a : α) :
    (Except.ok a : Except ε α).mapError f = .ok a :=
  rfl

theorem mapError_error {ε' : Type} (f : ε → ε') (e : ε) :
    (Except.error e : Except ε α).mapError f = .error (f e) :=
  rfl

theorem mapError_eq_ok {ε' : Type} {f : ε → ε'} {x : Except ε α} :
    x.mapError f = .ok a ↔ x = .ok a := by
  cases x with
  | error e => simp [mapError_error]
  | ok b => simp [mapError_ok]

@[simp] theorem toOption_ok (a : α) : (Except.ok a : Except ε α).toOption = some a :=
  rfl

@[simp] theorem toOption_error (e : ε) : (Except.error e : Except ε α).toOption = none :=
  rfl

@[simp] theorem toOption_pure (a : α) : (pure a : Except ε α).toOption = some a :=
  rfl

theorem toOption_bind (x : Except ε α) (f : α → Except ε β) :
    (x >>= f).toOption = x.toOption.bind fun a => (f a).toOption := by
  cases x <;> rfl

theorem toOption_eq_some {x : Except ε α} : x.toOption = some a ↔ x = .ok a := by
  cases x <;> simp [Except.toOption]

theorem pure_eq_ok (a : α) : (pure a : Except ε α) = .ok a :=
  rfl

theorem mapM_cons_eq_ok {f : α → Except ε β} :
    (a :: as).mapM f = .ok bs ↔
      ∃ first others, f a = .ok first ∧ as.mapM f = .ok others ∧ bs = first :: others := by
  rw [List.mapM_cons]
  cases f a with
  | error => simp [error_bind]
  | ok first => cases as.mapM f <;> simp [ok_bind, error_bind, pure_eq_ok, eq_comm]

theorem mem_iff_of_mapM_eq_ok {f : α → Except ε β} (h : as.mapM f = .ok bs) :
    b ∈ bs ↔ ∃ a ∈ as, f a = .ok b := by
  induction as generalizing bs with
  | nil =>
    cases h
    simp
  | cons a rest ih =>
    obtain ⟨first, others, hfirst, hrest, rfl⟩ := mapM_cons_eq_ok.mp h
    simp [ih hrest, hfirst, eq_comm]

theorem exists_of_mapM_eq_ok {f : α → Except ε β} (h : as.mapM f = .ok bs) (ha : a ∈ as) :
    ∃ b, f a = .ok b := by
  induction as generalizing bs with
  | nil => cases ha
  | cons a' rest ih =>
    obtain ⟨first, others, hfirst, hrest, rfl⟩ := mapM_cons_eq_ok.mp h
    rcases List.mem_cons.mp ha with rfl | ha
    · exact ⟨first, hfirst⟩
    · exact ih hrest ha

theorem exists_mapM_eq_ok {f : α → Except ε β} (h : ∀ a ∈ as, ∃ b, f a = .ok b) :
    ∃ bs, as.mapM f = .ok bs := by
  induction as with
  | nil => exact ⟨[], rfl⟩
  | cons a rest ih =>
    obtain ⟨first, hfirst⟩ := h a (List.mem_cons_self ..)
    obtain ⟨others, hrest⟩ := ih fun b hb => h b (List.mem_cons_of_mem a hb)
    exact ⟨first :: others, mapM_cons_eq_ok.mpr ⟨first, others, hfirst, hrest, rfl⟩⟩

end Retrofit
