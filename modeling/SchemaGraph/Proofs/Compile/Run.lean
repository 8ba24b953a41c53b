import SchemaGraph.Compile.State

/-!
# Runs that answer

A run of the compiler either answers or fails, and a statement about what it
answers is a statement about the runs that do. The lemmas here take such a run
apart: a sequence answered if its parts did, one after the other, and the steps
that touch the state say what they did to it. Of the runs that fail no more is
needed than that they fail as their first failing part does.
-/

set_option autoImplicit false

namespace SchemaGraph.Compile

variable {α β : Type} {s s' : CompileState}

theorem bind_eq_ok {x : CompileM α} {f : α → CompileM β} {b : β} :
    (x >>= f) s = .ok b s' ↔ ∃ a s₁, x s = .ok a s₁ ∧ f a s₁ = .ok b s' := by
  show EStateM.bind x f s = _ ↔ _
  unfold EStateM.bind
  cases x s with
  | ok a s₁ =>
      constructor
      · intro hf
        exact ⟨a, s₁, rfl, hf⟩
      · rintro ⟨_, _, heq, hf⟩
        cases heq
        exact hf
  | error e s₁ => simp

theorem pure_eq_ok {a b : α} : (pure a : CompileM α) s = .ok b s' ↔ b = a ∧ s = s' := by
  show EStateM.Result.ok a s = .ok b s' ↔ _
  simp [eq_comm]

theorem map_eq_ok {x : CompileM α} {f : α → β} {b : β} :
    (f <$> x) s = .ok b s' ↔ ∃ a, x s = .ok a s' ∧ b = f a := by
  show EStateM.map f x s = _ ↔ _
  unfold EStateM.map
  cases x s with
  | ok a s₁ =>
      constructor
      · intro heq
        cases heq
        exact ⟨a, rfl, rfl⟩
      · rintro ⟨_, heq, rfl⟩
        cases heq
        rfl
  | error e s₁ => simp

theorem discard_eq_ok {x : CompileM α} {u : Unit} :
    (discard x : CompileM Unit) s = .ok u s' ↔ ∃ a, x s = .ok a s' := by
  show EStateM.map (Function.const α PUnit.unit) x s = _ ↔ _
  unfold EStateM.map
  cases x s with
  | ok a s₁ => simp
  | error e s₁ => simp

theorem throw_ne_ok {e : SchemaError} {a : α} : (throw e : CompileM α) s ≠ .ok a s' := by
  intro h
  cases h

theorem get_eq_ok {t : CompileState} :
    (get : CompileM CompileState) s = .ok t s' ↔ s = t ∧ s = s' := by
  show EStateM.Result.ok s s = .ok t s' ↔ _
  simp

theorem get_bind {f : CompileState → CompileM α} : (get >>= f) s = f s s := rfl

theorem modify_eq_ok {f : CompileState → CompileState} {u : Unit} :
    (modify f : CompileM Unit) s = .ok u s' ↔ s' = f s := by
  show EStateM.Result.ok () (f s) = .ok u s' ↔ _
  simp [eq_comm]

theorem lift_eq_ok {x : Except SchemaError α} {a : α} :
    lift x s = .ok a s' ↔ x = .ok a ∧ s = s' := by
  unfold lift
  cases x with
  | ok b => simp
  | error e => simp

theorem inProgress_eq_ok {id : NodeId} {x : CompileM α} {a : α} :
    inProgress id x s = .ok a s' ↔
      ∃ s₁, x { s with inProgress := s.inProgress.insert id } = .ok a s₁ ∧
        s' = { s₁ with inProgress := s₁.inProgress.erase id } := by
  unfold inProgress
  cases x { s with inProgress := s.inProgress.insert id } with
  | ok b s₁ =>
      constructor
      · intro heq
        cases heq
        exact ⟨s₁, rfl, rfl⟩
      · rintro ⟨_, heq, rfl⟩
        cases heq
        rfl
  | error e s₁ => simp

/-! ## Runs that fail

A failure is passed on by whatever would have followed. -/

theorem bind_eq_error {x : CompileM α} {f : α → CompileM β} {e : SchemaError}
    (h : x s = .error e s') : (x >>= f) s = .error e s' := by
  show EStateM.bind x f s = _
  unfold EStateM.bind
  rw [h]

theorem inProgress_eq_error {id : NodeId} {x : CompileM α} {e : SchemaError}
    (h : x { s with inProgress := s.inProgress.insert id } = .error e s') :
    inProgress id x s = .error e { s' with inProgress := s'.inProgress.erase id } := by
  rw [inProgress, h]

/-- A sequence fails in its first part or in the rest. -/
theorem bind_eq_error_iff {x : CompileM α} {f : α → CompileM β} {e : SchemaError} :
    (x >>= f) s = .error e s' ↔
      x s = .error e s' ∨ ∃ a s₁, x s = .ok a s₁ ∧ f a s₁ = .error e s' := by
  show EStateM.bind x f s = _ ↔ _
  unfold EStateM.bind
  cases x s with
  | ok a s₁ =>
      constructor
      · intro hf
        exact Or.inr ⟨a, s₁, rfl, hf⟩
      · rintro (heq | ⟨_, _, heq, hf⟩)
        · cases heq
        · cases heq
          exact hf
  | error e s₁ => simp

theorem map_eq_error {x : CompileM α} {f : α → β} {e : SchemaError}
    (h : x s = .error e s') : (f <$> x) s = .error e s' := by
  show EStateM.map f x s = _
  unfold EStateM.map
  rw [h]

theorem map_eq_error_iff {x : CompileM α} {f : α → β} {e : SchemaError} :
    (f <$> x) s = .error e s' ↔ x s = .error e s' := by
  refine ⟨fun h => ?_, map_eq_error⟩
  cases hx : x s with
  | ok a s₁ => exact absurd (h.symm.trans (map_eq_ok.mpr ⟨a, hx, rfl⟩)) nofun
  | error e' s₁ =>
      cases h.symm.trans (map_eq_error hx)
      rfl

end SchemaGraph.Compile
