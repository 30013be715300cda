import Hyperslab.Engine

/-!
# Runs that succeed

A computation on memory, and a call, either succeeds with a value and a state or
stops at a fault.  The lemmas here take a run that succeeds apart, one step of the
computation at a time.
-/

namespace Hyperslab

variable {ε σ α β : Type}

@[simp] theorem bind_eq_ok {x : EStateM ε σ α} {f : α → EStateM ε σ β} {s s' : σ} {b : β} :
    (x >>= f) s = .ok b s' ↔ ∃ a s₁, x s = .ok a s₁ ∧ f a s₁ = .ok b s' := by
  show EStateM.bind x f s = _ ↔ _
  unfold EStateM.bind
  cases h : x s with
  | ok a s₁ =>
    constructor
    · intro hf
      exact ⟨a, s₁, rfl, hf⟩
    · intro h
      obtain ⟨_, _, ha, hf⟩ := h
      cases ha
      exact hf
  | error e s₁ =>
    constructor
    · intro hf
      cases hf
    · intro h
      obtain ⟨_, _, ha, _⟩ := h
      cases ha

@[simp] theorem pure_eq_ok {a b : α} {s s' : σ} :
    (pure a : EStateM ε σ α) s = .ok b s' ↔ a = b ∧ s = s' := by
  show EStateM.Result.ok a s = _ ↔ _
  rw [EStateM.Result.ok.injEq]

@[simp] theorem throw_eq_ok {e : ε} {b : α} {s s' : σ} :
    (throw e : EStateM ε σ α) s = .ok b s' ↔ False := by
  refine ⟨fun h => ?_, False.elim⟩
  cases h

@[simp] theorem get_eq_ok {s s' t : σ} :
    (get : EStateM ε σ σ) s = .ok t s' ↔ s = t ∧ s = s' := by
  show EStateM.Result.ok s s = _ ↔ _
  rw [EStateM.Result.ok.injEq]

@[simp] theorem set_eq_ok {s s' t : σ} {u : PUnit} :
    (set t : EStateM ε σ PUnit) s = .ok u s' ↔ t = s' := by
  show EStateM.Result.ok PUnit.unit t = _ ↔ _
  rw [EStateM.Result.ok.injEq]
  exact ⟨fun h => h.2, fun h => ⟨rfl, h⟩⟩

@[simp] theorem modify_eq_ok {f : σ → σ} {s s' : σ} {u : PUnit} :
    (modify f : EStateM ε σ PUnit) s = .ok u s' ↔ f s = s' := by
  show EStateM.Result.ok PUnit.unit (f s) = _ ↔ _
  rw [EStateM.Result.ok.injEq]
  exact ⟨fun h => h.2, fun h => ⟨rfl, h⟩⟩

@[simp] theorem ofExcept_eq_ok {x : Except ε α} {b : α} {s s' : σ} :
    (ofExcept x : EStateM ε σ α) s = .ok b s' ↔ x = .ok b ∧ s = s' := by
  cases x with
  | ok a =>
    show EStateM.Result.ok a s = _ ↔ _
    rw [EStateM.Result.ok.injEq, Except.ok.injEq]
  | error e =>
    constructor
    · intro h
      cases h
    · intro h
      obtain ⟨h, _⟩ := h
      cases h

/-- A guard that lets a run go on. -/
@[simp] theorem guard_eq_ok {p : Prop} [Decidable p] {e : ε} {k : PUnit → EStateM ε σ β} {b : β}
    {s s' : σ} :
    (if p then throw e >>= k else k ⟨⟩) s = .ok b s' ↔ ¬p ∧ k ⟨⟩ s = .ok b s' := by
  by_cases hp : p
  · rw [if_pos hp]
    simp [hp]
  · rw [if_neg hp]
    simp [hp]

@[simp] theorem onStore_eq_ok {x : Memory α} {a : α} {w w' : Workspace} :
    Workspace.onStore x w = .ok a w' ↔
      ∃ s, x w.store = .ok a s ∧ w' = { w with store := s } := by
  unfold Workspace.onStore
  cases x w.store with
  | ok b s =>
    constructor
    · intro h
      cases h
      exact ⟨s, rfl, rfl⟩
    · intro h
      obtain ⟨_, h, rfl⟩ := h
      cases h
      rfl
  | error e s =>
    constructor
    · intro h
      cases h
    · intro h
      obtain ⟨_, h, _⟩ := h
      cases h

/-! ## Runs that have to succeed -/

theorem bind_returns {x : EStateM ε σ α} {f : α → EStateM ε σ β} {s s₁ : σ} {a : α}
    (h : x s = .ok a s₁) (h' : ∃ b s', f a s₁ = .ok b s') : ∃ b s', (x >>= f) s = .ok b s' := by
  obtain ⟨b, s', h'⟩ := h'
  exact ⟨b, s', bind_eq_ok.mpr ⟨a, s₁, h, h'⟩⟩

theorem guard_returns {p : Prop} [Decidable p] {e : ε} {k : PUnit → EStateM ε σ β} {s : σ}
    (hp : ¬p) (h : ∃ b s', k ⟨⟩ s = .ok b s') :
    ∃ b s', (if p then throw e >>= k else k ⟨⟩) s = .ok b s' := by
  rw [if_neg hp]
  exact h

theorem ofExcept_returns {x : Except ε α} {a : α} (h : x = .ok a) (s : σ) :
    (ofExcept x : EStateM ε σ α) s = .ok a s := ofExcept_eq_ok.mpr ⟨h, rfl⟩

theorem onStore_returns {x : Memory α} {a : α} {w : Workspace} {s : Store}
    (h : x w.store = .ok a s) : Workspace.onStore x w = .ok a { w with store := s } :=
  onStore_eq_ok.mpr ⟨s, h, rfl⟩

/-- Whether a run succeeds. -/
def succeeds : EStateM.Result ε σ α → Bool
  | .ok _ _ => true
  | .error _ _ => false

theorem returns_of_succeeds {x : EStateM.Result ε σ α} (h : succeeds x = true) :
    ∃ a s, x = .ok a s := by
  cases x with
  | ok a s => exact ⟨a, s, rfl⟩
  | error e s => cases h

/-! ## Computations without a state -/

@[simp] theorem except_bind_eq_ok {x : Except ε α} {f : α → Except ε β} {b : β} :
    (x >>= f) = .ok b ↔ ∃ a, x = .ok a ∧ f a = .ok b := by
  cases x with
  | ok a =>
    constructor
    · intro h
      exact ⟨a, rfl, h⟩
    · intro h
      obtain ⟨_, ha, h⟩ := h
      cases ha
      exact h
  | error e =>
    constructor
    · intro h
      cases h
    · intro h
      obtain ⟨_, ha, _⟩ := h
      cases ha

@[simp] theorem except_bind_eq_error {x : Except ε α} {f : α → Except ε β} {e : ε} :
    (x >>= f) = .error e ↔ x = .error e ∨ ∃ a, x = .ok a ∧ f a = .error e := by
  cases x with
  | ok a =>
    constructor
    · intro h
      exact .inr ⟨a, rfl, h⟩
    · intro h
      rcases h with h | ⟨_, ha, h⟩
      · cases h
      · cases ha
        exact h
  | error e' =>
    constructor
    · intro h
      cases h
      exact .inl rfl
    · intro h
      rcases h with h | ⟨_, ha, _⟩
      · cases h
        rfl
      · cases ha

/-- A last step that cannot fail. -/
@[simp] theorem except_bind_pure_eq_error {x : Except ε α} {f : α → β} {e : ε} :
    (x >>= fun a => pure (f a)) = .error e ↔ x = .error e := by
  rw [except_bind_eq_error]
  constructor
  · intro h
    rcases h with h | ⟨_, _, h⟩
    · exact h
    · cases h
  · exact .inl

@[simp] theorem except_pure_eq_ok {a b : α} : (pure a : Except ε α) = .ok b ↔ a = b := by
  show Except.ok a = _ ↔ _
  rw [Except.ok.injEq]

end Hyperslab
