import Hyperslab.Proofs.Run

/-!
# How runs end

`Ends` gives what holds after a run, whether it succeeds or stops at a fault.  The
state at a fault is the one in which the fault arose, so a run is followed one step
at a time from the state before it.
-/

namespace Hyperslab

variable {ε σ α β : Type} {Q : α → σ → Prop} {E : σ → Prop} {s : σ}

/-- `Q` holds of the value and the state of a run that succeeds, and `E` of the state of one that
does not. -/
def Ends (x : EStateM.Result ε σ α) (Q : α → σ → Prop) (E : σ → Prop) : Prop :=
  match x with
  | .ok a s => Q a s
  | .error _ s => E s

namespace Ends

theorem mono {x : EStateM.Result ε σ α} {Q' : α → σ → Prop} {E' : σ → Prop} (h : Ends x Q E)
    (hQ : ∀ a s, Q a s → Q' a s) (hE : ∀ s, E s → E' s) : Ends x Q' E' := by
  cases x with
  | ok a s => exact hQ a s h
  | error e s => exact hE s h

theorem of_ok {x : EStateM.Result ε σ α} {a : α} {s : σ} (h : Ends x Q E) (hx : x = .ok a s) :
    Q a s := by
  rw [hx] at h
  exact h

theorem of_error {x : EStateM.Result ε σ α} {e : ε} {s : σ} (h : Ends x Q E)
    (hx : x = .error e s) : E s := by
  rw [hx] at h
  exact h

theorem and {x : EStateM.Result ε σ α} {Q' : α → σ → Prop} {E' : σ → Prop} (h : Ends x Q E)
    (h' : Ends x Q' E') : Ends x (fun a s => Q a s ∧ Q' a s) fun s => E s ∧ E' s := by
  cases x with
  | ok a s => exact ⟨h, h'⟩
  | error e s => exact ⟨h, h'⟩

theorem of_returns {x : EStateM.Result ε σ α} (h : ∀ a s, x = .ok a s → Q a s) :
    Ends x Q fun _ => True := by
  cases x with
  | ok a s => exact h a s rfl
  | error e s => trivial

theorem ret {a : α} (h : Q a s) : Ends ((pure a : EStateM ε σ α) s) Q E := h

theorem fault {e : ε} (h : E s) : Ends ((throw e : EStateM ε σ α) s) Q E := h

theorem lift {x : Except ε α} (hE : E s) (hQ : ∀ a, x = .ok a → Q a s) :
    Ends ((ofExcept x : EStateM ε σ α) s) Q E := by
  cases x with
  | ok a => exact hQ a rfl
  | error e => exact hE

theorem bind {x : EStateM ε σ α} {f : α → EStateM ε σ β} {R : β → σ → Prop} (hx : Ends (x s) Q E)
    (hf : ∀ a s, Q a s → Ends (f a s) R E) : Ends ((x >>= f) s) R E := by
  show Ends (EStateM.bind x f s) R E
  unfold EStateM.bind
  cases h : x s with
  | ok a s => exact hf a s (hx.of_ok h)
  | error e s => exact hx.of_error h

/-- A first step that reads a pure result. -/
theorem lift_bind {x : Except ε α} {f : α → EStateM ε σ β} {R : β → σ → Prop} (hE : E s)
    (hf : ∀ a, x = .ok a → Ends (f a s) R E) :
    Ends (((ofExcept x : EStateM ε σ α) >>= f) s) R E := by
  cases x with
  | ok a => exact hf a rfl
  | error e => exact hE

theorem read_bind {f : σ → EStateM ε σ β} {R : β → σ → Prop} (hf : Ends (f s s) R E) :
    Ends (((get : EStateM ε σ σ) >>= f) s) R E := hf

theorem check {p : Prop} [Decidable p] {e : ε} {k : PUnit → EStateM ε σ β} {R : β → σ → Prop}
    (hE : E s) (hk : ¬p → Ends (k ⟨⟩ s) R E) :
    Ends ((if p then throw e >>= k else k ⟨⟩) s) R E := by
  by_cases hp : p
  · rw [if_pos hp]
    exact hE
  · rw [if_neg hp]
    exact hk hp

theorem onStore {x : Memory α} {w : Workspace} {Q : α → Workspace → Prop} {E : Workspace → Prop}
    (h : Ends (x w.store) (fun a s => Q a { w with store := s }) fun s => E { w with store := s }) :
    Ends (Workspace.onStore x w) Q E := by
  unfold Workspace.onStore
  cases hx : x w.store with
  | ok a s => exact h.of_ok hx
  | error e s => exact h.of_error hx

end Ends

/-! ## Runs that stop at a fault -/

theorem bind_stops {x : EStateM ε σ α} {f : α → EStateM ε σ β} {s s₁ : σ} {a : α} {e : ε}
    (h : x s = .ok a s₁) (hf : ∃ s', f a s₁ = .error e s') : ∃ s', (x >>= f) s = .error e s' := by
  obtain ⟨s', hf⟩ := hf
  refine ⟨s', ?_⟩
  show EStateM.bind x f s = _
  rw [EStateM.bind, h]
  exact hf

theorem stops_bind {x : EStateM ε σ α} {s : σ} {e : ε} (h : ∃ s', x s = .error e s')
    (f : α → EStateM ε σ β) : ∃ s', (x >>= f) s = .error e s' := by
  obtain ⟨s', h⟩ := h
  refine ⟨s', ?_⟩
  show EStateM.bind x f s = _
  rw [EStateM.bind, h]

theorem onStore_stops {α : Type} {x : Memory α} {w : Workspace} {e : Fault}
    (h : ∃ s, x w.store = .error e s) : ∃ w', Workspace.onStore x w = .error e w' := by
  obtain ⟨s, h⟩ := h
  exact ⟨{ w with store := s }, by rw [Workspace.onStore, h]⟩

end Hyperslab
