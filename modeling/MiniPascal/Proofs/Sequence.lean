/-!
# Computations one after the other

A sequence of two computations has a result where both of them have one.  Whether a computation has
a result or stops, it leaves a state behind.
-/

namespace MiniPascal

theorem bind_of_ok {x : EStateM ε σ α} {f : α → EStateM ε σ β} {s s' : σ} {value : α}
    (h : x s = .ok value s') : (x >>= f) s = f value s' := by
  show EStateM.bind x f s = _
  simp only [EStateM.bind, h]

theorem bind_of_error {x : EStateM ε σ α} {f : α → EStateM ε σ β} {s s' : σ} {e : ε}
    (h : x s = .error e s') : (x >>= f) s = .error e s' := by
  show EStateM.bind x f s = _
  simp only [EStateM.bind, h]

theorem get_bind (f : σ → EStateM ε σ α) (s : σ) : (get >>= f) s = f s s :=
  rfl

theorem bind_eq_ok_iff {x : EStateM ε σ α} {f : α → EStateM ε σ β} {s t : σ} {value : β} :
    (x >>= f) s = .ok value t ↔ ∃ first s', x s = .ok first s' ∧ f first s' = .ok value t := by
  cases hx : x s with
  | ok first s' =>
      rw [bind_of_ok hx]
      constructor
      · intro hrun
        exact ⟨first, s', rfl, hrun⟩
      · rintro ⟨first', t', hsame, hrun⟩
        cases hsame
        exact hrun
  | error e s' =>
      rw [bind_of_error hx]
      constructor
      · intro hrun
        cases hrun
      · rintro ⟨first', t', hsame, -⟩
        cases hsame

theorem exists_of_bind_ok {x : Except ε α} {f : α → Except ε β} {result : β}
    (h : (x >>= f) = .ok result) : ∃ value, x = .ok value ∧ f value = .ok result := by
  cases x with
  | error e => cases h
  | ok value => exact ⟨value, rfl, h⟩

/-! ## What is left behind -/

/-- The state that a computation leaves behind, whether it has a result or stops. -/
def stateAfter (x : EStateM ε σ α) (s : σ) : σ :=
  match x s with
  | .ok _ s' => s'
  | .error _ s' => s'

theorem stateAfter_of_ok {x : EStateM ε σ α} {s s' : σ} {value : α} (h : x s = .ok value s') :
    stateAfter x s = s' := by
  rw [stateAfter, h]

theorem stateAfter_of_error {x : EStateM ε σ α} {s s' : σ} {e : ε} (h : x s = .error e s') :
    stateAfter x s = s' := by
  rw [stateAfter, h]

/-- The computation leaves the state as it was, whether it has a result or stops. -/
def Restores (x : EStateM ε σ α) : Prop :=
  ∀ s, stateAfter x s = s

end MiniPascal
