import EpollNet.Basis.Descent

/-!
# The highest value on a run

A measure of the states has a highest value on a run. What is made only when everything made before
is in use never comes to be more than one above the highest number in use, and never less than it.
-/

namespace EpollNet.Basis

variable {σ ℓ : Type}

/-- The highest value of a measure on a run. -/
def highest (step : σ → ℓ → Option σ) (measure : σ → Nat) : σ → List ℓ → Nat
  | s, [] => measure s
  | s, l :: rest =>
    max (measure s) (match step s l with
      | some s' => highest step measure s' rest
      | none => 0)

variable {step : σ → ℓ → Option σ} {allow : σ → ℓ → Prop} {measure used made : σ → Nat}
  {s s' t : σ} {l : ℓ} {labels : List ℓ}

/-- The highest value from a step on. -/
theorem highest_cons (stepped : step s l = some s') :
    highest step measure s (l :: labels) = max (measure s) (highest step measure s' labels) := by
  rw [highest, stepped]

/-- The first value is no higher. -/
theorem le_highest (s : σ) (labels : List ℓ) : measure s ≤ highest step measure s labels := by
  cases labels with
  | nil => exact Nat.le_refl _
  | cons l rest =>
    rw [highest]
    exact Nat.le_max_left _ _

/-- What is in use was made. -/
theorem Path.highest_le (grows : ∀ s l s', allow s l → step s l = some s' → made s ≤ made s')
    (within : ∀ s, used s ≤ made s) (path : Path step allow s labels t) :
    highest step used s labels ≤ made t ∧ made s ≤ made t := by
  induction path with
  | nil => exact ⟨within _, Nat.le_refl _⟩
  | @cons s s' t l rest allowed stepped _ ih =>
    have longer := grows _ _ _ allowed stepped
    have here := within s
    rw [highest_cons stepped]
    omega

/-- What is made only while everything is in use is one more than the highest use at most. -/
theorem Path.made_le (law : ∀ s l s', allow s l → step s l = some s' →
      made s' ≤ made s ∨ made s' ≤ used s + 1)
    (path : Path step allow s labels t) :
    made t ≤ max (made s) (highest step used s labels + 1) := by
  induction path with
  | nil => exact Nat.le_max_left _ _
  | @cons s s' t l rest allowed stepped _ ih =>
    have first := law _ _ _ allowed stepped
    rw [highest_cons stepped]
    omega

end EpollNet.Basis
