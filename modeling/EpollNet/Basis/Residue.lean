import Mathlib.Data.List.Basic

/-!
# Loops that carry a residue

A loop over a list emits some outputs at each element, depending on the element and on what the
earlier elements left behind. If the residue never changes how many outputs there are, the loop's
outputs are those of each element on its own exactly if no element leaves anything that a later one
notices.
-/

namespace Residue

variable {ρ α β : Type*}

/-- The outputs of a loop from a residue on. -/
def outputs (emit : ρ → α → List β) (leave : ρ → α → ρ) : ρ → List α → List β
  | _, [] => []
  | r, x :: rest => emit r x ++ outputs emit leave (leave r x) rest

variable {emit : ρ → α → List β} {leave : ρ → α → ρ} {start : ρ} {clear : α → α → Prop}

/-- A loop over indices whose body leaves behind and emits what the element at the index does. -/
theorem foldl_outputs {σ ι : Type*} {body : σ → ι → σ} {element : ι → α} (residue : σ → ρ)
    (emitted : σ → List β) (holds : σ → Prop)
    (step : ∀ s i, holds s → holds (body s i) ∧ residue (body s i) = leave (residue s) (element i) ∧
      emitted (body s i) = emitted s ++ emit (residue s) (element i))
    {s : σ} (start : holds s) (indices : List ι) :
    emitted (indices.foldl body s) =
      emitted s ++ outputs emit leave (residue s) (indices.map element) := by
  induction indices generalizing s with
  | nil => exact (List.append_nil _).symm
  | cons i rest ih =>
    obtain ⟨kept, left, adds⟩ := step s i start
    rw [List.foldl_cons, ih kept, left, adds, List.append_assoc]
    rfl

/-- Every element emits what it does from the start if and only if none notices the residue the
loop began with and none leaves anything a later one notices. -/
theorem outputs_apart_iff (same : ∀ r x, (emit r x).length = (emit start x).length)
    (notices : ∀ r x y, emit (leave r x) y = emit start y ↔ emit r y = emit start y ∧ clear x y)
    (r : ρ) (xs : List α) :
    outputs emit leave r xs = xs.flatMap (emit start) ↔
      (∀ x ∈ xs, emit r x = emit start x) ∧ xs.Pairwise clear := by
  induction xs generalizing r with
  | nil => simp [outputs]
  | cons x rest ih =>
    have first : outputs emit leave r (x :: rest) = (x :: rest).flatMap (emit start) ↔
        emit r x = emit start x ∧
          outputs emit leave (leave r x) rest = rest.flatMap (emit start) := by
      rw [outputs, List.flatMap_cons]
      exact ⟨fun equal => List.append_inj equal (same r x), fun parts => by rw [parts.1, parts.2]⟩
    rw [first, ih, List.forall_mem_cons, List.pairwise_cons, and_assoc]
    simp only [notices]
    constructor
    · rintro ⟨own, later, apart⟩
      exact ⟨own, fun y member => (later y member).1, fun y member => (later y member).2, apart⟩
    · rintro ⟨own, later, clears, apart⟩
      exact ⟨own, fun y member => ⟨later y member, clears y member⟩, apart⟩

end Residue
