import EpollNet.Basis.Crew
import EpollNet.Basis.Transition
import Mathlib.Algebra.BigOperators.Group.List.Basic
import Mathlib.Algebra.GroupWithZero.Nat

/-!
# Runs that come to an end

`Path` is a run with its labels. When every step a discipline allows costs something of a measure,
paths are no longer than the measure of the state they set out from, and every state has a path to
one where no such step is left. The measure of a crew is the sum of the ranks of its threads.
-/

namespace EpollNet.Basis

variable {σ ℓ : Type}

/-- A run by steps the discipline allows, with its labels. -/
inductive Path (step : σ → ℓ → Option σ) (allow : σ → ℓ → Prop) : σ → List ℓ → σ → Prop
  /-- No step. -/
  | nil {s : σ} : Path step allow s [] s
  /-- A first step and the rest. -/
  | cons {s s' t : σ} {l : ℓ} {rest : List ℓ} : allow s l → step s l = some s' →
      Path step allow s' rest t → Path step allow s (l :: rest) t

/-- No step the discipline allows is enabled. -/
def Resting (step : σ → ℓ → Option σ) (allow : σ → ℓ → Prop) (s : σ) : Prop :=
  ∀ l, allow s l → step s l = none

/-- Every step the discipline allows lowers the measure. -/
def Descends (step : σ → ℓ → Option σ) (allow : σ → ℓ → Prop) (measure : σ → Nat) : Prop :=
  ∀ s l s', allow s l → step s l = some s' → measure s' < measure s

variable {step : σ → ℓ → Option σ} {allow loose : σ → ℓ → Prop} {start : σ → Prop} {s t : σ}
  {labels : List ℓ} {measure : σ → Nat}

/-- A path leads from reached states to reached states. -/
theorem Path.reach (path : Path step allow s labels t) (looser : ∀ s l, allow s l → loose s l)
    (reached : Reach step loose start s) : Reach step loose start t := by
  induction path with
  | nil => exact reached
  | cons allowed stepped _ ih => exact ih (reached.tail (looser _ _ allowed) stepped)

/-- A completed run whose labels are all allowed is a path. -/
theorem Path.of_runAllowed [∀ s l, Decidable (allow s l)]
    (completed : runAllowed step allow s labels = some t) : Path step allow s labels t := by
  induction labels generalizing s with
  | nil =>
    simp only [runAllowed, Option.some.injEq] at completed
    exact completed ▸ .nil
  | cons l rest ih =>
    simp only [runAllowed] at completed
    split at completed
    · rename_i allowed
      obtain ⟨next, stepped, completed⟩ := Option.bind_eq_some_iff.mp completed
      exact .cons allowed stepped (ih completed)
    · contradiction

/-- A path is one of a looser discipline. -/
theorem Path.mono (path : Path step allow s labels t) (looser : ∀ s l, allow s l → loose s l) :
    Path step loose s labels t := by
  induction path with
  | nil => exact .nil
  | cons allowed stepped _ ih => exact .cons (looser _ _ allowed) stepped ih

/-- What every step of a path keeps holds at its end. -/
theorem Path.keeps (inv : σ → Prop) (path : Path step allow s labels t)
    (kept : ∀ s l s', inv s → allow s l → step s l = some s' → inv s') (here : inv s) : inv t := by
  induction path with
  | nil => exact here
  | cons allowed stepped _ ih => exact ih (kept _ _ _ here allowed stepped)

/-- Each step of a path is paid for. -/
theorem Path.length_add_le (descends : Descends step allow measure)
    (path : Path step allow s labels t) : labels.length + measure t ≤ measure s := by
  induction path with
  | nil => exact Nat.le_of_eq (Nat.zero_add _)
  | cons allowed stepped _ ih =>
    have paid := descends _ _ _ allowed stepped
    rw [List.length_cons]
    omega

/-- Some path leads to rest. -/
theorem exists_rest (descends : Descends step allow measure) (s : σ) :
    ∃ labels t, Path step allow s labels t ∧ Resting step allow t := by
  induction bound : measure s using Nat.strongRecOn generalizing s with
  | _ n ih =>
    by_cases rest : Resting step allow s
    · exact ⟨[], s, .nil, rest⟩
    · have enabled : ∃ l, allow s l ∧ step s l ≠ none := by
        simpa [Resting] using rest
      obtain ⟨l, allowed, some⟩ := enabled
      obtain ⟨s', stepped⟩ := Option.ne_none_iff_exists'.mp some
      have paid := descends s l s' allowed stepped
      obtain ⟨labels, t, path, resting⟩ := ih (measure s') (bound ▸ paid) s' rfl
      exact ⟨l :: labels, t, .cons allowed stepped path, resting⟩

/-- The ranks of a crew, when one of its threads moves. -/
theorem Crew.sum_set {α : Type} {crew : List α} {w : Nat} {old : α} (at_old : crew[w]? = some old)
    (new : α) (rank : α → Nat) :
    ((crew.set w new).map rank).sum + rank old = (crew.map rank).sum + rank new := by
  obtain ⟨rest, before, after⟩ := Crew.split at_old new
  have whole := (before.map rank).sum_eq
  have moved := (after.map rank).sum_eq
  rw [List.map_cons, List.sum_cons] at whole moved
  omega

end EpollNet.Basis
