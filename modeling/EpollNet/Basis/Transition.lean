import Mathlib.Logic.Basic

/-!
# Labelled transition systems with a discipline on their steps

A system is a partial step function on states and labels. A discipline says, of each state,
which labels the environment may choose there. `Reach` is the set of states some disciplined
run leads to, and `Reach.invariant` is the one induction every safety result uses: a predicate
that holds of the starts and survives each disciplined step holds of every reachable state.
-/

namespace EpollNet.Basis

variable {σ ℓ : Type}

/-- States reached from a start by steps the discipline allows. -/
inductive Reach (step : σ → ℓ → Option σ) (allow : σ → ℓ → Prop) (start : σ → Prop) : σ → Prop
  /-- Every start is reached. -/
  | refl {s : σ} : start s → Reach step allow start s
  /-- An allowed step of a reached state leads to a reached state. -/
  | tail {s s' : σ} {l : ℓ} :
      Reach step allow start s → allow s l → step s l = some s' → Reach step allow start s'

variable {step : σ → ℓ → Option σ} {allow strict : σ → ℓ → Prop} {start : σ → Prop}

/-- A predicate true of the starts and kept by every allowed step holds wherever a run leads. -/
theorem Reach.invariant {inv : σ → Prop} (initial : ∀ s, start s → inv s)
    (kept : ∀ s l s', inv s → allow s l → step s l = some s' → inv s') {s : σ}
    (reached : Reach step allow start s) : inv s := by
  induction reached with
  | refl begun => exact initial _ begun
  | tail _ allowed stepped ih => exact kept _ _ _ ih allowed stepped

/-- A stricter discipline reaches no more states. -/
theorem Reach.weaken (looser : ∀ s l, strict s l → allow s l) {s : σ}
    (reached : Reach step strict start s) : Reach step allow start s := by
  induction reached with
  | refl begun => exact .refl begun
  | tail _ allowed stepped ih => exact .tail ih (looser _ _ allowed) stepped

/-- Run a list of labels in order; `none` when one of them is not enabled. -/
def run (step : σ → ℓ → Option σ) : σ → List ℓ → Option σ
  | s, [] => some s
  | s, l :: rest => (step s l).bind fun s' => run step s' rest

/-- Run a list of labels, refusing a label the discipline does not allow. -/
def runAllowed (step : σ → ℓ → Option σ) (allow : σ → ℓ → Prop) [∀ s l, Decidable (allow s l)] :
    σ → List ℓ → Option σ
  | s, [] => some s
  | s, l :: rest =>
    if allow s l then (step s l).bind fun s' => runAllowed step allow s' rest else none

/-- A completed run whose labels are allowed in every state ends in a reached state. -/
theorem Reach.of_run {s s' : σ} {labels : List ℓ} (reached : Reach step allow start s)
    (allowed : ∀ l ∈ labels, ∀ s, allow s l) (completed : run step s labels = some s') :
    Reach step allow start s' := by
  induction labels generalizing s with
  | nil =>
    simp only [run, Option.some.injEq] at completed
    exact completed ▸ reached
  | cons l rest ih =>
    obtain ⟨next, stepped, completed⟩ := Option.bind_eq_some_iff.mp completed
    exact ih (reached.tail (allowed l List.mem_cons_self s) stepped)
      (fun later member => allowed later (List.mem_cons_of_mem _ member)) completed

variable [∀ s l, Decidable (allow s l)]

/-- A completed run whose labels are all allowed ends in a reached state. -/
theorem Reach.of_runAllowed {s s' : σ} {labels : List ℓ} (reached : Reach step allow start s)
    (completed : runAllowed step allow s labels = some s') : Reach step allow start s' := by
  induction labels generalizing s with
  | nil =>
    simp only [runAllowed, Option.some.injEq] at completed
    exact completed ▸ reached
  | cons l rest ih =>
    simp only [runAllowed] at completed
    split at completed
    · rename_i allowed
      cases stepped : step s l with
      | none => simp [stepped] at completed
      | some next =>
        rw [stepped, Option.bind_some] at completed
        exact ih (reached.tail allowed stepped) completed
    · contradiction

/-- A completed run whose last state passes a test exhibits a reached state that passes it. -/
theorem Reach.exists_of_run {s : σ} {labels : List ℓ} {test : σ → Bool} (begun : start s)
    (passed : (runAllowed step allow s labels).map test = some true) :
    ∃ s', Reach step allow start s' ∧ test s' = true := by
  cases completed : runAllowed step allow s labels with
  | none => simp [completed] at passed
  | some s' =>
    simp only [completed, Option.map_some, Option.some.injEq] at passed
    exact ⟨s', (Reach.refl begun).of_runAllowed completed, passed⟩

end EpollNet.Basis
