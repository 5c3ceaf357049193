import EpollNet.Basis.Descent

/-!
# What a run shows to the outside

A concrete system shows, with each of its steps, some events of an abstract one. `collect` gathers
them over a run. When every step's events are steps of the abstract system that keep a relation
between the two states, the events of every concrete run are a run of the abstract system, so what
the abstract system's runs satisfy the concrete runs show.
-/

namespace EpollNet.Basis

variable {σ ℓ α ε : Type}

/-- The events of a run, in order. -/
def collect (step : σ → ℓ → Option σ) (observe : σ → ℓ → List ε) : σ → List ℓ → List ε
  | _, [] => []
  | s, l :: rest =>
    observe s l ++ match step s l with
      | some s' => collect step observe s' rest
      | none => []

/-- Every allowed step shows events that the abstract system can take, and the states stay related.
The invariant is what concrete states are known to satisfy. -/
def Simulates (step : σ → ℓ → Option σ) (allow : σ → ℓ → Prop) (abstract : α → ε → Option α)
    (observe : σ → ℓ → List ε) (inv : σ → Prop) (related : σ → α → Prop) : Prop :=
  ∀ s l s' a, inv s → related s a → allow s l → step s l = some s' →
    ∃ a', run abstract a (observe s l) = some a' ∧ related s' a'

variable {step : σ → ℓ → Option σ} {allow : σ → ℓ → Prop} {abstract : α → ε → Option α}
  {observe : σ → ℓ → List ε} {inv : σ → Prop} {related : σ → α → Prop} {s s' t : σ} {l : ℓ}
  {labels : List ℓ} {a : α}

/-- The events of a step and of what follows it. -/
theorem collect_cons (stepped : step s l = some s') :
    collect step observe s (l :: labels) = observe s l ++ collect step observe s' labels := by
  rw [collect, stepped]

/-- What is said of the events gathered so far, and kept by every step that adds its own, holds of
those of a path. -/
theorem Path.collects (inv : σ → Prop) (holds : σ → List ε → Prop)
    (kept : ∀ s l s', inv s → allow s l → step s l = some s' → inv s')
    (law : ∀ s l s' events, inv s → holds s events → allow s l → step s l = some s' →
      holds s' (events ++ observe s l))
    (path : Path step allow s labels t) (here : inv s) {events : List ε} (begun : holds s events) :
    holds t (events ++ collect step observe s labels) := by
  induction path generalizing events with
  | nil =>
    rw [collect, List.append_nil]
    exact begun
  | cons allowed stepped _ ih =>
    rw [collect_cons stepped, ← List.append_assoc]
    exact ih (kept _ _ _ here allowed stepped) (law _ _ _ _ here begun allowed stepped)

/-- A run of one list of labels behind another. -/
theorem run_append (first second : List ε) :
    run abstract a (first ++ second) =
      (run abstract a first).bind fun b => run abstract b second := by
  induction first generalizing a with
  | nil => rfl
  | cons e rest ih =>
    rw [List.cons_append, run, run]
    cases abstract a e with
    | none => rfl
    | some b => exact ih

/-- The events of a concrete run are a run of the abstract system. -/
theorem Simulates.path (simulates : Simulates step allow abstract observe inv related)
    (kept : ∀ s l s', inv s → allow s l → step s l = some s' → inv s')
    (path : Path step allow s labels t) (here : inv s) (begun : related s a) :
    ∃ b, run abstract a (collect step observe s labels) = some b ∧ related t b := by
  induction path generalizing a with
  | nil => exact ⟨a, rfl, begun⟩
  | cons allowed stepped _ ih =>
    obtain ⟨next, shown, still⟩ := simulates _ _ _ a here begun allowed stepped
    obtain ⟨b, followed, ended⟩ := ih (kept _ _ _ here allowed stepped) still
    refine ⟨b, ?_, ended⟩
    rw [collect_cons stepped, run_append, shown]
    exact followed

end EpollNet.Basis
