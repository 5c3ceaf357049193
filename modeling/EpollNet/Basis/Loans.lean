import Mathlib.Logic.Basic

/-!
# Memory on loan

A memory is used from some moment on. What is in use was free at that moment, and the rest is what
it was. Every step that touches only what is in use, takes only what is free and gives back what
it no longer uses keeps this, so when nothing is in use any more memory is what it was.
-/

namespace EpollNet.Basis

variable {β : Type} {m₀ m m' m'' : Nat → Option β} {own own' own'' : Nat → Prop}

/-- The addresses in use, and memory then and now. -/
structure Loan (m₀ m : Nat → Option β) (own : Nat → Prop) : Prop where
  /-- The rest is what it was. -/
  outside : ∀ a, ¬own a → m a = m₀ a
  /-- What is in use was free. -/
  inside : ∀ a, own a → m₀ a = none

/-- At first nothing is in use. -/
theorem Loan.start (m : Nat → Option β) (nothing : ∀ a, ¬own a) : Loan m m own :=
  ⟨fun _ _ => rfl, fun a used => absurd used (nothing a)⟩

/-- What a step does with the addresses in use before and after it. -/
structure Turnover (m m' : Nat → Option β) (own own' : Nat → Prop) : Prop where
  /-- It touches nobody else's. -/
  agree : ∀ a, ¬own a → ¬own' a → m' a = m a
  /-- What it takes was free. -/
  taken : ∀ a, own' a → ¬own a → m a = none
  /-- What it gives back is free. -/
  given : ∀ a, own a → ¬own' a → m' a = none

/-- A step that does nothing. -/
theorem Turnover.refl (m : Nat → Option β) (own : Nat → Prop) : Turnover m m own own :=
  ⟨fun _ _ _ => rfl, fun _ used unused => absurd used unused,
    fun _ used unused => absurd used unused⟩

/-- Two steps are one. -/
theorem Turnover.trans (first : Turnover m m' own own') (second : Turnover m' m'' own' own'') :
    Turnover m m'' own own'' := by
  constructor
  · intro a unused unused''
    by_cases used : own' a
    · exact (second.given a used unused'').trans (first.taken a used unused).symm
    · exact (second.agree a used unused'').trans (first.agree a unused used)
  · intro a used'' unused
    by_cases used : own' a
    · exact first.taken a used unused
    · exact (first.agree a unused used).symm.trans (second.taken a used'' used)
  · intro a before unused''
    by_cases used : own' a
    · exact second.given a used unused''
    · exact (second.agree a used unused'').trans (first.given a before used)

/-- Such a step keeps the loan. -/
theorem Loan.step (loan : Loan m₀ m own) (turnover : Turnover m m' own own') :
    Loan m₀ m' own' := by
  constructor
  · intro a unused
    by_cases used : own a
    · exact (turnover.given a used unused).trans (loan.inside a used).symm
    · exact (turnover.agree a used unused).trans (loan.outside a used)
  · intro a used
    by_cases before : own a
    · exact loan.inside a before
    · exact (loan.outside a before).symm.trans (turnover.taken a used before)

/-- With nothing in use memory is what it was. -/
theorem Loan.returned (loan : Loan m₀ m own) (nothing : ∀ a, ¬own a) : m = m₀ :=
  funext fun a => loan.outside a (nothing a)

/-- A step on one of several parts is a step on all of them. -/
theorem Turnover.part {ι : Type} {parts parts' : ι → Nat → Prop} (i : ι)
    (turnover : Turnover m m' (parts i) (parts' i)) (same : ∀ j, j ≠ i → parts' j = parts j) :
    Turnover m m' (fun a => ∃ j, parts j a) fun a => ∃ j, parts' j a := by
  constructor
  · intro a unused unused'
    exact turnover.agree a (fun used => unused ⟨i, used⟩) fun used => unused' ⟨i, used⟩
  · rintro a ⟨j, used⟩ unused
    by_cases other : j = i
    · subst other
      exact turnover.taken a used fun before => unused ⟨j, before⟩
    · rw [same j other] at used
      exact absurd ⟨j, used⟩ unused
  · rintro a ⟨j, used⟩ unused
    by_cases other : j = i
    · subst other
      exact turnover.given a used fun after => unused ⟨j, after⟩
    · rw [← same j other] at used
      exact absurd ⟨j, used⟩ unused

end EpollNet.Basis
