import Mathlib.Logic.Basic

/-!
# Calls on an object and on what it stands for

An object is used by calls, each of which returns something, changes the object or fails. It
stands for a value on which the same calls have a meaning. If a call on an object that stands for
a value returns what it means there, and leaves the object standing for the value it makes, so do
any calls, one after the other. The relation may know how many calls are still to come. Where some
calls do not, the calls go well exactly as long as each is one that does.
-/

namespace EpollNet.Basis

variable {ω ρ σ τ ε : Type}

/-- What follows a computation that ended. -/
theorem ok_bind {α β : Type} (a : α) (next : α → Except ε β) : Except.ok a >>= next = next a := rfl

/-- What follows one that failed does not come about. -/
theorem error_bind {α β : Type} (e : ε) (next : α → Except ε β) :
    Except.error e >>= next = .error e := rfl

/-- A computation that ends has parts that end. -/
theorem bind_ends {α β : Type} {first : Except ε α} {next : α → Except ε β} {result : β}
    (ended : first >>= next = .ok result) : ∃ a, first = .ok a ∧ next a = .ok result := by
  cases first with
  | error e => cases ended
  | ok a => exact ⟨a, rfl, ended⟩

/-- A computation that comes to the same as one that ended has ended. -/
theorem ends_alike {α β γ : Type} {f : α → γ} {g : β → γ} {first : Except ε α}
    {other : Except ε β} {b : β} (same : first.map f = other.map g) (ended : other = .ok b) :
    ∃ a, first = .ok a ∧ f a = g b := by
  rw [ended] at same
  cases first with
  | error e => cases same
  | ok a => exact ⟨a, rfl, Except.ok.inj same⟩

/-- Calls one after the other: what they return, and the object afterwards. -/
def calls (call : ω → σ → Except ε (ρ × σ)) : List ω → σ → Except ε (List ρ × σ)
  | [], s => .ok ([], s)
  | op :: rest, s => do
    let (result, s) ← call op s
    let (results, s) ← calls call rest s
    .ok (result :: results, s)

/-- Their meaning: what they return, and the value afterwards. -/
def meaning (act : ω → τ → ρ × τ) : List ω → τ → List ρ × τ
  | [], value => ([], value)
  | op :: rest, value =>
    ((act op value).1 :: (meaning act rest (act op value).2).1,
      (meaning act rest (act op value).2).2)

/-- Every call may be made when its turn comes. -/
def Permitted (call : ω → σ → Except ε (ρ × σ)) (may : ω → σ → Prop) : List ω → σ → Prop
  | [], _ => True
  | op :: rest, s =>
    may op s ∧ ∀ result s', call op s = .ok (result, s') → Permitted call may rest s'

/-- Every call ends, and well. -/
def Throughout (call : ω → σ → Except ε (ρ × σ)) (good : ω → σ → ρ → σ → Prop) :
    List ω → σ → Prop
  | [], _ => True
  | op :: rest, s => ∃ result s', call op s = .ok (result, s') ∧ good op s result s' ∧
      Throughout call good rest s'

/-- Every call suits the value it finds. -/
def Along (next : ω → τ → τ) (suits : ω → τ → Prop) : List ω → τ → Prop
  | [], _ => True
  | op :: rest, value => suits op value ∧ Along next suits rest (next op value)

variable {call : ω → σ → Except ε (ρ × σ)} {act : ω → τ → ρ × τ} {may : ω → σ → Prop}
  {ops : List ω} {s : σ} {value : τ}

/-- Calls that are all of a kind are permitted as calls of this kind. -/
theorem Permitted.and {kind : ω → Prop} (permitted : Permitted call may ops s)
    (all : ∀ op ∈ ops, kind op) : Permitted call (fun op s => kind op ∧ may op s) ops s := by
  induction ops generalizing s with
  | nil => trivial
  | cons op ops ih =>
    obtain ⟨allowed, later⟩ := permitted
    exact ⟨⟨all op List.mem_cons_self, allowed⟩, fun result s' called =>
      ih (later result s' called) fun other member => all other (List.mem_cons_of_mem _ member)⟩

/-- Calls that are all of a kind may be made as such. -/
theorem Permitted.of_all {kind : ω → Prop} (all : ∀ op ∈ ops, kind op) (s : σ) :
    Permitted call (fun op _ => kind op) ops s := by
  induction ops generalizing s with
  | nil => trivial
  | cons op ops ih =>
    exact ⟨all op List.mem_cons_self, fun _ s' _ =>
      ih (fun other member => all other (List.mem_cons_of_mem _ member)) s'⟩

/-- A call that ends is permitted with those that are permitted after it. -/
theorem Permitted.cons {op : ω} {result : ρ} {s' : σ} (allowed : may op s)
    (called : call op s = .ok (result, s')) (later : Permitted call may ops s') :
    Permitted call may (op :: ops) s := by
  refine ⟨allowed, fun result' s'' called' => ?_⟩
  have same : (result', s'') = (result, s') := Except.ok.inj (called'.symm.trans called)
  obtain ⟨rfl, rfl⟩ := Prod.mk.inj same
  exact later

/-- Calls that each do what they mean do so one after the other. -/
theorem calls_refine (rel : Nat → σ → τ → Prop)
    (each : ∀ n op s value, rel (n + 1) s value → may op s →
      ∃ s', call op s = .ok ((act op value).1, s') ∧ rel n s' (act op value).2)
    (related : rel ops.length s value) (permitted : Permitted call may ops s) :
    ∃ s', calls call ops s = .ok ((meaning act ops value).1, s') ∧
      rel 0 s' (meaning act ops value).2 := by
  induction ops generalizing s value with
  | nil => exact ⟨s, rfl, related⟩
  | cons op ops ih =>
    obtain ⟨allowed, later⟩ := permitted
    obtain ⟨next, called, related'⟩ := each ops.length op s value related allowed
    obtain ⟨s', rest, related''⟩ := ih related' (later _ _ called)
    refine ⟨s', ?_, related''⟩
    simp only [calls, called, bind, Except.bind, rest]
    rfl

/-- Calls that each keep an invariant, which may know how many are still to come, keep it one after
the other. -/
theorem calls_keep (inv : Nat → σ → Prop)
    (each : ∀ n op s, inv (n + 1) s → may op s →
      ∃ result s', call op s = .ok (result, s') ∧ inv n s')
    (holds : inv ops.length s) (permitted : Permitted call may ops s) :
    ∃ results s', calls call ops s = .ok (results, s') ∧ inv 0 s' := by
  induction ops generalizing s with
  | nil => exact ⟨[], s, rfl, holds⟩
  | cons op ops ih =>
    obtain ⟨allowed, later⟩ := permitted
    obtain ⟨result, next, called, kept⟩ := each ops.length op s holds allowed
    obtain ⟨results, s', rest, kept'⟩ := ih kept (later _ _ called)
    refine ⟨result :: results, s', ?_, kept'⟩
    simp only [calls, called, bind, Except.bind, rest]

/-- Calls that go well if they suit the value, and do not go well otherwise, go well throughout if
and only if each suits the value it finds. -/
theorem throughout_iff {good : ω → σ → ρ → σ → Prop} {next : ω → τ → τ} {suits : ω → τ → Prop}
    (rel : σ → τ → Prop)
    (well : ∀ op s value, rel s value → may op s → suits op value →
      ∃ result s', call op s = .ok (result, s') ∧ good op s result s' ∧ rel s' (next op value))
    (badly : ∀ op s value, rel s value → may op s → ¬suits op value →
      ∀ result s', call op s = .ok (result, s') → ¬good op s result s')
    (related : rel s value) (permitted : Permitted call may ops s) :
    Throughout call good ops s ↔ Along next suits ops value := by
  induction ops generalizing s value with
  | nil => exact Iff.rfl
  | cons op ops ih =>
    obtain ⟨allowed, later⟩ := permitted
    by_cases suited : suits op value
    · obtain ⟨result, s', called, went, related'⟩ := well op s value related allowed suited
      have rest := ih related' (later result s' called)
      constructor
      · rintro ⟨result', s'', called', _, onward⟩
        have same : (result', s'') = (result, s') := Except.ok.inj (called'.symm.trans called)
        obtain ⟨rfl, rfl⟩ := Prod.mk.inj same
        exact ⟨suited, rest.mp onward⟩
      · rintro ⟨_, onward⟩
        exact ⟨result, s', called, went, rest.mpr onward⟩
    · constructor
      · rintro ⟨result, s', called, went, _⟩
        exact absurd went (badly op s value related allowed suited result s' called)
      · rintro ⟨suited', _⟩
        exact absurd suited' suited

/-- Calls suit whatever they find if they do by themselves. -/
theorem along_all {next : ω → τ → τ} {kind : ω → Prop} :
    Along next (fun op _ => kind op) ops value ↔ ∀ op ∈ ops, kind op := by
  induction ops generalizing value with
  | nil => exact iff_of_true trivial fun op member => absurd member List.not_mem_nil
  | cons op ops ih =>
    rw [List.forall_mem_cons, ← ih]
    exact Iff.rfl

end EpollNet.Basis
