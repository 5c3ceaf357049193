import Mathlib.Data.Nat.Find
import EpollNet.Verif.Inbound

/-!
# How long `readData` goes on

`readData` passes over interrupts and over every error but a would-block, and goes round once more
after a full buffer. What it returns is settled by the results of its calls of `read` that are left
when the ones it passes over are dropped. A descriptor that is closed, or fails for good, never
gives such a result, and `readData` never returns.
-/

namespace EpollNet

/-- The results of calls of `read` for `len` bytes of a descriptor, issued one after another: a
count, or the error. -/
def readResults (fd : Fd) (len : Nat) : List ReadAnswer → Kernel → List (Except Errno Nat)
  | [], _ => []
  | answer :: rest, k =>
    match (k.arriveAll answer.arrivals).read fd len answer.result with
    | (result, k) => result.map List.length :: readResults fd len rest k

/-- A result the loop of `readData` does not pass over. -/
def decides : Except Errno Nat → Bool
  | .ok _ => true
  | .error e => e == .eagain

/-- The results that decide. -/
def deciding (results : List (Except Errno Nat)) : List (Except Errno Nat) := results.filter decides

/-- What `readData` returns after `nLen` bytes when these results decide. -/
def verdict (len : Nat) : Nat → List (Except Errno Nat) → Option Int
  | _, [] => none
  | _, .error _ :: _ => some (-2)
  | nLen, .ok n :: rest =>
    if n > 0 then
      if nLen + n = len then verdict len (nLen + n) rest else some (nLen + n : Nat)
    else some 0

/-- Deciding results after which `readData` has returned: any but one full buffer. -/
def settles (len : Nat) : List (Except Errno Nat) → Bool
  | [] => false
  | [.ok n] => n != len || n == 0
  | _ => true

/-- The answers that one call of `readData` may come to meet. -/
abbrev ReadAnswers := Nat → ReadAnswer

/-- The answers to the first calls of `read`. -/
def ReadAnswers.first (answers : ReadAnswers) (calls : Nat) : List ReadAnswer :=
  (List.range calls).map answers

/-- `readData` returns after finitely many calls of `read`. -/
def ReadTerminates (c : ConnObj) (ptr : Memory) (len : Nat) (answers : ReadAnswers) (k : Kernel) :
    Prop :=
  ∃ calls, (readData c ptr len (answers.first calls) k).ret.isSome ∧
    ∀ fewer < calls, (readData c ptr len (answers.first fewer) k).ret = none

variable {fd : Fd} {len nLen : Nat} {ptr : Memory} {k : Kernel}

/-- The returned value goes by the deciding results. -/
theorem readLoop_verdict (script : List ReadAnswer) :
    (readLoop fd len script nLen ptr k).ret =
      verdict len nLen (deciding (readResults fd len script k)) := by
  induction script generalizing nLen ptr k with
  | nil => rfl
  | cons answer rest ih =>
    rw [readLoop, readResults]
    obtain ⟨result, k'⟩ := (k.arriveAll answer.arrivals).read fd len answer.result
    cases result with
    | ok got =>
      have kept : deciding (.ok got.length :: readResults fd len rest k') =
        .ok got.length :: deciding (readResults fd len rest k') := rfl
      simp only [Except.map, kept, verdict]
      split
      · split
        · exact ih
        · rfl
      · rfl
    | error e =>
      cases e with
      | eintr => exact ih
      | eagain => rfl
      | other => exact ih

/-- After a full buffer any deciding result settles the return. -/
theorem verdict_full (result : Except Errno Nat) (rest : List (Except Errno Nat)) :
    (verdict len len (result :: rest)).isSome = true := by
  cases result with
  | error e => rfl
  | ok n =>
    rw [verdict]
    by_cases some' : n > 0
    · have more : len + n ≠ len := by omega
      rw [if_pos some', if_neg more]
      rfl
    · rw [if_neg some']
      rfl

/-- From the start the results settle the return unless there is none, or one full buffer. -/
theorem verdict_isSome (len : Nat) (results : List (Except Errno Nat)) :
    (verdict len 0 results).isSome = settles len results := by
  cases results with
  | nil => rfl
  | cons result rest =>
    cases result with
    | error e => rfl
    | ok n =>
      rw [verdict, Nat.zero_add]
      by_cases some' : n > 0
      · rw [if_pos some']
        by_cases full : n = len
        · subst full
          rw [if_pos rfl]
          cases rest with
          | nil => simpa [verdict, settles] using some'.ne'
          | cons second rest => exact verdict_full second rest
        · rw [if_neg full]
          cases rest with
          | nil => simp [settles, full]
          | cons second rest => rfl
      · rw [if_neg some']
        obtain rfl : n = 0 := Nat.eq_zero_of_not_pos some'
        cases rest <;> simp [settles]

/-- `readData` has returned if the results of `read` settle it. -/
theorem readData_isSome (c : ConnObj) (ptr : Memory) (len : Nat) (script : List ReadAnswer)
    (k : Kernel) : (readData c ptr len script k).ret.isSome =
      settles len (deciding (readResults c.fd len script k)) := by
  rw [readData, readLoop_verdict, verdict_isSome]

/-- `readData` returns after finitely many calls of `read` if and only if in some number of them,
interrupts and errors other than a would-block apart, there is a would-block, a count other than
`len` or zero, or a second count. -/
theorem readData_terminates_iff (c : ConnObj) (ptr : Memory) (len : Nat) (answers : ReadAnswers)
    (k : Kernel) : ReadTerminates c ptr len answers k ↔
      ∃ calls, settles len (deciding (readResults c.fd len (answers.first calls) k)) = true := by
  have returns : ∀ calls, (readData c ptr len (answers.first calls) k).ret.isSome =
      settles len (deciding (readResults c.fd len (answers.first calls) k)) :=
    fun calls => readData_isSome c ptr len (answers.first calls) k
  constructor
  · rintro ⟨calls, returned, _⟩
    exact ⟨calls, returns calls ▸ returned⟩
  · rintro ⟨calls, settled⟩
    have some : ∃ calls, (readData c ptr len (answers.first calls) k).ret.isSome = true :=
      ⟨calls, (returns calls).trans settled⟩
    refine ⟨Nat.find some, Nat.find_spec some, fun fewer less => ?_⟩
    simpa using Nat.find_min some less

/-- On a closed descriptor no result decides. -/
theorem deciding_closed (script : List ReadAnswer) {k : Kernel} (closed : k.sock fd = none)
    (quiet : ∀ answer ∈ script, answer.arrivals = []) :
    deciding (readResults fd len script k) = [] := by
  induction script generalizing k with
  | nil => rfl
  | cons answer rest ih =>
    have read : (k.arriveAll answer.arrivals).read fd len answer.result =
        (.error .other, k.log (.read fd [])) := by
      rw [quiet answer List.mem_cons_self]
      simp only [Kernel.arriveAll, List.foldl_nil, Kernel.read, closed]
    rw [readResults, read]
    exact ih closed fun later member => quiet later (List.mem_cons_of_mem _ member)

/-- A descriptor that its error path closed: `readData` never returns. -/
theorem readData_endless : ¬∀ (c : ConnObj) (ptr : Memory) (len : Nat) (answers : ReadAnswers)
    (k : Kernel), (∃ last, ∀ i, last ≤ i → (answers i).result ≠ .error .eintr) →
      (∃ last, ∀ i, last ≤ i → (answers i).arrivals = []) → ReadTerminates c ptr len answers k := by
  intro always
  obtain ⟨calls, settled, _⟩ := always ⟨4, .connclosed, none, 0⟩ (fun _ => 0)
    Server.recvbufferSize (fun _ => ⟨[], .error .other⟩) Kernel.initial
    ⟨0, fun i _ => by simp⟩ ⟨0, fun i _ => rfl⟩
  rw [readData_isSome, deciding_closed _ rfl] at settled
  · contradiction
  · intro answer member
    obtain ⟨i, _, rfl⟩ := List.mem_map.mp member
    rfl

end EpollNet
