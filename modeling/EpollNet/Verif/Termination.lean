import Mathlib.Data.Nat.Find
import EpollNet.Verif.Outbound

/-!
# How long `sendData` goes on

`sendData` leaves its loop when a `write` fails or accepts less than it was asked for. After a
complete write it asks for the same bytes again, so a socket that accepts everything keeps it
writing.
-/

namespace EpollNet

/-- The results of the calls of `write` that one `sendData` may come to make. -/
abbrev WriteResults := Nat → Except Errno Nat

/-- The results of the first calls. -/
def WriteResults.first (results : WriteResults) (calls : Nat) : WriteScript :=
  (List.range calls).map results

/-- How many of the calls transferred data. -/
def transfers (script : WriteScript) : Nat := script.countP fun result => result.toBool

/-- Results of calls of `write` for `n` bytes of a descriptor: errors or counts between one and
`n`, interrupts only finitely often, and nothing but errors if the descriptor is closed. -/
structure WriteResults.Possible (results : WriteResults) (k : Kernel) (fd : Fd) (n : Nat) :
    Prop where
  /-- A count is at least one and at most what was asked for. -/
  counts : ∀ i m, results i = .ok m → 1 ≤ m ∧ m ≤ n
  /-- The interrupts come to an end. -/
  interrupts : ∃ last, ∀ i, last ≤ i → results i ≠ .error .eintr
  /-- A closed descriptor takes nothing. -/
  closed : k.sock fd = none → ∀ i, results i = .error .other

/-- `sendData` returns after finitely many calls of `write`, and no more of them transfer data than
there are bytes to send. -/
def Terminates (c : ConnObj) (b : Buf) (results : WriteResults) (k : Kernel) : Prop :=
  ∃ calls, (sendData c b (results.first calls) k).ret.isSome ∧
    (∀ fewer < calls, (sendData c b (results.first fewer) k).ret = none) ∧
    transfers (results.first calls) ≤ c.sendlen

/-- A result after which `sendData` leaves its loop: an error other than an interrupt, or a count
below the length. -/
def leaves (n : Nat) : Except Errno Nat → Bool
  | .error e => e != .eintr
  | .ok m => m < n

variable {c : ConnObj} {b : Buf} {n : Nat} {results : WriteResults} {k : Kernel}

/-- The results of fewer calls come first. -/
theorem first_earlier (results : WriteResults) {fewer calls : Nat} (less : fewer ≤ calls) :
    results.first fewer <+: results.first calls := by
  refine List.IsPrefix.map results ?_
  rw [← Nat.min_eq_left less, ← List.take_range]
  exact List.take_prefix _ _

/-- Fewer calls transfer less often. -/
theorem transfers_earlier {part script : WriteScript} (earlier : part <+: script) :
    transfers part ≤ transfers script :=
  earlier.sublist.countP_le

/-- The sending loop goes on as long as no result makes it leave. -/
theorem sendLoop_looping {fd : Fd} (positive : 0 < n)
    (length : (b.str.buf.take n).length = n) (script : WriteScript) (k : Kernel)
    (closed : k.sock fd = none → ∀ result ∈ script, result = .error .other) :
    (sendLoop fd b n n script k).ret = none ↔ ∀ result ∈ script, leaves n result = false := by
  induction script generalizing k with
  | nil =>
    rw [sendLoop.eq_def]
    simp [positive]
  | cons answer rest ih =>
    have later : ∀ call, (k.log call).sock fd = none → ∀ result ∈ rest, result = .error .other :=
      fun _ shut result member => closed shut result (List.mem_cons_of_mem _ member)
    rw [sendLoop_cons positive, List.forall_mem_cons]
    simp only [Nat.sub_self, List.drop_zero, Kernel.write]
    cases found : k.sock fd with
    | none =>
      rw [closed found answer List.mem_cons_self]
      simp [leaves]
    | some socket =>
      cases answer with
      | error e =>
        cases e with
        | eintr => simpa [leaves] using ih _ (later _)
        | eagain => simp [leaves]
        | other => simp [leaves]
      | ok m =>
        simp only [length]
        by_cases short : m < n
        · have fewer : min m n < n := by omega
          simp [leaves, short, fewer]
        · have full : ¬min m n < n := by omega
          rw [if_neg full, ih _ (later _)]
          simp [leaves, short]

/-- With nothing to send `sendData` returns without a call. -/
theorem sendData_empty (empty : (asInt c.sendlen).toNat = 0) (script : WriteScript) :
    (sendData c b script k).ret = some 0 := by
  rw [sendData, empty, sendLoop.eq_def]
  rfl

/-- With bytes to send it returns once a result makes it leave. -/
theorem sendData_returns (positive : 0 < c.sendlen) (small : c.sendlen < 2 ^ 31)
    (holds : c.sendlen ≤ b.str.buf.length) (possible : results.Possible k c.fd c.sendlen)
    (calls : Nat) :
    (sendData c b (results.first calls) k).ret.isSome ↔
      ∃ i < calls, leaves c.sendlen (results i) = true := by
  have length : (b.str.buf.take c.sendlen).length = c.sendlen := by
    rw [List.length_take, Nat.min_eq_left holds]
  have closed : k.sock c.fd = none → ∀ result ∈ results.first calls, result = .error .other := by
    intro shut result member
    obtain ⟨i, _, rfl⟩ := List.mem_map.mp member
    exact possible.closed shut i
  have looping := sendLoop_looping positive length (results.first calls) k closed
  rw [sendData, asInt_toNat small, ← Option.ne_none_iff_isSome, ne_eq, looping]
  simp [WriteResults.first]

/-- `sendData` returns after finitely many calls of `write`, at most `sendlen` of them transferring
data, if and only if its `int` length is not positive, or some result is an error other than an
interrupt or a count below the length and no more than `sendlen` results up to it are counts. -/
theorem sendData_terminates_iff (c : ConnObj) (b : Buf) (results : WriteResults) (k : Kernel)
    (unsigned : c.sendlen < 2 ^ 32) (holds : c.sendlen ≤ b.str.buf.length)
    (possible : results.Possible k c.fd c.sendlen) :
    Terminates c b results k ↔
      c.sendlen = 0 ∨ 2 ^ 31 ≤ c.sendlen ∨
        ∃ i, leaves c.sendlen (results i) = true ∧
          transfers (results.first (i + 1)) ≤ c.sendlen := by
  by_cases inside : 0 < c.sendlen ∧ c.sendlen < 2 ^ 31
  · obtain ⟨positive, small⟩ := inside
    have returns := sendData_returns positive small holds possible
    have outside : ¬(c.sendlen = 0 ∨ 2 ^ 31 ≤ c.sendlen) := by omega
    rw [← or_assoc, or_iff_right outside]
    constructor
    · rintro ⟨calls, returned, _, few⟩
      obtain ⟨i, less, left⟩ := (returns calls).mp returned
      exact ⟨i, left, (transfers_earlier (first_earlier results less)).trans few⟩
    · rintro ⟨i, left, few⟩
      have some : ∃ calls, (sendData c b (results.first calls) k).ret.isSome = true :=
        ⟨i + 1, (returns (i + 1)).mpr ⟨i, Nat.lt_succ_self i, left⟩⟩
      refine ⟨Nat.find some, Nat.find_spec some, fun fewer less => ?_, ?_⟩
      · simpa using Nat.find_min some less
      · have least := Nat.find_min' some ((returns (i + 1)).mpr ⟨i, Nat.lt_succ_self i, left⟩)
        exact (transfers_earlier (first_earlier results least)).trans few
  · have empty : (asInt c.sendlen).toNat = 0 := by
      unfold asInt
      rw [Int.bmod_def]
      split <;> omega
    refine iff_of_true ⟨0, ?_, fun _ less => absurd less (Nat.not_lt_zero _), Nat.zero_le _⟩
      (by omega)
    rw [sendData_empty empty]
    rfl

/-- An interrupt and then a partial write. -/
theorem sendData_terminates_partial :
    Terminates ⟨4, .connected, some ⟨0, ⟨3, 0, [1, 2, 3, 0]⟩⟩, 3⟩ ⟨0, ⟨3, 0, [1, 2, 3, 0]⟩⟩
      (fun i => if i = 0 then .error .eintr else .ok 1) (Sample.readable []).kernel := by
  refine (sendData_terminates_iff _ _ _ _ (by decide) (by decide) ⟨?_, ?_, ?_⟩).mpr
    (.inr (.inr ⟨1, by decide, by decide⟩))
  · intro i m count
    split at count
    · contradiction
    · cases count
      exact ⟨le_refl 1, by decide⟩
  · refine ⟨1, fun i later => ?_⟩
    rw [if_neg (Nat.ne_of_gt later)]
    simp
  · intro shut
    exact absurd shut (by decide)

/-- A socket that accepts all three bytes each time: `sendData` never returns. -/
theorem sendData_endless : ¬∀ (c : ConnObj) (b : Buf) (results : WriteResults) (k : Kernel),
    c.sendlen < 2 ^ 32 → c.sendlen ≤ b.str.buf.length → results.Possible k c.fd c.sendlen →
      Terminates c b results k := by
  intro always
  have possible : WriteResults.Possible (fun _ => .ok 3) (Sample.readable []).kernel 4 3 := by
    refine ⟨fun i m count => ?_, ⟨0, fun i _ => by simp⟩, fun shut => absurd shut (by decide)⟩
    cases count
    exact ⟨by decide, le_refl 3⟩
  obtain ⟨calls, returned, _⟩ := always ⟨4, .connected, none, 3⟩ ⟨0, ⟨3, 0, [1, 2, 3, 0]⟩⟩
    (fun _ => .ok 3) (Sample.readable []).kernel (by decide) (by decide) possible
  obtain ⟨_, _, left⟩ := (sendData_returns (by decide) (by decide) (by decide) possible
    calls).mp returned
  exact absurd left (by decide)

end EpollNet
