import Mathlib.Data.List.Basic

/-!
# An outbox with one slot

Messages are put into a slot and a flush sends what is in it. A message put on top of another one
takes its place. What was sent is at every moment the start of what was taken, and all of it when
the slot is empty, just when no flush comes after two puts in a row: such a flush sends the
second message and leaves the first one missing for good.
-/

namespace EpollNet.Basis

/-- What waits in the slot, what was sent and what was taken so far. -/
structure Outbox (α : Type) where
  /-- The message in the slot. -/
  slot : Option (List α)
  /-- Everything sent, in order. -/
  sent : List α
  /-- Everything taken, in order. -/
  taken : List α

/-- What can happen to an outbox. -/
inductive Outbox.Op (α : Type) where
  /-- A message is put into the slot. -/
  | put (message : List α)
  /-- The slot is flushed. -/
  | flush

namespace Outbox

variable {α : Type} {o : Outbox α} {message : List α} {ops : List (Op α)}

/-- A message replaces what is in the slot; a flush sends it. -/
def exec (o : Outbox α) : Op α → Outbox α
  | .put message => { o with slot := some message, taken := o.taken ++ message }
  | .flush => { o with slot := none, sent := o.sent ++ o.slot.getD [] }

/-- Several operations in order. -/
def run (o : Outbox α) (ops : List (Op α)) : Outbox α := ops.foldl exec o

/-- What was sent is the start of what was taken, and all of it when the slot is empty. -/
def Faithful (o : Outbox α) : Prop := o.sent <+: o.taken ∧ (o.slot = none → o.sent = o.taken)

/-- Nothing is missing: what was taken is what was sent and what waits. -/
def Exact (o : Outbox α) : Prop := o.sent ++ o.slot.getD [] = o.taken

/-- The operation is a flush. -/
def Op.isFlush : Op α → Bool
  | .put _ => false
  | .flush => true

/-- No flush comes after two puts in a row, counting a message that waits already. -/
def spaced : Bool → List (Op α) → Bool
  | _, [] => true
  | _, .flush :: rest => spaced false rest
  | false, .put _ :: rest => spaced true rest
  | true, .put _ :: rest => !rest.any Op.isFlush

/-! ## Messages missing -/

/-- More was taken than was sent and waits. -/
def Missing (o : Outbox α) : Prop := o.sent.length + (o.slot.getD []).length < o.taken.length

/-- What is missing stays missing. -/
theorem Missing.run (missing : o.Missing) (ops : List (Op α)) : (o.run ops).Missing := by
  induction ops generalizing o with
  | nil => exact missing
  | cons op rest ih =>
    apply ih
    unfold Missing at missing ⊢
    cases op with
    | put message =>
      simp only [exec, Option.getD_some, List.length_append]
      omega
    | flush =>
      simp only [exec, Option.getD_none, List.length_append, List.length_nil]
      omega

/-- With something missing an empty slot is not faithful. -/
theorem Missing.not_faithful (missing : o.Missing) (empty : o.slot = none) : ¬o.Faithful := by
  intro faithful
  unfold Missing at missing
  rw [empty, faithful.2 empty] at missing
  simp at missing

/-- Without a flush what was sent stays and more may be taken, with a message waiting. -/
theorem run_puts (waits : o.slot ≠ none) (puts : ops.any Op.isFlush = false) :
    (o.run ops).slot ≠ none ∧ (o.run ops).sent = o.sent ∧ o.taken <+: (o.run ops).taken := by
  induction ops generalizing o with
  | nil => exact ⟨waits, rfl, List.prefix_refl _⟩
  | cons op rest ih =>
    simp only [List.any_cons, Bool.or_eq_false_iff] at puts
    cases op with
    | put message =>
      obtain ⟨still, sent, taken⟩ := ih (o := o.exec (.put message)) (by simp [exec]) puts.2
      exact ⟨still, sent, (List.prefix_append _ _).trans taken⟩
    | flush => exact absurd puts.1 (by simp [Op.isFlush])

/-! ## The characterisation -/

/-- An exact outbox is faithful. -/
theorem Exact.faithful (exact' : o.Exact) : o.Faithful := by
  refine ⟨⟨_, exact'⟩, fun empty => ?_⟩
  unfold Exact at exact'
  simpa [empty] using exact'

/-- A message put on top of another one leaves something missing. -/
theorem Exact.overwritten {waiting : List α} (message : List α) (exact' : o.Exact)
    (waits : o.slot = some waiting) (some' : waiting ≠ []) : (o.exec (.put message)).Missing := by
  unfold Exact at exact'
  have positive := List.length_pos_iff.mpr some'
  simp only [Missing, exec, ← exact', waits, Option.getD_some, List.length_append]
  omega

/-- After a message was put on top of another one, an outbox is faithful as long as it is not
flushed. -/
theorem faithful_overwritten_iff (missing : o.Missing) (waits : o.slot ≠ none)
    (earlier : o.sent <+: o.taken) :
    (∀ part, part <+: ops → (o.run part).Faithful) ↔ ops.any Op.isFlush = false := by
  constructor
  · intro faithful
    by_contra flushed
    obtain ⟨op, member, flush⟩ := List.any_eq_true.mp (Bool.of_not_eq_false flushed)
    obtain ⟨before, after, rfl⟩ := List.append_of_mem member
    cases op with
    | put message => exact absurd flush (by simp [Op.isFlush])
    | flush =>
      have moment : before ++ [Op.flush] <+: before ++ Op.flush :: after :=
        ⟨after, by simp⟩
      refine (missing.run (before ++ [.flush])).not_faithful ?_ (faithful _ moment)
      simp [run, exec]
  · intro puts part ⟨rest, whole⟩
    have fewer : part.any Op.isFlush = false := by
      rw [← whole, List.any_append, Bool.or_eq_false_iff] at puts
      exact puts.1
    obtain ⟨still, sent, taken⟩ := run_puts waits fewer
    exact ⟨sent ▸ earlier.trans taken, fun empty => absurd empty still⟩

/-- The prefixes of a run are its start and the prefixes of what follows its first operation. -/
theorem prefixes_cons {P : Outbox α → Prop} (op : Op α) :
    (∀ part, part <+: op :: ops → P (o.run part)) ↔
      P o ∧ ∀ part, part <+: ops → P ((o.exec op).run part) := by
  constructor
  · intro all
    exact ⟨all [] List.nil_prefix, fun part earlier =>
      all (op :: part) (List.cons_prefix_cons.mpr ⟨rfl, earlier⟩)⟩
  · rintro ⟨first, later⟩ part earlier
    cases part with
    | nil => exact first
    | cons head rest =>
      obtain ⟨rfl, shorter⟩ := List.cons_prefix_cons.mp earlier
      exact later rest shorter

/-- An exact outbox stays faithful at every moment of a run, in which no message is empty, if and
only if no flush comes after two puts in a row. -/
theorem faithful_iff (exact' : o.Exact) (some' : ∀ waiting, o.slot = some waiting → waiting ≠ [])
    (messages : ∀ message, Op.put message ∈ ops → message ≠ []) :
    (∀ part, part <+: ops → (o.run part).Faithful) ↔ spaced o.slot.isSome ops = true := by
  induction ops generalizing o with
  | nil =>
    simp only [List.prefix_nil, forall_eq]
    exact ⟨fun _ => by cases o.slot.isSome <;> rfl, fun _ => exact'.faithful⟩
  | cons op rest ih =>
    have later : ∀ message, Op.put message ∈ rest → message ≠ [] := fun message member =>
      messages message (List.mem_cons_of_mem _ member)
    rw [prefixes_cons, and_iff_right exact'.faithful]
    cases op with
    | flush =>
      have sent : (o.exec .flush).Exact := by
        unfold Exact at exact' ⊢
        simpa [exec] using exact'
      have step := ih sent (by simp [exec]) later
      cases waiting : o.slot.isSome <;> exact step
    | put message =>
      cases waiting : o.slot with
      | none =>
        have put : (o.exec (.put message)).Exact := by
          unfold Exact at exact' ⊢
          simp only [waiting, Option.getD_none, List.append_nil] at exact'
          simp [exec, exact']
        refine ih put ?_ later
        rintro _ ⟨⟩
        exact messages message List.mem_cons_self
      | some first =>
        have missing := exact'.overwritten message waiting (some' first waiting)
        have earlier : (o.exec (.put message)).sent <+: (o.exec (.put message)).taken :=
          exact'.faithful.1.trans (List.prefix_append _ _)
        rw [faithful_overwritten_iff missing (by simp [exec]) earlier]
        simp [spaced]

end Outbox

end EpollNet.Basis
