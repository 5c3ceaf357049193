import Mathlib.Algebra.BigOperators.Group.Finset.Piecewise
import Mathlib.Data.Multiset.OrderedMonoid
import Mathlib.Tactic.Abel

/-!
# What is kept under keys

Items are put under keys, and what lay under a key before is lost. What is kept and what was lost
are together all that was put there. If something is put every time then nothing is lost exactly
when no key comes twice.
-/

namespace EpollNet.Basis

variable {κ α : Type} [DecidableEq κ]

/-- What lies under each key after some stores. -/
def stored (m : κ → List α) : List (κ × List α) → κ → List α
  | [] => m
  | (k, items) :: stores => stored (Function.update m k items) stores

/-- What they overwrote. -/
def overwritten (m : κ → List α) : List (κ × List α) → Multiset α
  | [] => 0
  | (k, items) :: stores => (m k : Multiset α) + overwritten (Function.update m k items) stores

/-- What lies under some keys. -/
def under (keys : Finset κ) (m : κ → List α) : Multiset α := ∑ k ∈ keys, (m k : Multiset α)

variable {m : κ → List α} {keys : Finset κ} {stores : List (κ × List α)}

/-- One more store. -/
theorem stored_concat (m : κ → List α) (stores : List (κ × List α)) (k : κ) (items : List α) :
    stored m (stores ++ [(k, items)]) = Function.update (stored m stores) k items := by
  induction stores generalizing m with
  | nil => rfl
  | cons store stores ih => exact ih _

omit [DecidableEq κ] in
/-- What lies under keys depends on those keys. -/
theorem under_congr {m' : κ → List α} (same : ∀ k ∈ keys, m' k = m k) :
    under keys m' = under keys m :=
  Finset.sum_congr rfl fun k member => congrArg _ (same k member)

/-- One store: what it overwrites is exchanged for what it puts there. -/
theorem under_update (empty : ∀ k ∉ keys, m k = []) (k : κ) (items : List α) :
    under (insert k keys) (Function.update m k items) + (m k : Multiset α) =
      under keys m + (items : Multiset α) := by
  have others : ∀ other ∈ keys.erase k,
      (Function.update m k items other : Multiset α) = (m other : Multiset α) := by
    intro other member
    rw [Function.update_of_ne (Finset.ne_of_mem_erase member)]
  have before : under keys m =
      (m k : Multiset α) + ∑ other ∈ keys.erase k, (m other : Multiset α) := by
    unfold under
    by_cases member : k ∈ keys
    · exact (Finset.add_sum_erase keys (fun other => (m other : Multiset α)) member).symm
    · rw [Finset.erase_eq_of_notMem member, empty k member, Multiset.coe_nil, zero_add]
  have after : under (insert k keys) (Function.update m k items) =
      (items : Multiset α) + ∑ other ∈ keys.erase k, (m other : Multiset α) := by
    unfold under
    rw [← Finset.add_sum_erase _ _ (Finset.mem_insert_self k keys), Function.update_self,
      Finset.erase_insert_eq_erase, Finset.sum_congr rfl others]
  rw [before, after]
  abel

/-- What is kept, and what was overwritten, are what there was and what was put there. -/
theorem stored_overwritten (empty : ∀ k ∉ keys, m k = []) (stores : List (κ × List α)) :
    under (keys ∪ (stores.map Prod.fst).toFinset) (stored m stores) + overwritten m stores =
      under keys m + (stores.flatMap Prod.snd : List α) := by
  induction stores generalizing m keys with
  | nil =>
    rw [List.map_nil, List.toFinset_nil, Finset.union_empty]
    rfl
  | cons store stores ih =>
    obtain ⟨k, items⟩ := store
    have empty' : ∀ other ∉ insert k keys, Function.update m k items other = [] := by
      intro other outside
      rw [Finset.mem_insert, not_or] at outside
      rw [Function.update_of_ne outside.1, empty other outside.2]
    have step := under_update empty k items
    have rest := ih empty'
    rw [Finset.insert_union] at rest
    rw [List.map_cons, List.toFinset_cons, Finset.union_insert, List.flatMap_cons,
      ← Multiset.coe_add, ← add_assoc, ← step, add_right_comm, ← rest]
    rw [stored, overwritten]
    abel

/-- Where something is put every time, nothing is overwritten exactly when each key comes once and
held nothing. -/
theorem overwritten_eq_zero_iff (some' : ∀ store ∈ stores, store.2 ≠ []) :
    overwritten m stores = 0 ↔
      (stores.map Prod.fst).Nodup ∧ ∀ k ∈ stores.map Prod.fst, m k = [] := by
  induction stores generalizing m with
  | nil => simp [overwritten]
  | cons store stores ih =>
    obtain ⟨k, items⟩ := store
    have items' : items ≠ [] := some' _ List.mem_cons_self
    have rest := ih (m := Function.update m k items) fun store member =>
      some' store (List.mem_cons_of_mem _ member)
    rw [overwritten, add_eq_zero, Multiset.coe_eq_zero, rest, List.map_cons, List.nodup_cons,
      List.forall_mem_cons]
    constructor
    · rintro ⟨held, once, others⟩
      have apart : k ∉ stores.map Prod.fst := by
        intro member
        have gone := others k member
        rw [Function.update_self] at gone
        exact items' gone
      refine ⟨⟨apart, once⟩, held, fun other member => ?_⟩
      have different : other ≠ k := fun same => apart (same ▸ member)
      have still := others other member
      rwa [Function.update_of_ne different] at still
    · rintro ⟨⟨apart, once⟩, held, others⟩
      refine ⟨held, once, fun other member => ?_⟩
      have different : other ≠ k := fun same => apart (same ▸ member)
      rw [Function.update_of_ne different]
      exact others other member

/-- What was put under keys at first empty is all kept if and only if no key came twice. -/
theorem stored_iff (some' : ∀ store ∈ stores, store.2 ≠ []) :
    under (stores.map Prod.fst).toFinset (stored (fun _ => []) stores) =
        ((stores.flatMap Prod.snd : List α) : Multiset α) ↔ (stores.map Prod.fst).Nodup := by
  have empty : ∀ k ∉ (∅ : Finset κ), (fun _ : κ => ([] : List α)) k = [] := fun _ _ => rfl
  have all := stored_overwritten empty stores
  have none' : under ∅ (fun _ : κ => ([] : List α)) = 0 := rfl
  rw [Finset.empty_union, none', zero_add] at all
  have nothing : (∀ k ∈ stores.map Prod.fst, ([] : List α) = []) := fun _ _ => rfl
  rw [← all, left_eq_add, overwritten_eq_zero_iff some', and_iff_left nothing]

/-- Under a key to which nothing was put lies what lay there. -/
theorem stored_other {k : κ} (apart : k ∉ stores.map Prod.fst) : stored m stores k = m k := by
  induction stores generalizing m with
  | nil => rfl
  | cons store stores ih =>
    rw [List.map_cons, List.mem_cons, not_or] at apart
    have rest := ih (m := Function.update m store.1 store.2) apart.2
    rw [Function.update_of_ne apart.1] at rest
    exact rest

/-- Where no key came twice each has what was put under it. -/
theorem stored_once (once : (stores.map Prod.fst).Nodup) :
    ∀ store ∈ stores, stored m stores store.1 = store.2 := by
  induction stores generalizing m with
  | nil => exact fun store member => absurd member List.not_mem_nil
  | cons store stores ih =>
    rw [List.map_cons, List.nodup_cons] at once
    intro other member
    rcases List.mem_cons.mp member with rfl | later
    · have kept := stored_other (m := Function.update m other.1 other.2) once.1
      rw [Function.update_self] at kept
      exact kept
    · exact ih once.2 other later

end EpollNet.Basis
