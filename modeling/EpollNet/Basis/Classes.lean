import Mathlib.Data.List.Find

/-!
# A list in classes

Every element of a list belongs to a class. Searching the list for a property that only elements of
one class have is searching this class, and taking out the first element with the property takes
it out of this class and leaves the others.
-/

namespace EpollNet.Basis

variable {β ι : Type} [DecidableEq ι] {xs ys : List β} {p : β → Bool} {i j : ι}

/-- The elements of a class, in order. -/
def classOf (classify : β → ι) (i : ι) (xs : List β) : List β := xs.filter fun x => classify x = i

/-- Of a list only elements of one class have a property. -/
def Within (classify : β → ι) (i : ι) (p : β → Bool) (xs : List β) : Prop :=
  ∀ x ∈ xs, p x = true → classify x = i

variable {classify : β → ι}

/-- An empty list has an empty class. -/
@[simp] theorem classOf_nil : classOf classify i [] = [] := rfl

/-- An element of the class is its last once it is appended. -/
theorem classOf_append_same {x : β} (same : classify x = i) :
    classOf classify i (xs ++ [x]) = classOf classify i xs ++ [x] := by
  simp [classOf, same]

/-- An element of another class changes nothing when it is appended. -/
theorem classOf_append_other {x : β} (other : classify x ≠ i) :
    classOf classify i (xs ++ [x]) = classOf classify i xs := by
  simp [classOf, other]

/-- The first element with the property is the first of the class. -/
theorem find?_classOf (within : Within classify i p xs) :
    (classOf classify i xs).find? p = xs.find? p := by
  rw [classOf, List.find?_filter]
  refine List.find?_congr fun x member => ?_
  by_cases holds : p x = true
  · simp [holds, within x member holds]
  · simp [holds]

/-- It is taken out of the class. -/
theorem classOf_eraseP_same (within : Within classify i p xs) :
    classOf classify i (xs.eraseP p) = (classOf classify i xs).eraseP p := by
  induction xs with
  | nil => rfl
  | cons x xs ih =>
    have later := ih fun y member => within y (List.mem_cons_of_mem _ member)
    by_cases holds : p x = true
    · have here := within x List.mem_cons_self holds
      simp [classOf, holds, here]
    · by_cases here : classify x = i
      · rw [List.eraseP_cons_of_neg holds]
        simpa [classOf, holds, here] using later
      · rw [List.eraseP_cons_of_neg holds]
        simpa [classOf, here] using later

/-- The other classes stay. -/
theorem classOf_eraseP_other (within : Within classify i p xs) (other : j ≠ i) :
    classOf classify j (xs.eraseP p) = classOf classify j xs := by
  induction xs with
  | nil => rfl
  | cons x xs ih =>
    have later := ih fun y member => within y (List.mem_cons_of_mem _ member)
    by_cases holds : p x = true
    · have here := within x List.mem_cons_self holds
      simp [classOf, holds, here, other.symm]
    · rw [List.eraseP_cons_of_neg holds]
      by_cases here : classify x = j
      · simpa [classOf, here] using later
      · simpa [classOf, here] using later

end EpollNet.Basis
