import Mathlib.Data.List.Basic

/-!
# Records of one size in memory

A memory holds a value at every address. Records of one size lie one behind the other from a base
on; they are told by what is read at their places. Writing a record behind the last one adds it,
a copy of the cells elsewhere has the same records, and the first records of several are records
themselves.
-/

namespace EpollNet.Basis

variable {β : Type} {m m' : Nat → β} {a base base' size : Nat} {xs ys : List (List β)}

/-- The cells of a number of addresses. -/
def readAt (m : Nat → β) (a n : Nat) : List β := (List.range n).map fun i => m (a + i)

/-- The memory with cells written from an address on. -/
def writeAt (m : Nat → β) (a : Nat) (cells : List β) : Nat → β :=
  fun x => if x < a then m x else cells.getD (x - a) (m x)

/-- As many cells are read as were asked for. -/
@[simp] theorem readAt_length (m : Nat → β) (a n : Nat) : (readAt m a n).length = n := by
  simp [readAt]

/-- The first cell read, and the others. -/
theorem readAt_succ (m : Nat → β) (a n : Nat) : readAt m a (n + 1) = m a :: readAt m (a + 1) n := by
  rw [readAt, List.range_succ_eq_map, List.map_cons, List.map_map]
  refine congrArg _ (List.map_congr_left fun i _ => ?_)
  show m (a + (i + 1)) = m (a + 1 + i)
  rw [Nat.add_right_comm, Nat.add_assoc]

/-- The cells but the last one, and the last. -/
theorem readAt_concat (m : Nat → β) (a n : Nat) :
    readAt m a (n + 1) = readAt m a n ++ [m (a + n)] := by
  rw [readAt, List.range_succ, List.map_append, List.map_singleton]
  rfl

/-- Writing nothing. -/
theorem writeAt_nil (m : Nat → β) (a : Nat) : writeAt m a [] = m := by
  funext x
  simp [writeAt]

/-- Writing the first cell, and then the others. -/
theorem writeAt_cons (m : Nat → β) (a : Nat) (c : β) (cells : List β) :
    writeAt m a (c :: cells) = writeAt (Function.update m a c) (a + 1) cells := by
  funext x
  rcases Nat.lt_trichotomy x a with before | rfl | after
  · have early : x < a + 1 := by omega
    have other : x ≠ a := by omega
    rw [writeAt, writeAt, if_pos before, if_pos early, Function.update_of_ne other]
  · have here : ¬x < x := Nat.lt_irrefl x
    rw [writeAt, writeAt, if_neg here, if_pos (Nat.lt_succ_self x), Function.update_self,
      Nat.sub_self]
    rfl
  · have past : ¬x < a := by omega
    have late : ¬x < a + 1 := by omega
    have other : x ≠ a := by omega
    have place : x - a = x - (a + 1) + 1 := by omega
    rw [writeAt, writeAt, if_neg past, if_neg late, Function.update_of_ne other, place]
    rfl

/-- Writing some cells, and then the others behind them. -/
theorem writeAt_append (m : Nat → β) (a : Nat) (front back : List β) :
    writeAt m a (front ++ back) = writeAt (writeAt m a front) (a + front.length) back := by
  induction front generalizing m a with
  | nil => rw [List.nil_append, writeAt_nil, List.length_nil, Nat.add_zero]
  | cons c rest ih =>
    rw [List.cons_append, writeAt_cons, writeAt_cons, ih, List.length_cons, Nat.add_right_comm,
      Nat.add_assoc]

/-- Writing one cell. -/
theorem writeAt_singleton (m : Nat → β) (a : Nat) (c : β) :
    writeAt m a [c] = Function.update m a c := by
  rw [writeAt_cons, writeAt_nil]

/-- Reading depends on the addresses read. -/
theorem readAt_congr {a' n : Nat} (same : ∀ i < n, m' (a' + i) = m (a + i)) :
    readAt m' a' n = readAt m a n :=
  List.map_congr_left fun i member => same i (List.mem_range.mp member)

/-- What was written is read back. -/
theorem readAt_writeAt (m : Nat → β) (a : Nat) (cells : List β) :
    readAt (writeAt m a cells) a cells.length = cells := by
  apply List.ext_getElem
  · simp
  · intro i left right
    have behind : ¬a + i < a := by omega
    have written : writeAt m a cells (a + i) = cells[i] := by
      rw [writeAt, if_neg behind, Nat.add_sub_cancel_left, List.getD_eq_getElem?_getD,
        List.getElem?_eq_getElem right, Option.getD_some]
    simpa only [readAt, List.getElem_map, List.getElem_range] using written

/-- What lies ahead of the cells written is read as before. -/
theorem readAt_writeAt_ahead {b n : Nat} (ahead : b + n ≤ a) (cells : List β) :
    readAt (writeAt m a cells) b n = readAt m b n := by
  refine readAt_congr fun i inside => ?_
  have before : b + i < a := by omega
  rw [writeAt, if_pos before]

/-- Records of a size from a base on. -/
def Records (m : Nat → β) (base size : Nat) (xs : List (List β)) : Prop :=
  ∀ i x, xs[i]? = some x → readAt m (base + size * i) size = x

/-- No records are always there. -/
theorem records_nil (m : Nat → β) (base size : Nat) : Records m base size [] := by
  intro i x found
  simp at found

/-- The place of a record lies ahead of the end of the last one. -/
theorem record_inside {i n : Nat} (inside : i < n) (size : Nat) : size * i + size ≤ size * n :=
  calc size * i + size = size * (i + 1) := (Nat.mul_succ size i).symm
    _ ≤ size * n := Nat.mul_le_mul_left size inside

/-- A record written behind the last one. -/
theorem Records.append (records : Records m base size xs) {x : List β} (length : x.length = size) :
    Records (writeAt m (base + size * xs.length) x) base size (xs ++ [x]) := by
  intro i y found
  by_cases old : i < xs.length
  · rw [List.getElem?_append_left old] at found
    have ahead := record_inside old size
    rw [readAt_writeAt_ahead (by omega)]
    exact records i y found
  · have here : i = xs.length := by
      have bound := (List.getElem?_eq_some_iff.mp found).1
      rw [List.length_append, List.length_singleton] at bound
      omega
    subst here
    rw [List.getElem?_concat_length] at found
    obtain rfl := Option.some.inj found
    rw [← length]
    exact readAt_writeAt m _ x

/-- A copy of the cells elsewhere. -/
theorem Records.move (records : Records m base size xs)
    (copied : ∀ i < size * xs.length, m' (base' + i) = m (base + i)) :
    Records m' base' size xs := by
  intro i x found
  have bound := (List.getElem?_eq_some_iff.mp found).1
  have inside := record_inside bound size
  rw [← records i x found]
  refine readAt_congr fun j within => ?_
  rw [Nat.add_assoc, Nat.add_assoc]
  exact copied _ (by omega)

/-- The first of several records. -/
theorem Records.first (records : Records m base size xs) (prior : ys <+: xs) :
    Records m base size ys := by
  intro i x found
  obtain ⟨rest, rfl⟩ := prior
  have bound := (List.getElem?_eq_some_iff.mp found).1
  refine records i x ?_
  rw [List.getElem?_append_left bound]
  exact found

end EpollNet.Basis
