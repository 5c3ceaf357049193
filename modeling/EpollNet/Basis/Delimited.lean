import EpollNet.Basis.Records
import Mathlib.Data.List.GetD
import Mathlib.Data.List.Nodup

/-!
# What is written and read back

Cells are put one behind the other into a blank buffer. Records are told apart by a cell that ends
each of them and is in none, so that what reads one record reads any number of them. Values with
two halves are written as two digits of an alphabet.
-/

namespace EpollNet.Basis

variable {α β : Type}

/-! ## A blank buffer -/

section Filled

variable {blank : β} {cells more : List β}

/-- A buffer with some cells at its front. -/
def filled (blank : β) (cells : List β) : Nat → β := fun i => cells.getD i blank

/-- Blank cells behind them are as good as none. -/
theorem filled_blank (blank : β) (cells : List β) (n : Nat) :
    filled blank (cells ++ List.replicate n blank) = filled blank cells := by
  funext i
  unfold filled
  by_cases inside : i < cells.length
  · rw [List.getD_append _ _ _ _ inside]
  · have past : cells.length ≤ i := by omega
    rw [List.getD_append_right _ _ _ _ past, List.getD_eq_default cells blank past]
    by_cases padded : i - cells.length < n
    · rw [List.getD_replicate _ padded]
    · have none' : (List.replicate n blank).length ≤ i - cells.length := by
        rw [List.length_replicate]
        omega
      exact List.getD_eq_default _ _ none'

/-- Cells written behind them. -/
theorem writeAt_filled (blank : β) (cells more : List β) :
    writeAt (filled blank cells) cells.length more = filled blank (cells ++ more) := by
  funext i
  unfold writeAt filled
  by_cases inside : i < cells.length
  · rw [if_pos inside, List.getD_append _ _ _ _ inside]
  · have past : cells.length ≤ i := by omega
    rw [if_neg inside, List.getD_append_right _ _ _ _ past, List.getD_eq_default cells blank past]

/-- Cells written further behind. -/
theorem writeAt_filled_gap (blank : β) (cells more : List β) (n : Nat) :
    writeAt (filled blank cells) (cells.length + n) more =
      filled blank (cells ++ List.replicate n blank ++ more) := by
  have length : cells.length + n = (cells ++ List.replicate n blank).length := by
    rw [List.length_append, List.length_replicate]
  rw [length, ← filled_blank blank cells n]
  exact writeAt_filled blank _ more

/-- They are read back. -/
theorem readAt_filled (blank : β) (cells : List β) :
    readAt (filled blank cells) 0 cells.length = cells := by
  apply List.ext_getElem
  · rw [readAt_length]
  · intro i left right
    simp [readAt, filled, right]

end Filled

/-! ## Records that end with a cell -/

section Delimited

/-- Records, each with the cell behind it that ends it. -/
def joined (stop : β) (bodies : List (List β)) : List β := bodies.flatMap fun body => body ++ [stop]

variable [DecidableEq β] {γ : Type} {stop : β} {read : List β → Option α} {write : γ → List β}
  {told : γ → α}

/-- Read records one after the other. -/
def readAll (stop : β) (read : List β → Option α) (cells : List β) : Option (List α) :=
  (cells.splitOn stop).dropLast.mapM read

/-- Records without the cell in them are told apart by it. -/
theorem splitOn_joined {bodies : List (List β)} (clean : ∀ body ∈ bodies, stop ∉ body) :
    (joined stop bodies).splitOn stop = bodies ++ [[]] := by
  induction bodies with
  | nil => rfl
  | cons body bodies ih =>
    have here : joined stop (body :: bodies) = body ++ stop :: joined stop bodies := by
      unfold joined
      rw [List.flatMap_cons, List.append_assoc]
      rfl
    rw [here, List.splitOn_append_cons_self_of_not_mem (clean body List.mem_cons_self),
      ih fun other member => clean other (List.mem_cons_of_mem _ member)]
    rfl

/-- Records that tell something each tell it one after the other. -/
theorem readAll_joined {values : List γ} (back : ∀ a ∈ values, read (write a) = some (told a))
    (clean : ∀ a ∈ values, stop ∉ write a) :
    readAll stop read (joined stop (values.map write)) = some (values.map told) := by
  have apart : ∀ body ∈ values.map write, stop ∉ body := by
    intro body member
    obtain ⟨a, inside, rfl⟩ := List.mem_map.mp member
    exact clean a inside
  unfold readAll
  rw [splitOn_joined apart, List.dropLast_concat]
  induction values with
  | nil => rfl
  | cons a values ih =>
    have rest := ih (fun other member => back other (List.mem_cons_of_mem _ member))
      (fun other member => clean other (List.mem_cons_of_mem _ member))
      (fun body member => apart body (List.mem_cons_of_mem _ member))
    rw [List.map_cons, List.mapM_cons, back a List.mem_cons_self, rest]
    rfl

end Delimited

/-! ## Pairs of digits -/

section Digits

/-- Values that are told by two halves, each below a bound. -/
structure Halves (α : Type) where
  /-- The bound. -/
  bound : Nat
  /-- The first half. -/
  high : α → Nat
  /-- The second. -/
  low : α → Nat
  /-- What has these halves. -/
  join : Nat → Nat → α
  high_lt : ∀ a, high a < bound
  low_lt : ∀ a, low a < bound
  join_halves : ∀ a, join (high a) (low a) = a

variable {halves : Halves α} {alphabet : List β} {blank : β}

/-- The two digits of a value. -/
def digitsOf (halves : Halves α) (alphabet : List β) (blank : β) (a : α) : List β :=
  [alphabet.getD (halves.high a) blank, alphabet.getD (halves.low a) blank]

/-- There are two digits to a value. -/
theorem digits_length (values : List α) :
    (values.flatMap (digitsOf halves alphabet blank)).length = 2 * values.length := by
  induction values with
  | nil => rfl
  | cons a values ih =>
    rw [List.flatMap_cons, List.length_append, ih, List.length_cons]
    show 2 + _ = _
    omega

/-- Every digit is of the alphabet. -/
theorem mem_digits (enough : halves.bound ≤ alphabet.length) {values : List α} {c : β}
    (member : c ∈ values.flatMap (digitsOf halves alphabet blank)) : c ∈ alphabet := by
  obtain ⟨a, _, here⟩ := List.mem_flatMap.mp member
  have first := Nat.lt_of_lt_of_le (halves.high_lt a) enough
  have second := Nat.lt_of_lt_of_le (halves.low_lt a) enough
  unfold digitsOf at here
  rw [List.getD_eq_getElem alphabet blank first, List.getD_eq_getElem alphabet blank second] at here
  rcases List.mem_cons.mp here with high | here
  · rw [high]
    exact List.getElem_mem first
  · rw [List.mem_singleton.mp here]
    exact List.getElem_mem second

variable [DecidableEq β]

/-- Read digits two by two. -/
def readDigits (halves : Halves α) (alphabet : List β) : List β → Option (List α)
  | [] => some []
  | [_] => none
  | first :: second :: rest =>
    (readDigits halves alphabet rest).map fun values =>
      halves.join (alphabet.idxOf first) (alphabet.idxOf second) :: values

/-- The digit of a half is found at its place. -/
theorem idxOf_digit {i : Nat} (distinct : alphabet.Nodup) (inside : i < alphabet.length) :
    alphabet.idxOf (alphabet.getD i blank) = i := by
  rw [List.getD_eq_getElem alphabet blank inside]
  exact distinct.idxOf_getElem i inside

/-- Digits are read back. -/
theorem readDigits_digitsOf (distinct : alphabet.Nodup) (enough : halves.bound ≤ alphabet.length)
    (values : List α) :
    readDigits halves alphabet (values.flatMap (digitsOf halves alphabet blank)) =
      some values := by
  induction values with
  | nil => rfl
  | cons a values ih =>
    have first := Nat.lt_of_lt_of_le (halves.high_lt a) enough
    have second := Nat.lt_of_lt_of_le (halves.low_lt a) enough
    show (readDigits halves alphabet (values.flatMap _)).map _ = _
    rw [ih, Option.map_some, idxOf_digit distinct first, idxOf_digit distinct second,
      halves.join_halves]

end Digits

end EpollNet.Basis
