import Mathlib.Data.List.Basic

/-!
# Escaped sequences

A sequence is escaped when each symbol that has a code is replaced by a mark and its code. It is
read back by looking one symbol past each mark. A mark before anything but a code stands for
itself, so every sequence reads as some sequence, and as no longer one.
-/

namespace Escape

variable {α : Type*}

/-- Replace each symbol that has a code by the mark and the code. -/
def escape (mark : α) (code : α → Option α) : List α → List α
  | [] => []
  | x :: rest =>
    match code x with
    | some y => mark :: y :: escape mark code rest
    | none => x :: escape mark code rest

variable [DecidableEq α]

/-- Replace each mark before a code, and the code, by what they stand for. -/
def unescape (mark : α) (undo : α → Option α) : List α → List α
  | [] => []
  | [x] => [x]
  | x :: y :: rest =>
    if x = mark then
      match undo y with
      | some z => z :: unescape mark undo rest
      | none => x :: unescape mark undo (y :: rest)
    else x :: unescape mark undo (y :: rest)

variable {mark : α} {code undo : α → Option α}

/-- A mark before a code. -/
theorem unescape_code {y z : α} (codes : undo y = some z) (rest : List α) :
    unescape mark undo (mark :: y :: rest) = z :: unescape mark undo rest := by
  rw [unescape, if_pos rfl, codes]

/-- A symbol that is no mark before a code. -/
theorem unescape_plain {x : α} {rest : List α}
    (plain : x = mark → ∀ y, rest.head? = some y → undo y = none) :
    unescape mark undo (x :: rest) = x :: unescape mark undo rest := by
  cases rest with
  | nil => rfl
  | cons y rest =>
    rw [unescape]
    split
    next marked =>
      rw [plain marked y rfl]
    next => rfl

/-- What was escaped is read back, if the codes can be told apart and the mark has one. -/
theorem unescape_escape (inverse : ∀ x y, code x = some y → undo y = some x)
    (marked : code mark ≠ none) (xs : List α) :
    unescape mark undo (escape mark code xs) = xs := by
  induction xs with
  | nil => rfl
  | cons x rest ih =>
    rw [escape]
    cases coded : code x with
    | some y =>
      dsimp only
      rw [unescape_code (inverse x y coded), ih]
    | none =>
      dsimp only
      have plain : x ≠ mark := by
        rintro rfl
        exact marked coded
      rw [unescape_plain fun same => absurd same plain, ih]

/-- Reading back makes no sequence longer. -/
theorem unescape_length_le (xs : List α) : (unescape mark undo xs).length ≤ xs.length := by
  induction xs using unescape.induct mark undo with
  | case1 => exact Nat.le_refl _
  | case2 x => exact Nat.le_refl _
  | case3 y rest z codes ih =>
    rw [unescape_code codes]
    simp only [List.length_cons]
    omega
  | case4 y rest none' ih =>
    rw [unescape_plain fun _ y' same => by rwa [← Option.some.inj same]]
    exact Nat.succ_le_succ ih
  | case5 x y rest other ih =>
    rw [unescape_plain fun same => absurd same other]
    exact Nat.succ_le_succ ih

end Escape
