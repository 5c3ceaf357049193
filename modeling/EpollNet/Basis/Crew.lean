import Mathlib.Data.List.Perm.Basic

/-!
# A crew of threads

The threads of a crew stand in a list by number and one of them moves at a time. What the crew
holds together is a count, or the things its threads carry, in no particular order. A move is
accounted for by what the one thread held before and holds after it.
-/

namespace EpollNet.Basis

variable {α β : Type} {crew : List α} {w : Nat} {old : α}

/-- The threads other than the one that moves. -/
theorem Crew.split (at_old : crew[w]? = some old) (new : α) :
    ∃ rest, crew.Perm (old :: rest) ∧ (crew.set w new).Perm (new :: rest) := by
  obtain ⟨inside, found⟩ := List.getElem?_eq_some_iff.mp at_old
  refine ⟨crew.eraseIdx w, ?_, List.set_perm_cons_eraseIdx inside new⟩
  have whole := (List.getElem_cons_eraseIdx_perm inside).symm
  rwa [found] at whole

/-- A thread with a property is counted. -/
theorem Crew.countP_pos {holds : α → Bool} (at_old : crew[w]? = some old)
    (held : holds old = true) : 0 < crew.countP holds :=
  List.countP_pos_iff.mpr ⟨old, List.mem_of_getElem? at_old, held⟩

/-- The number of threads with a property, when one of them moves. -/
theorem Crew.countP_set (at_old : crew[w]? = some old) (new : α) (holds : α → Bool) :
    (crew.set w new).countP holds + (holds old).toNat = crew.countP holds + (holds new).toNat := by
  obtain ⟨rest, before, after⟩ := Crew.split at_old new
  rw [before.countP_eq, after.countP_eq, List.countP_cons, List.countP_cons]
  cases holds old <;> cases holds new <;> simp

/-- When one thread only has a property and it is the one that moves, no thread has a stronger
property that this one lacks. -/
theorem Crew.countP_eq_zero_of_sole {holds strong : α → Bool} (at_old : crew[w]? = some old)
    (held : holds old = true) (single : crew.countP holds ≤ 1)
    (stronger : ∀ thread, strong thread = true → holds thread = true)
    (lacks : strong old = false) : crew.countP strong = 0 := by
  obtain ⟨rest, perm, _⟩ := Crew.split at_old old
  rw [perm.countP_eq, List.countP_cons, held] at single
  rw [perm.countP_eq, List.countP_cons, lacks]
  have fewer : rest.countP strong ≤ rest.countP holds :=
    List.countP_mono_left fun thread _ => stronger thread
  simp only [if_true, Bool.false_eq_true, if_false] at single ⊢
  omega

/-- What the threads carry, when one of them moves. -/
theorem Crew.filterMap_set (at_old : crew[w]? = some old) (new : α) (carries : α → Option β) :
    ∃ rest, (crew.filterMap carries).Perm ((carries old).toList ++ rest) ∧
      ((crew.set w new).filterMap carries).Perm ((carries new).toList ++ rest) := by
  obtain ⟨rest, before, after⟩ := Crew.split at_old new
  have cons : ∀ thread, (thread :: rest).filterMap carries =
      (carries thread).toList ++ rest.filterMap carries := by
    intro thread
    rw [List.filterMap_cons]
    cases carries thread <;> rfl
  refine ⟨rest.filterMap carries, ?_, ?_⟩
  · exact cons old ▸ before.filterMap carries
  · exact cons new ▸ after.filterMap carries

/-- A thread that carries the same as before leaves what the crew carries. -/
theorem Crew.filterMap_set_same {new : α} (at_old : crew[w]? = some old) (carries : α → Option β)
    (same : carries new = carries old) :
    ((crew.set w new).filterMap carries).Perm (crew.filterMap carries) := by
  obtain ⟨rest, before, after⟩ := Crew.filterMap_set at_old new carries
  rw [same] at after
  exact after.trans before.symm

/-- A thread that takes something up adds it to what the crew carries. -/
theorem Crew.filterMap_set_take {new : α} {thing : β} (at_old : crew[w]? = some old)
    (carries : α → Option β) (idle : carries old = none) (taken : carries new = some thing) :
    ((crew.set w new).filterMap carries).Perm (thing :: crew.filterMap carries) := by
  obtain ⟨rest, before, after⟩ := Crew.filterMap_set at_old new carries
  rw [idle] at before
  rw [taken] at after
  exact after.trans (before.symm.cons thing)

/-- A thread that puts something down removes it from what the crew carries. -/
theorem Crew.filterMap_set_drop {new : α} {thing : β} (at_old : crew[w]? = some old)
    (carries : α → Option β) (held : carries old = some thing) (idle : carries new = none) :
    (crew.filterMap carries).Perm (thing :: (crew.set w new).filterMap carries) := by
  obtain ⟨rest, before, after⟩ := Crew.filterMap_set at_old new carries
  rw [held] at before
  rw [idle] at after
  exact before.trans (after.symm.cons thing)

/-- What two threads of a crew carry is carried by the crew, beside the rest. -/
theorem Crew.filterMap_two {v : Nat} {new : α} {left right : β} (apart : v ≠ w)
    (at_old : crew[w]? = some old) (at_new : crew[v]? = some new) (carries : α → Option β)
    (first : carries old = some left) (second : carries new = some right) :
    ∃ rest, (crew.filterMap carries).Perm (left :: right :: rest) := by
  obtain ⟨inside, found⟩ := List.getElem?_eq_some_iff.mp at_old
  have whole := (List.getElem_cons_eraseIdx_perm inside).symm
  rw [found] at whole
  have member : new ∈ crew.eraseIdx w := List.mem_eraseIdx_iff_getElem?.mpr ⟨v, apart, at_new⟩
  obtain ⟨before, after, split⟩ := List.append_of_mem member
  have others : (crew.eraseIdx w).Perm (new :: (before ++ after)) := by
    rw [split]
    exact List.perm_middle
  refine ⟨(before ++ after).filterMap carries, ?_⟩
  have carried := (whole.trans (others.cons old)).filterMap carries
  rwa [List.filterMap_cons_some first, List.filterMap_cons_some second] at carried

end EpollNet.Basis
