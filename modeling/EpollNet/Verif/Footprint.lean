import EpollNet.Basis.Peak
import EpollNet.Verif.Edge
import EpollNet.Verif.Leaks
import EpollNet.Verif.Rest

/-!
# What the server keeps

An object is made only when every other one is lent out, so the objects made follow the largest
number lent out at one time. At rest the receiving side keeps nothing, so what is still allocated is
one payload for an object at most, and what the run lost.
-/

namespace EpollNet

open EpollNet.Basis

variable {s s' : State} {l : Label} {labels : List Label}

/-- The objects that exist and are not in the pool; one of them is the listening one. -/
def State.lent (s : State) : Nat := (List.range s.srv.nconn).countP fun c => c ∉ s.srv.pool

/-- An object is made only when none is in the pool. -/
theorem nconn_step (stepped : Step s l s') :
    s'.srv.nconn = s.srv.nconn ∨ s.srv.pool = [] ∧ s'.srv.nconn = s.srv.nconn + 1 := by
  have taken : ∀ {c nconn : ConnPtr} {rest : List ConnPtr}, s.srv.roster.Next c rest nconn →
      nconn = s.srv.nconn ∨ s.srv.pool = [] ∧ nconn = s.srv.nconn + 1 := by
    intro c nconn rest next
    cases next with
    | pooled _ => exact .inl rfl
    | fresh empty => exact .inr ⟨empty, rfl⟩
  cases stepped with
  | @acceptDropped fr input inc _ _ _ =>
    obtain ⟨kernel, _, dropped⟩ := s.srv.dropped_frame inc
    dsimp only
    rw [dropped]
    exact .inl rfl
  | @acceptRefused fr input inc c rest nconn _ _ _ next _ =>
    obtain ⟨kernel, obj, _, _, refused⟩ := s.srv.refused_frame inc c rest nconn
    dsimp only
    rw [refused]
    exact taken next
  | acceptAdmitted _ _ _ next => exact taken next
  | @readEnded fr c input _ _ _ =>
    obtain ⟨kernel, obj, _, _, ended⟩ := (s.srv.received c input).hangUp_frame c
    dsimp only
    rw [ended]
    exact .inl rfl
  | worker moved => cases moved <;> exact .inl rfl
  | _ => exact .inl rfl

/-- With an empty pool every object is lent out. -/
theorem lent_of_empty (empty : s.srv.pool = []) : s.lent = s.srv.nconn := by
  simp [State.lent, empty]

/-- No more objects are lent out than exist. -/
theorem lent_le (s : State) : s.lent ≤ s.srv.nconn :=
  Nat.le_trans List.countP_le_length (Nat.le_of_eq List.length_range)

/-- Objects are never given up, and one is made only when all are lent out. -/
theorem nconn_law (stepped : EpollNet.step s l = some s') :
    s.srv.nconn ≤ s'.srv.nconn ∧ (s'.srv.nconn ≤ s.srv.nconn ∨ s'.srv.nconn ≤ s.lent + 1) := by
  rcases nconn_step (step_cases stepped) with same | ⟨empty, more⟩
  · exact ⟨same.ge, .inl same.le⟩
  · rw [lent_of_empty empty, more]
    exact ⟨Nat.le_succ _, .inr (Nat.le_refl _)⟩

/-- The objects made are one more than the largest number lent out at most. -/
theorem nconn_le_highest {allow : State → Label → Prop} (started : Started s)
    (path : Path EpollNet.step allow s labels s') :
    s'.srv.nconn ≤ highest EpollNet.step State.lent s labels + 1 := by
  have upper := path.made_le fun s l s' _ stepped => (nconn_law stepped).2
  have first : s.srv.nconn ≤ highest EpollNet.step State.lent s labels := by
    rw [← lent_of_empty started.pool]
    exact le_highest s labels
  have bound := Nat.max_le.mpr ⟨first.trans (Nat.le_succ _), Nat.le_refl _⟩
  exact upper.trans bound

/-- In every run the objects ever made are as many as were lent out at one time at most, or one
more. -/
theorem objects_follow_peak {allow : State → Label → Prop} (started : Started s)
    (path : Path EpollNet.step allow s labels s') :
    highest EpollNet.step State.lent s labels ≤ s'.srv.nconn ∧
      s'.srv.nconn ≤ highest EpollNet.step State.lent s labels + 1 := by
  have lower := path.highest_le (fun s l s' _ stepped => (nconn_law stepped).1) lent_le
  exact ⟨lower.1, nconn_le_highest started path⟩

/-- Two clients come, one goes, and a third takes its place: three objects are made, and a fourth
one for a client whose registration is refused. -/
theorem objects_follow_peak_three : ∃ labels s,
    Path EpollNet.step (fun _ _ => True) Sample.start labels s ∧
      highest EpollNet.step State.lent Sample.start labels = 3 ∧ s.srv.nconn ≤ 3 + 1 ∧
        s.srv.nconn = 4 := by
  let labels := Sample.connecting 4 ++ Sample.connecting 5 ++ Sample.closing 4 ++
    Sample.connecting 6 ++ [.wait [(3, epollIn)], .test, .test,
      .accept ⟨[.ok ⟨7, [], false⟩], true, false⟩]
  have completed : (runAllowed EpollNet.step (fun _ _ => True) Sample.start labels).map
      (fun s => decide (s.srv.nconn = 4)) = some true ∧
        highest EpollNet.step State.lent Sample.start labels = 3 := by
    decide +kernel
  obtain ⟨ran, peak⟩ := completed
  obtain ⟨s, ran, passed⟩ := Option.map_eq_some_iff.mp ran
  have path := Path.of_runAllowed ran
  refine ⟨labels, s, path, peak, ?_, of_decide_eq_true passed⟩
  rw [← peak]
  exact (objects_follow_peak Sample.started path).2

/-! ## At rest -/

/-- The slots of the objects hold one payload each at most. -/
theorem slots_le (srv : Server) : srv.slots.length ≤ srv.nconn :=
  Nat.le_trans (List.length_filterMap_le _ _) (Nat.le_of_eq List.length_range)

/-- A server at rest has no items. -/
theorem Served.items (served : Served s) : s.items = [] := by
  have carries : s.workers.filterMap Worker.carries = [] := by
    apply List.filterMap_eq_nil_iff.mpr
    intro pc member
    rw [served.workers pc member]
    rfl
  have pushing : s.reactor.pushing = [] := by
    rcases served.reactor with at_pc | at_pc | at_pc <;> rw [at_pc] <;> rfl
  rw [State.items, carries, served.rqueue, pushing]
  rfl

/-- Lengths are `int`s and tokens balance. -/
def Regulated (s : State) (l : Label) : Prop := IntLengths s l ∧ Unbroken s l

instance (s : State) (l : Label) : Decidable (Regulated s l) :=
  inferInstanceAs (Decidable (IntLengths s l ∧ Unbroken s l))

/-- Where a server has come to rest, what is still allocated are the payloads that wait in slots,
and the blocks that the run lost; and the slots with a payload are no more than one above the
largest number of objects that were lent out at one time. -/
theorem kept_at_rest (started : Started s) (crew : s.workers ≠ [])
    (path : Path EpollNet.step Regulated s labels s')
    (resting : Resting EpollNet.step Internal s') :
    (s'.srv.heap.freed ++ s'.srv.slots ++ collect EpollNet.step State.leaks s labels).Perm
        (List.range s'.srv.heap.next) ∧
      s'.srv.slots.length ≤ highest EpollNet.step State.lent s labels + 1 := by
  have reached : Reach EpollNet.step Unbroken Started s' :=
    path.reach (fun _ _ allowed => allowed.2) (.refl started)
  have served := served_at_rest reached (crew_of_path path crew) resting
  obtain ⟨owned, leaked⟩ := leaked_of_path started (path.mono fun _ _ allowed => allowed.1)
  have conserved := leaked.conserves owned
  rw [State.blocks, served.items, List.flatMap_nil, List.nil_append] at conserved
  exact ⟨conserved, (slots_le s'.srv).trans (nconn_le_highest started path)⟩

/-- A byte was served, and of two payloads the second took the place of the first: the first is
lost, and the second waits. -/
theorem kept_at_rest_payload : ∃ labels s, Path EpollNet.step Regulated Sample.start labels s ∧
    (s.srv.heap.freed ++ [3] ++ [2]).Perm (List.range s.srv.heap.next) := by
  let labels := Sample.connecting 4 ++ Sample.reporting 4 false ++ Sample.taking 0 ++
    Sample.taking 0 ++ [.send 1 (some fun _ => 65) 3 true, .send 1 (some fun _ => 66) 2 true]
  have completed : (runAllowed EpollNet.step Regulated Sample.start labels).map (fun s =>
      decide (s.reactor = .blocked ∧ (∀ pc ∈ s.workers, pc = .wait) ∧ s.srv.sem = 0 ∧
        s.srv.slots = [3])) = some true ∧
      collect EpollNet.step State.leaks Sample.start labels = [2] := by
    decide +kernel
  obtain ⟨ran, lost⟩ := completed
  obtain ⟨s, ran, passed⟩ := Option.map_eq_some_iff.mp ran
  obtain ⟨blocked, idle, sem, slots⟩ := of_decide_eq_true passed
  have path := Path.of_runAllowed ran
  have resting := resting_of_waiting blocked idle sem
  have kept := (kept_at_rest Sample.started (by decide) path resting).1
  rw [slots, lost] at kept
  exact ⟨labels, s, path, kept⟩

end EpollNet
