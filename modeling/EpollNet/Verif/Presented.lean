import EpollNet.Verif.Clients
import EpollNet.Verif.Edge
import EpollNet.Verif.Rest
import EpollNet.Verif.Streams

/-!
# Everything sent is presented

A server that has come to rest has nothing in its queue and nothing in the hands of its workers,
and with no report due it has read the sockets empty. So what is left in the channels of the open
clients is nothing: every byte that reached one of their sockets was handed to `procread`.
-/

namespace EpollNet

open EpollNet.Basis

variable {s s' : State} {fd : Fd} {sock : Socket}

/-- Bytes keep their order, tokens balance, and no receiving loop leaves input behind. -/
def Lossless (s : State) (l : Label) : Prop := Streaming s l ∧ Unbroken s l ∧ Unstalled s l

instance (s : State) (l : Label) : Decidable (Lossless s l) :=
  inferInstanceAs (Decidable (Streaming s l ∧ Unbroken s l ∧ Unstalled s l))

/-- At rest nothing is in flight. -/
theorem Served.inFlight (served : Served s) (client : Nat) : s.inFlight client = [] := by
  have hands : s.workers.filterMap Worker.handing = [] := by
    apply List.filterMap_eq_nil_iff.mpr
    intro pc member
    rw [served.workers pc member]
    rfl
  have pushing : s.reactor.pushing = [] := by
    rcases served.reactor with at_pc | at_pc | at_pc <;> rw [at_pc] <;> rfl
  rw [State.inFlight, hands, served.rqueue, pushing]
  rfl

/-- Where a server has come to rest, every byte that reached the socket of a client that is still
open, registered for input and without a report due was handed to `procread`, in order and once, and
the client has not shut down. -/
theorem all_presented {labels : List Label} (started : Started s) (crew : s.workers ≠ [])
    (path : Path step Lossless s labels s') (resting : Resting step Internal s')
    (blocked : s'.reactor = .blocked) (isOpen : s'.srv.kernel.sock fd = some sock)
    (client : sock.client ≠ 0) (listens : s'.srv.kernel.armed fd = true)
    (quiet : s'.srv.kernel.due fd = false) :
    takes sock.client (collect step observed s labels) =
      puts sock.client (collect step observed s labels) ∧ sock.fin = false := by
  have balanced : Reach EpollNet.step Unbroken Started s' :=
    path.reach (fun _ _ allowed => allowed.2.1) (.refl started)
  have unstalled : Reach EpollNet.step Unstalled Started s' :=
    path.reach (fun _ _ allowed => allowed.2.2) (.refl started)
  have served := served_at_rest balanced (crew_of_path path crew) resting
  obtain ⟨empty, fin⟩ := read_empty unstalled blocked isOpen client listens quiet
  obtain ⟨ch, shown, carries, serial, logged⟩ :=
    carries_of_path started (path.mono fun _ _ allowed => allowed.1)
  have left : ch sock.client = [] := by
    have whole := carries.sock fd sock isOpen
    have read := chunks_inFlight (serial sock.client) logged
    rw [served.inFlight, List.append_nil] at read
    rw [empty, List.append_nil, streamOf, streamOf, read] at whole
    exact List.append_right_eq_self.mp whole
  have conserved := Channels.run_conserves shown sock.client
  rw [left, List.append_nil] at conserved
  exact ⟨conserved.symm, fin⟩

/-- Two equal bytes of a client are read one by one and handed over by two workers. -/
theorem all_presented_two : ∃ labels t, Path step Lossless Sample.start labels t ∧
    Resting step Internal t ∧ puts 1 (collect step observed Sample.start labels) = [65, 65] ∧
      takes 1 (collect step observed Sample.start labels) =
        puts 1 (collect step observed Sample.start labels) := by
  let labels := Sample.connecting 4 ++ Sample.reporting 4 false ++ Sample.taking 0 ++
    Sample.taking 0 ++ Sample.reporting 4 false ++ Sample.taking 1 ++ Sample.taking 1
  have completed : (runAllowed step Lossless Sample.start labels).map (fun t =>
      decide (t.reactor = .blocked ∧ (∀ pc ∈ t.workers, pc = .wait) ∧ t.srv.sem = 0 ∧
        t.srv.kernel.sock 4 = some ⟨[], false, 1⟩ ∧ t.srv.kernel.armed 4 = true ∧
        t.srv.kernel.due 4 = false)) = some true ∧
      puts 1 (collect step observed Sample.start labels) = [65, 65] := by
    decide +kernel
  obtain ⟨ran, put⟩ := completed
  obtain ⟨t, ran, passed⟩ := Option.map_eq_some_iff.mp ran
  obtain ⟨blocked, idle, sem, isOpen, listens, quiet⟩ := of_decide_eq_true passed
  have path := Path.of_runAllowed ran
  have resting := resting_of_waiting blocked idle sem
  refine ⟨labels, t, path, resting, put, ?_⟩
  exact (all_presented Sample.started (by decide) path resting blocked isOpen (by decide) listens
    quiet).1

end EpollNet
