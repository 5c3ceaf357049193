import EpollNet.Basis.Simulation
import EpollNet.Verif.Arrivals
import EpollNet.Verif.Delivery

/-!
# The server carries byte streams

What the server is for on its receiving side: one channel for each client, in which bytes that
arrived wait in order until they are handed to `procread`. In every run whose reads do not fill the
buffer, whose allocations succeed and whose workers take a client's chunks one at a time, the bytes
that enter and leave the server are a run of such channels, and what is left in a channel is the
chunks in the queue and the hands of the workers, and the bytes in the client's socket behind them.
-/

namespace EpollNet

open EpollNet.Basis

variable {s s' : State}

/-! ## The channels -/

/-- The bytes of a client's chunks, in order. -/
def streamOf (client : Nat) (items : List Item) : List UInt8 :=
  (ofClient client items).flatMap Item.received

/-- A client's chunks on their way to `procread`: in a worker's hand, in the queue, about to be
pushed. -/
def State.inFlight (s : State) (client : Nat) : List Item :=
  ofClient client (s.workers.filterMap Worker.handing ++ s.srv.rqueue ++ s.reactor.pushing)

/-- Chunks come from accepts that have been counted, as do the sockets. -/
structure Sourced (s : State) : Prop where
  /-- The sockets. -/
  numbered : s.srv.kernel.Numbered
  /-- The chunks. -/
  counted : ∀ item ∈ chunks s.history, item.client ≤ s.srv.kernel.accepted

/-- A client's channel holds what was read of its bytes and not handed over, and behind it what its
socket still holds. -/
structure Carries (s : State) (ch : Channels Nat UInt8) : Prop where
  /-- While the socket is open. -/
  sock : ∀ fd sock, s.srv.kernel.sock fd = some sock →
    streamOf sock.client (handed s.history) ++ ch sock.client =
      streamOf sock.client (chunks s.history) ++ sock.rx
  /-- When it is closed, with what it held then. -/
  rest : ∀ client, ∃ rest, streamOf client (handed s.history) ++ ch client =
    streamOf client (chunks s.history) ++ rest
  /-- Clients still to come have sent nothing. -/
  later : ∀ client, s.srv.kernel.accepted < client → ch client = []

/-- A client's item adds its bytes to the client's stream. -/
theorem streamOf_append_self (items : List Item) (item : Item) :
    streamOf item.client (items ++ [item]) = streamOf item.client items ++ item.received := by
  simp [streamOf, ofClient_append_self]

/-- Another client's item adds nothing to it. -/
theorem streamOf_append_other {client : Nat} (items : List Item) {item : Item}
    (other : item.client ≠ client) :
    streamOf client (items ++ [item]) = streamOf client items := by
  rw [streamOf, ofClient_append_other other]
  rfl

/-- Every step keeps the sources counted. -/
theorem Sourced.step {events : List StreamEvent} (sourced : Sourced s)
    (streamed : StreamStep s s' events) : Sourced s' := by
  obtain ⟨numbered, counted⟩ := sourced
  cases streamed with
  | quiet fd made _ moved =>
    refine ⟨moved.numbered numbered, ?_⟩
    rw [made, moved.accepted]
    exact counted
  | accepted inc made _ free grown kept _ =>
    have next : ∀ x sock, s'.srv.kernel.sock x = some sock →
        x = inc.fd ∧ sock.client = s.srv.kernel.accepted + 1 ∨
          x ≠ inc.fd ∧ s.srv.kernel.sock x = some sock := by
      intro x sock found
      have there := kept x sock found
      by_cases same : x = inc.fd
      · subst same
        simp only [Server.acceptedKernel, Function.update_self] at there
        exact .inl ⟨rfl, by rw [← Option.some.inj there]⟩
      · simp only [Server.acceptedKernel, Function.update_of_ne same] at there
        exact .inr ⟨same, there⟩
    refine ⟨⟨fun x y sock sock' here there same => ?_, fun x sock here => ?_⟩,
      fun item member => ?_⟩
    · rcases next x sock here with ⟨rfl, new⟩ | ⟨_, old⟩
      · rcases next y sock' there with ⟨rfl, _⟩ | ⟨_, old'⟩
        · rfl
        · have before := numbered.counted y sock' old'
          omega
      · rcases next y sock' there with ⟨_, new'⟩ | ⟨_, old'⟩
        · have before := numbered.counted x sock old
          omega
        · exact numbered.apart x y sock sock' old old' same
    · rw [grown]
      rcases next x sock here with ⟨_, new⟩ | ⟨_, old⟩
      · omega
      · have before := numbered.counted x sock old
        omega
    · rw [grown]
      rw [made] at member
      have before := counted item member
      omega
  | read item fd sock made _ isOpen client _ moved =>
    refine ⟨moved.numbered numbered, fun other member => ?_⟩
    rw [made] at member
    rw [moved.accepted]
    rcases List.mem_append.mp member with old | own
    · exact counted other old
    · rw [List.mem_singleton.mp own, client]
      exact numbered.counted fd sock isOpen
  | called item made _ kernel _ =>
    refine ⟨kernel ▸ numbered, ?_⟩
    rw [made, kernel]
    exact counted

/-- A client that has no chunk has no bytes. -/
theorem streamOf_none {client : Nat} {items : List Item}
    (none : ∀ item ∈ items, item.client ≠ client) : streamOf client items = [] := by
  have empty : ofClient client items = [] := by
    apply List.filter_eq_nil_iff.mpr
    intro item member
    simpa using none item member
  rw [streamOf, empty]
  rfl

variable {ch : Channels Nat UInt8} {events : List StreamEvent}

/-- Bytes arrive. -/
theorem Carries.quiet {fd : Fd} (carries : Carries s ch)
    (made : chunks s'.history = chunks s.history) (hands : handed s'.history = handed s.history)
    (moved : s.srv.kernel.Moved s'.srv.kernel fd [] events) :
    ∃ ch', run Channels.step ch events = some ch' ∧ Carries s' ch' := by
  obtain ⟨sock, rest, later⟩ := carries
  refine ⟨_, Channels.run_puts moved.only, ?_⟩
  constructor
  · intro x now found
    obtain ⟨old, there, client, bytes⟩ := moved.sock x now found
    rw [ite_self, List.nil_append] at bytes
    rw [made, hands, client, bytes, ← List.append_assoc, ← List.append_assoc, sock x old there]
  · intro client
    obtain ⟨left, whole⟩ := rest client
    refine ⟨left ++ puts client events, ?_⟩
    rw [made, hands, ← List.append_assoc, ← List.append_assoc, whole]
  · intro client more
    rw [moved.accepted] at more
    rw [later client more, moved.later client more]
    rfl

/-- A client comes, with nothing read of it yet. -/
theorem Carries.admit {inc : Kernel.Incoming} (carries : Carries s ch) (sourced : Sourced s)
    (first : ∀ client, ofClient client (handed s'.history) <+: ofClient client (chunks s'.history))
    (made : chunks s'.history = chunks s.history) (hands : handed s'.history = handed s.history)
    (grown : s'.srv.kernel.accepted = s.srv.kernel.accepted + 1)
    (kept : ∀ x sock, s'.srv.kernel.sock x = some sock →
      (Server.acceptedKernel s.srv.kernel inc).sock x = some sock)
    (shown : events = [.put (s.srv.kernel.accepted + 1) inc.bytes]) :
    ∃ ch', run Channels.step ch events = some ch' ∧ Carries s' ch' := by
  obtain ⟨sock, rest, later⟩ := carries
  have new : streamOf (s.srv.kernel.accepted + 1) (chunks s'.history) = [] := by
    apply streamOf_none
    intro item member
    rw [made] at member
    have counted := sourced.counted item member
    omega
  have none : streamOf (s.srv.kernel.accepted + 1) (handed s'.history) = [] := by
    obtain ⟨more, split⟩ := first (s.srv.kernel.accepted + 1)
    rw [streamOf, ← split, List.flatMap_append] at new
    exact (List.append_eq_nil_iff.mp new).1
  have empty : ch (s.srv.kernel.accepted + 1) = [] := later _ (Nat.lt_succ_self _)
  refine ⟨Function.update ch (s.srv.kernel.accepted + 1) inc.bytes, ?_, ?_⟩
  · rw [shown, run, Channels.step, empty]
    rfl
  constructor
  · intro x now found
    have there := kept x now found
    by_cases same : x = inc.fd
    · subst same
      simp only [Server.acceptedKernel, Function.update_self] at there
      obtain rfl := Option.some.inj there
      rw [new, none, Function.update_self]
    · simp only [Server.acceptedKernel, Function.update_of_ne same] at there
      have counted := sourced.numbered.counted x now there
      have other : now.client ≠ s.srv.kernel.accepted + 1 := by omega
      rw [Function.update_of_ne other, made, hands]
      exact sock x now there
  · intro client
    by_cases same : client = s.srv.kernel.accepted + 1
    · rw [same, new, none, Function.update_self]
      exact ⟨inc.bytes, rfl⟩
    · rw [Function.update_of_ne same, made, hands]
      exact rest client
  · intro client more
    rw [grown] at more
    have other : client ≠ s.srv.kernel.accepted + 1 := by omega
    rw [Function.update_of_ne other]
    exact later client (by omega)

/-- Bytes leave a socket and become a chunk: the channel holds the same as before. -/
theorem Carries.read {item : Item} {fd : Fd} {old : Socket} (carries : Carries s ch)
    (sourced : Sourced s) (made : chunks s'.history = chunks s.history ++ [item])
    (hands : handed s'.history = handed s.history) (isOpen : s.srv.kernel.sock fd = some old)
    (client : item.client = old.client) (still : (s'.srv.kernel.sock fd).isSome = true)
    (moved : s.srv.kernel.Moved s'.srv.kernel fd item.received events) :
    ∃ ch', run Channels.step ch events = some ch' ∧ Carries s' ch' := by
  obtain ⟨sock, rest, later⟩ := carries
  have grown : ∀ k, streamOf k (chunks s'.history) =
      streamOf k (chunks s.history) ++ if item.client = k then item.received else [] := by
    intro k
    rw [made]
    by_cases same : item.client = k
    · subst same
      rw [streamOf_append_self, if_pos rfl]
    · rw [streamOf_append_other _ same, if_neg same, List.append_nil]
  refine ⟨_, Channels.run_puts moved.only, ?_⟩
  constructor
  · intro x now found
    obtain ⟨before, there, same, bytes⟩ := moved.sock x now found
    have own : (x = fd) ↔ item.client = now.client := by
      rw [client, same]
      constructor
      · rintro rfl
        rw [isOpen] at there
        rw [Option.some.inj there]
      · exact fun equal => sourced.numbered.apart x fd before old there isOpen equal.symm
    have moved' : (if item.client = now.client then item.received else []) ++ now.rx =
        before.rx ++ puts now.client events := by
      rw [same, ← bytes]
      simp only [own, same]
    rw [grown, hands, List.append_assoc, moved', ← List.append_assoc, ← List.append_assoc, same,
      sock x before there]
  · intro k
    by_cases own : item.client = k
    · obtain ⟨now, found⟩ := Option.isSome_iff_exists.mp still
      obtain ⟨before, there, _, bytes⟩ := moved.sock fd now found
      rw [isOpen] at there
      obtain rfl := Option.some.inj there
      subst own
      rw [if_pos rfl, ← client] at bytes
      refine ⟨now.rx, ?_⟩
      rw [grown, if_pos rfl, hands, List.append_assoc, bytes, ← List.append_assoc,
        ← List.append_assoc, client, sock fd old isOpen]
    · obtain ⟨left, whole⟩ := rest k
      refine ⟨left ++ puts k events, ?_⟩
      rw [grown, if_neg own, hands, List.append_nil, ← List.append_assoc, whole,
        List.append_assoc]
  · intro k more
    rw [moved.accepted] at more
    rw [later k more, moved.later k more]
    rfl

/-- A chunk is handed over: it is in front of its channel. -/
theorem Carries.called {item : Item} (carries : Carries s ch) (sourced : Sourced s)
    (first : ∀ client, ofClient client (handed s'.history) <+: ofClient client (chunks s'.history))
    (made : chunks s'.history = chunks s.history)
    (hands : handed s'.history = handed s.history ++ [item])
    (kernel : s'.srv.kernel = s.srv.kernel)
    (shown : events = [.take item.client item.received]) :
    ∃ ch', run Channels.step ch events = some ch' ∧ Carries s' ch' := by
  obtain ⟨sock, rest, later⟩ := carries
  obtain ⟨more, split⟩ := first item.client
  have built : streamOf item.client (chunks s.history) =
      streamOf item.client (handed s.history) ++ (item.received ++ more.flatMap Item.received) := by
    rw [← made, streamOf, ← split, List.flatMap_append, hands, ofClient_append_self]
    simp [streamOf]
  obtain ⟨left, whole⟩ := rest item.client
  rw [built, List.append_assoc] at whole
  have front := List.append_cancel_left whole
  rw [List.append_assoc] at front
  refine ⟨Function.update ch item.client (more.flatMap Item.received ++ left), ?_, ?_⟩
  · rw [shown, run, Channels.step_take front]
    rfl
  have other : ∀ k, item.client ≠ k →
      streamOf k (handed s'.history) ++
          Function.update ch item.client (more.flatMap Item.received ++ left) k =
        streamOf k (handed s.history) ++ ch k := by
    intro k distinct
    rw [hands, streamOf_append_other _ distinct, Function.update_of_ne (Ne.symm distinct)]
  have own : streamOf item.client (handed s'.history) ++
      Function.update ch item.client (more.flatMap Item.received ++ left) item.client =
        streamOf item.client (handed s.history) ++ ch item.client := by
    rw [hands, streamOf_append_self, Function.update_self, front, List.append_assoc]
  have same : ∀ k, streamOf k (handed s'.history) ++
      Function.update ch item.client (more.flatMap Item.received ++ left) k =
        streamOf k (handed s.history) ++ ch k := by
    intro k
    by_cases equal : item.client = k
    · subst equal
      exact own
    · exact other k equal
  constructor
  · intro x now found
    rw [kernel] at found
    rw [same, made]
    exact sock x now found
  · intro k
    rw [same, made]
    exact rest k
  · intro k greater
    rw [kernel] at greater
    have among : item ∈ ofClient item.client (chunks s'.history) := by
      apply (first item.client).subset
      rw [hands, ofClient_append_self]
      exact List.mem_append_right _ List.mem_cons_self
    rw [made] at among
    have counted := sourced.counted item (List.mem_filter.mp among).1
    rw [Function.update_of_ne (by omega)]
    exact later k greater

/-- The channels follow every step. -/
theorem Carries.step (carries : Carries s ch) (sourced : Sourced s)
    (first : ∀ client, ofClient client (handed s'.history) <+: ofClient client (chunks s'.history))
    (streamed : StreamStep s s' events) :
    ∃ ch', run Channels.step ch events = some ch' ∧ Carries s' ch' := by
  cases streamed with
  | quiet fd made hands moved => exact carries.quiet made hands moved
  | accepted inc made hands free grown kept shown =>
    exact carries.admit sourced first made hands grown kept shown
  | read item fd old made hands isOpen client still moved =>
    exact carries.read sourced made hands isOpen client still moved
  | called item made hands kernel shown =>
    exact carries.called sourced first made hands kernel shown

/-- What was read of a client and not handed over is in flight, in order. -/
theorem chunks_inFlight {client : Nat} (serial : Serial client s) (logged : Logged s) :
    ofClient client (chunks s.history) =
      ofClient client (handed s.history) ++ s.inFlight client := by
  have last := serial.last
  rw [State.held] at last
  rw [logged.read, logged.fifo, State.inFlight]
  simp only [ofClient, List.filter_append] at last ⊢
  rw [last, List.append_assoc, List.append_assoc, List.append_assoc]

/-! ## Runs -/

/-- A server starts with one socket at most, which holds nothing. -/
theorem Started.sockets (started : Started s) : s.srv.kernel.accepted = 0 ∧
    ∃ fd, ∀ x sock, s.srv.kernel.sock x = some sock → x = fd ∧ sock = ⟨[], false, 0⟩ := by
  have closed : ∀ srv : Server, srv.kernel.accepted = 0 →
      (∃ fd, ∀ x sock, srv.kernel.sock x = some sock → x = fd ∧ sock = ⟨[], false, 0⟩) →
      srv.listenErr.kernel.accepted = 0 ∧
        ∃ fd, ∀ x sock,
          srv.listenErr.kernel.sock x = some sock → x = fd ∧ sock = ⟨[], false, 0⟩ := by
    rintro srv accepted ⟨fd, only⟩
    rcases listenErr_cases srv with same | ⟨_, closed⟩
    · rw [same]
      exact ⟨accepted, fd, only⟩
    · rw [closed]
      refine ⟨accepted, fd, fun x sock found => only x sock ?_⟩
      by_cases same : x = (srv.conns serverConn).fd
      · simp [Kernel.close, same] at found
      · simpa [Kernel.close, Function.update_of_ne same] using found
  have listening : ∀ memory event fd x sock,
      (Server.listening memory event fd).kernel.sock x = some sock →
        x = fd ∧ sock = ⟨[], false, 0⟩ := by
    intro memory event fd x sock found
    by_cases same : x = fd
    · simp only [Server.listening, same, Function.update_self] at found
      exact ⟨same, (Option.some.inj found).symm⟩
    · simp [Server.listening, Function.update_of_ne same, Kernel.initial] at found
  obtain ⟨memory, event, failed | ⟨fd, _, _, failed | ⟨granted, workers, running⟩⟩⟩ :=
    started.cases
  · rw [failed]
    refine closed _ rfl ⟨0, ?_⟩
    intro x sock found
    cases found
  · rw [failed]
    exact closed _ rfl ⟨fd, listening memory event fd⟩
  · rw [running]
    have same : (((Server.listening memory event fd).epollEventAddConn serverConn epollIn
        granted).2).kernel.sock = (Server.listening memory event fd).kernel.sock ∧
        (((Server.listening memory event fd).epollEventAddConn serverConn epollIn
          granted).2).kernel.accepted = 0 := by
      unfold Server.epollEventAddConn Kernel.ctlAdd
      dsimp only
      split <;> exact ⟨rfl, rfl⟩
    refine ⟨same.2, fd, fun x sock found => listening memory event fd x sock ?_⟩
    rw [← same.1]
    exact found

/-- A worker pops a client's chunk only when no other is about to call for one, reads do not fill
the buffer, and allocations succeed. -/
def Streaming (s : State) (l : Label) : Prop := Exclusive s l ∧ Whole s l

instance (s : State) (l : Label) : Decidable (Streaming s l) :=
  inferInstanceAs (Decidable (Exclusive s l ∧ Whole s l))

/-- The bytes that enter and leave a server in a run of this kind are a run of the channels it
carries. -/
theorem carries_of_path {labels : List Label} (started : Started s)
    (path : Path step Streaming s labels s') :
    ∃ ch, run Channels.step (fun _ => []) (collect step observed s labels) = some ch ∧
      Carries s' ch ∧ (∀ client, Serial client s') ∧ Logged s' := by
  obtain ⟨accepted, fd, only⟩ := started.sockets
  have made : chunks s.history = [] ∧ handed s.history = [] := by
    rw [started.blank.history]
    exact ⟨rfl, rfl⟩
  have begun : Carries s fun _ => [] := by
    constructor
    · intro x sock found
      rw [made.1, made.2, (only x sock found).2]
    · exact fun client => ⟨[], by rw [made.1, made.2]⟩
    · exact fun _ _ => rfl
  have sourced : Sourced s := by
    refine ⟨⟨fun x y sock sock' here there _ => ?_, fun x sock here => ?_⟩, fun item member => ?_⟩
    · exact (only x sock here).1.trans (only y sock' there).1.symm
    · rw [(only x sock here).2]
      exact Nat.zero_le _
    · rw [made.1] at member
      exact (List.not_mem_nil member).elim
  have here : Sourced s ∧ (∀ client, Serial client s) ∧ Logged s :=
    ⟨sourced, started.blank.serial, started.blank.logged⟩
  have kept : ∀ s l s', Sourced s ∧ (∀ client, Serial client s) ∧ Logged s →
      Streaming s l → step s l = some s' →
      Sourced s' ∧ (∀ client, Serial client s') ∧ Logged s' := by
    intro s l s' sound allowed stepped
    have streamed := streamStep sound.1.numbered allowed.2 stepped
    have cases := step_cases stepped
    exact ⟨sound.1.step streamed,
      fun client => (sound.2.1 client).step (allowed.1.toFor client) cases, sound.2.2.step cases⟩
  have simulates : Simulates step Streaming Channels.step observed
      (fun s => Sourced s ∧ (∀ client, Serial client s) ∧ Logged s) Carries := by
    intro s l s' ch sound carries allowed stepped
    obtain ⟨_, serial, logged⟩ := kept s l s' sound allowed stepped
    have streamed := streamStep sound.1.numbered allowed.2 stepped
    exact carries.step sound.1 (fun client => (serial client).handed_chunks logged) streamed
  obtain ⟨ch, shown, carries⟩ := simulates.path kept path here begun
  exact ⟨ch, shown, carries, (path.keeps _ kept here).2⟩

/-- In every run of this kind the bytes that enter and leave the server are a run of one first-in
first-out channel for each client. What entered a channel is what was handed to `procread` from it
and what is left in it; and left in it are the chunks in flight and, while the client's socket is
open, just the bytes the socket holds behind them. -/
theorem server_refines_channels {labels : List Label} (started : Started s)
    (path : Path step Streaming s labels s') :
    ∃ ch, run Channels.step (fun _ => []) (collect step observed s labels) = some ch ∧
      (∀ client, puts client (collect step observed s labels) =
        takes client (collect step observed s labels) ++ ch client) ∧
      (∀ client, (s'.inFlight client).flatMap Item.received <+: ch client) ∧
      ∀ fd sock, s'.srv.kernel.sock fd = some sock →
        ch sock.client = (s'.inFlight sock.client).flatMap Item.received ++ sock.rx := by
  obtain ⟨ch, shown, carries, serial, logged⟩ := carries_of_path started path
  have built : ∀ client, streamOf client (chunks s'.history) =
      streamOf client (handed s'.history) ++ (s'.inFlight client).flatMap Item.received := by
    intro client
    rw [streamOf, chunks_inFlight (serial client) logged, List.flatMap_append]
    rfl
  refine ⟨ch, shown, fun client => ?_, fun client => ?_, fun x sock found => ?_⟩
  · exact Channels.run_conserves shown client
  · obtain ⟨rest, whole⟩ := carries.rest client
    rw [built, List.append_assoc] at whole
    exact ⟨rest, (List.append_cancel_left whole).symm⟩
  · have whole := carries.sock x sock found
    rw [built, List.append_assoc] at whole
    exact List.append_cancel_left whole

/-- A client sends two bytes, and the first is handed over before the second is read. -/
theorem server_refines_channels_half : ∃ labels t ch, Path step Streaming Sample.start labels t ∧
    run Channels.step (fun _ => []) (collect step observed Sample.start labels) = some ch ∧
      takes 1 (collect step observed Sample.start labels) = [65] ∧ ch 1 = [66] := by
  let labels := Sample.connecting 4 ++ Sample.delivering 4 [65] ++ [.arrive ⟨4, [66], false⟩] ++
    Sample.taking 0 ++ [.worker 0]
  have completed : (runAllowed step Streaming Sample.start labels).isSome = true ∧
      puts 1 (collect step observed Sample.start labels) = [65, 66] ∧
      takes 1 (collect step observed Sample.start labels) = [65] := by
    decide +kernel
  obtain ⟨ran, put, taken⟩ := completed
  obtain ⟨t, ran⟩ := Option.isSome_iff_exists.mp ran
  have path := Path.of_runAllowed ran
  obtain ⟨ch, shown, conserved, _⟩ := server_refines_channels Sample.started path
  refine ⟨labels, t, ch, path, shown, taken, ?_⟩
  have left := conserved 1
  rw [put, taken] at left
  exact (List.append_cancel_left (show [65] ++ [66] = [65] ++ ch 1 from left)).symm

end EpollNet
