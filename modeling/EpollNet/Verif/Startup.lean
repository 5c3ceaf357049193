import EpollNet.Verif.Streams

/-!
# Which servers serve

`StartServer` starts its loops when `Server_Listen` succeeds, and `Server_Listen` does not look at
what the registration of the listening descriptor came to. A server whose registration was refused
runs, but the kernel never has anything to report to it.
-/

namespace EpollNet

open EpollNet.Basis

variable {s s' : State} {l : Label}

/-- Nothing is registered, and nothing happened. -/
structure Deaf (s : State) : Prop where
  /-- The interest list is empty. -/
  unregistered : ∀ fd, s.srv.kernel.reg fd = none
  /-- The reactor blocks, or was not started. -/
  reactor : s.reactor = .blocked ∨ s.reactor = .stopped
  /-- The receive queue is empty. -/
  rqueue : s.srv.rqueue = []
  /-- Its semaphore is zero. -/
  sem : s.srv.sem = 0
  /-- No worker came past its size check. -/
  workers : ∀ pc ∈ s.workers, pc = .wait ∨ pc = .size
  /-- Nothing was read. -/
  history : s.history = []
  /-- Nobody was accepted. -/
  accepted : s.srv.kernel.accepted = 0
  /-- There is the listening object only. -/
  nconn : s.srv.nconn = serverConn + 1
  /-- It is not connected. -/
  idle : (s.srv.conns serverConn).activity = .connclosed

/-- The reactor is nowhere else. -/
theorem Deaf.nowhere (deaf : Deaf s) {pc : Pc} (at_pc : s.reactor = pc) (working : pc ≠ .blocked)
    (running : pc ≠ .stopped) : False := by
  rcases deaf.reactor with blocked | stopped
  · exact working (at_pc.symm.trans blocked)
  · exact running (at_pc.symm.trans stopped)

/-- A worker that is set back stays short of its pop. -/
theorem Deaf.setWorker (deaf : Deaf s) {srv : Server} (same : srv = s.srv) {w : Nat} {pc : Worker}
    (short : pc = .wait ∨ pc = .size) :
    Deaf (State.setWorker { s with srv } w pc) := by
  subst same
  refine { deaf with workers := fun other member => ?_ }
  rcases List.mem_or_eq_of_mem_set member with old | new
  · exact deaf.workers other old
  · exact new ▸ short

/-- A deaf server stays deaf. -/
theorem Deaf.step (deaf : Deaf s) (stepped : Step s l s') : Deaf s' := by
  cases stepped with
  | @waited batch at_blocked reports =>
    have empty : batch = [] := by
      apply List.eq_nil_iff_forall_not_mem.mpr
      intro entry member
      have registered := reports.2 entry member
      rw [deaf.unregistered] at registered
      exact Bool.false_ne_true registered
    subst empty
    exact { deaf with reactor := .inl rfl }
  | tested at_pc => exact (deaf.nowhere at_pc nofun nofun).elim
  | acceptLooping at_pc => exact (deaf.nowhere at_pc nofun nofun).elim
  | acceptNone at_pc => exact (deaf.nowhere at_pc nofun nofun).elim
  | acceptDropped at_pc => exact (deaf.nowhere at_pc nofun nofun).elim
  | acceptRefused at_pc => exact (deaf.nowhere at_pc nofun nofun).elim
  | acceptAdmitted at_pc => exact (deaf.nowhere at_pc nofun nofun).elim
  | sockoptFailed at_pc => exact (deaf.nowhere at_pc nofun nofun).elim
  | sockoptConnected at_pc => exact (deaf.nowhere at_pc nofun nofun).elim
  | sockoptSevered at_pc => exact (deaf.nowhere at_pc nofun nofun).elim
  | readSkipped at_pc => exact (deaf.nowhere at_pc nofun nofun).elim
  | readLooping at_pc => exact (deaf.nowhere at_pc nofun nofun).elim
  | readEnded at_pc => exact (deaf.nowhere at_pc nofun nofun).elim
  | readFinished at_pc => exact (deaf.nowhere at_pc nofun nofun).elim
  | readItem at_pc => exact (deaf.nowhere at_pc nofun nofun).elim
  | pushed at_pc => exact (deaf.nowhere at_pc nofun nofun).elim
  | posted at_pc => exact (deaf.nowhere at_pc nofun nofun).elim
  | writeIdle at_pc => exact (deaf.nowhere at_pc nofun nofun).elim
  | writeLooping at_pc => exact (deaf.nowhere at_pc nofun nofun).elim
  | written at_pc => exact (deaf.nowhere at_pc nofun nofun).elim
  | @arrived a =>
    have kept : (s.srv.kernel.arrive a).reg = s.srv.kernel.reg ∧
        (s.srv.kernel.arrive a).accepted = s.srv.kernel.accepted := by
      unfold Kernel.arrive
      split
      · exact ⟨rfl, rfl⟩
      · split <;> exact ⟨rfl, rfl⟩
    refine { deaf with unregistered := fun fd => ?_, accepted := kept.2.trans deaf.accepted }
    rw [kept.1]
    exact deaf.unregistered fd
  | sendIdle => exact deaf
  | @sent c _ _ _ _ _ _ known _ connected =>
    have listening : c = serverConn := by
      rw [deaf.nconn] at known
      exact Nat.le_zero.mp (Nat.le_of_lt_succ known)
    rw [listening, deaf.idle] at connected
    cases connected
  | worker moved =>
    have short : ∀ {w : Nat} {pc : Worker}, s.workers[w]? = some pc → pc = .wait ∨ pc = .size :=
      fun found => deaf.workers _ (List.mem_of_getElem? found)
    cases moved with
    | taken _ positive =>
      rw [deaf.sem] at positive
      exact absurd positive (Nat.lt_irrefl 0)
    | sized _ positive =>
      rw [deaf.rqueue] at positive
      exact absurd positive (by decide)
    | sizedEmpty _ _ => exact deaf.setWorker rfl (.inl rfl)
    | poppedEmpty found => rcases short found with same | same <;> cases same
    | popped found => rcases short found with same | same <;> cases same
    | called found => rcases short found with same | same <;> cases same
    | returned found => rcases short found with same | same <;> cases same
    | freed found => rcases short found with same | same <;> cases same
  | interrupted _ => exact deaf.setWorker rfl (.inr rfl)

/-! ## From the start -/

variable {memory : ConnPtr → ConnObj} {event : Nat → EpollEvent} {workers : Nat}
  {input : Server.ListenInput}

/-- `Server_Listen` fails with nothing registered, or adds its socket to epoll. -/
theorem serverListen_cases (memory : ConnPtr → ConnObj) (event : Nat → EpollEvent)
    (input : Server.ListenInput) :
    (∃ srv : Server, (Server.serverCreate memory event).serverListen input = (-1, srv.listenErr) ∧
      srv.kernel.reg = Kernel.initial.reg) ∨
    ∃ sock, Kernel.initial.Free sock ∧ (Server.serverCreate memory event).serverListen input =
      (0, ((Server.listening memory event sock).epollEventAddConn serverConn epollIn
        input.granted).2) := by
  unfold Server.serverListen
  cases given : input.socket with
  | none => exact .inl ⟨_, rfl, rfl⟩
  | some sock =>
    by_cases free : Kernel.initial.Free sock
    · have opened : (Server.serverCreate memory event).kernel.socket (some sock) =
          (some sock, (Server.listening memory event sock).kernel) := by
        simp only [Kernel.socket]
        exact if_pos free
      simp only [opened]
      by_cases ready : (input.reuse && input.bind && input.listen) = true
      · rw [if_pos ready]
        exact .inr ⟨sock, free, rfl⟩
      · rw [if_neg ready]
        exact .inl ⟨_, rfl, rfl⟩
    · have refused : (Server.serverCreate memory event).kernel.socket (some sock) =
          (none, (Server.serverCreate memory event).kernel) := by
        simp only [Kernel.socket]
        exact if_neg free
      simp only [refused]
      exact .inl ⟨_, rfl, rfl⟩

/-- A server starts with nothing registered, unless its registration was granted. -/
theorem startWith_reg (refused : ¬(((Server.serverCreate memory event).serverListen input).1 = 0 ∧
    input.granted = true)) (fd : Fd) :
    (startWith memory event workers input).srv.kernel.reg fd = none := by
  rcases serverListen_cases memory event input with
    ⟨srv, failed, unregistered⟩ | ⟨sock, _, listened⟩
  · have stopped : (startWith memory event workers input).srv = srv.listenErr := by
      rw [startWith, failed]
      rfl
    rw [stopped]
    exact listenErr_reg unregistered fd
  · rw [listened] at refused
    have denied : input.granted = false := by
      simpa using refused
    have running : (startWith memory event workers input).srv =
        ((Server.listening memory event sock).epollEventAddConn serverConn epollIn
          input.granted).2 := by
      rw [startWith, listened]
      rfl
    rw [running, denied]
    simp [Server.epollEventAddConn, Kernel.ctlAdd, Server.listening, Kernel.log, Kernel.initial]

/-- Then it is deaf. -/
theorem Started.deaf (started : Started s) (unregistered : ∀ fd, s.srv.kernel.reg fd = none) :
    Deaf s := by
  have blank := started.blank
  refine ⟨unregistered, blank.reactor, blank.rqueue, blank.sem, fun pc member => ?_, blank.history,
    started.sockets.1, blank.nconn, started.idle⟩
  obtain ⟨n, same⟩ := blank.workers
  rw [same] at member
  exact .inl (List.eq_of_mem_replicate member)

/-- The first test of an entry that reports input to the listening object. -/
theorem dispatch_out {event : Nat → EpollEvent} (entry : event 0 = ⟨epollIn, serverConn⟩) :
    Frame.dispatch ⟨0, 1, 0, .out⟩ event = .test ⟨0, 1, 0, .inp⟩ := by
  have quiet : hasAny epollIn (epollOut ||| epollHup) = false := by decide
  simp [Frame.dispatch, entry, quiet, Frame.resume]

/-- The second one. -/
theorem dispatch_inp {event : Nat → EpollEvent} (entry : event 0 = ⟨epollIn, serverConn⟩) :
    Frame.dispatch ⟨0, 1, 0, .inp⟩ event = .accept ⟨0, 1, 0 ||| eventReadBits, .inp⟩ := by
  have noError : hasAny epollIn epollErr = false := by decide
  have input : hasAny epollIn (epollIn ||| epollHup) = true := by decide
  simp [Frame.dispatch, entry, noError, input, Frame.enter]

/-- What the reactor does next changes nothing of the server. -/
theorem afterAccept_srv (s : State) (fr : Frame) (result : Option (Option ConnPtr) × Server) :
    (afterAccept s fr result).srv = result.2 := by
  obtain ⟨_ | _ | c, srv⟩ := result <;> rfl

/-- A blocked server whose listening descriptor is registered may accept. -/
theorem accepts {fd other : Fd} {ev : EpollEvent} (blocked : s.reactor = .blocked)
    (listening : (s.srv.conns serverConn).fd = fd) (isOpen : (s.srv.kernel.sock fd).isSome = true)
    (registered : s.srv.kernel.reg fd = some ev) (named : ev.ptr = serverConn)
    (free : s.srv.kernel.Free other) :
    ∃ labels t, Path EpollNet.step (fun _ _ => True) s labels t ∧
      t.srv.kernel.accepted = s.srv.kernel.accepted + 1 := by
  let batch : List (Fd × BitVec 32) := [(fd, epollIn)]
  let inc : Kernel.Incoming := ⟨other, [], false⟩
  let called : Server.AcceptInput := ⟨[.ok inc], true, true⟩
  let reported : State := { s with srv := s.srv.epollWait batch, reactor := .test ⟨0, 1, 0, .out⟩ }
  let tested : State := { reported with reactor := .test ⟨0, 1, 0, .inp⟩ }
  let entered : State := { reported with reactor := .accept ⟨0, 1, 0 ||| eventReadBits, .inp⟩ }
  have reports : s.srv.kernel.Reports batch := by
    refine ⟨List.nodup_singleton _, fun entry member => ?_⟩
    rw [List.mem_singleton.mp member, registered]
    rfl
  have entry : reported.srv.event 0 = ⟨epollIn, serverConn⟩ := by
    simp [reported, batch, Server.epollWait, registered, named]
  have first : EpollNet.step s (.wait batch) = some reported := by
    rw [EpollNet.step, blocked]
    exact if_pos reports
  have second : EpollNet.step reported .test = some tested := by
    show some { reported with reactor := Frame.dispatch ⟨0, 1, 0, .out⟩ reported.srv.event } = _
    rw [dispatch_out entry]
  have third : EpollNet.step tested .test = some entered := by
    show some { reported with reactor := Frame.dispatch ⟨0, 1, 0, .inp⟩ reported.srv.event } = _
    rw [dispatch_inp entry]
  have looped : Server.acceptLoop (entered.srv.conns serverConn).fd called.script
      entered.srv.kernel = (some (some inc.fd), Server.acceptedKernel entered.srv.kernel inc) := by
    have still : entered.srv.kernel.Free inc.fd ∧
        (entered.srv.kernel.sock (entered.srv.conns serverConn).fd).isSome = true :=
      ⟨free, listening ▸ isOpen⟩
    rw [Server.acceptLoop, Kernel.accept, if_pos still]
    rfl
  have fourth : EpollNet.step entered (.accept called) = some (afterAccept entered
      ⟨0, 1, 0 ||| eventReadBits, .inp⟩ (entered.srv.serverAccept called)) := rfl
  refine ⟨_, _, .cons trivial first (.cons trivial second (.cons trivial third
    (.cons trivial fourth .nil))), ?_⟩
  rw [afterAccept_srv]
  exact (Server.serverAccept_kernel entered.srv called looped).1

/-- A server whose registration was granted may accept. -/
theorem accepts_of_opens (listened : ((Server.serverCreate memory event).serverListen input).1 = 0)
    (granted : input.granted = true) :
    ∃ labels s, Path EpollNet.step (fun _ _ => True) (startWith memory event workers input) labels
      s ∧ 0 < s.srv.kernel.accepted := by
  rcases serverListen_cases memory event input with ⟨srv, failed, _⟩ | ⟨sock, free, called⟩
  · rw [failed] at listened
    cases listened
  · have begun : startWith memory event workers input = ⟨((Server.listening memory event
        sock).epollEventAddConn serverConn epollIn input.granted).2, .blocked,
          List.replicate workers .wait, []⟩ := by
      rw [startWith, called]
      rfl
    rw [begun, granted]
    let srv := ((Server.listening memory event sock).epollEventAddConn serverConn epollIn true).2
    have listening : (srv.conns serverConn).fd = sock := by
      simp [srv, Server.epollEventAddConn, Server.listening]
    have added : srv.kernel = (((Server.listening memory event sock).kernel.log
        (.epollCtl sock)).register sock ⟨epollIn, serverConn⟩) := by
      simp [srv, Server.epollEventAddConn, Server.listening, Kernel.ctlAdd, Kernel.initial,
        Kernel.log]
    have isOpen : (srv.kernel.sock sock).isSome = true := by
      simp [added, Kernel.register, Kernel.log, Server.listening]
    have registered : srv.kernel.reg sock = some ⟨epollIn, serverConn⟩ := by
      simp [added, Kernel.register]
    have other : ∃ other, srv.kernel.Free other := by
      refine ⟨if sock = 5 then 6 else 5, ?_, ?_, ?_⟩
      · split <;> decide
      · split <;> decide
      · rw [added]
        have distinct : (if sock = 5 then 6 else 5) ≠ sock := by
          by_cases same : sock = 5
          · rw [if_pos same, same]
            decide
          · rw [if_neg same]
            exact Ne.symm same
        simp [Kernel.register, Kernel.log, Server.listening, Kernel.initial,
          Function.update_of_ne distinct]
    obtain ⟨other, unused⟩ := other
    obtain ⟨labels, t, path, more⟩ :=
      accepts (s := ⟨srv, .blocked, List.replicate workers .wait, []⟩) rfl listening isOpen
        registered rfl unused
    refine ⟨labels, t, path, ?_⟩
    omega

/-- Whatever the calls of `Server_Listen` answer, some run of the server accepts a client or reads
anything if and only if `Server_Listen` succeeded and the registration of its descriptor, which it
does not look at, was granted. -/
theorem serves_iff (memory : ConnPtr → ConnObj) (event : Nat → EpollEvent) (workers : Nat)
    (input : Server.ListenInput) :
    (∃ labels s, Path EpollNet.step (fun _ _ => True) (startWith memory event workers input) labels
      s ∧ (0 < s.srv.kernel.accepted ∨ s.history ≠ [])) ↔
      ((Server.serverCreate memory event).serverListen input).1 = 0 ∧ input.granted = true := by
  constructor
  · rintro ⟨labels, s, path, happened⟩
    by_contra refused
    have started : Started (startWith memory event workers input) :=
      ⟨memory, event, workers, input, rfl⟩
    have deaf := path.keeps Deaf (fun s l s' deaf _ stepped => deaf.step (step_cases stepped))
      (started.deaf (startWith_reg refused))
    rcases happened with accepted | read
    · rw [deaf.accepted] at accepted
      exact Nat.lt_irrefl 0 accepted
    · exact read deaf.history
  · rintro ⟨listened, granted⟩
    obtain ⟨labels, s, path, accepted⟩ := accepts_of_opens listened granted
    exact ⟨labels, s, path, .inl accepted⟩

end EpollNet
