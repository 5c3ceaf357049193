import EpollNet.Verif.Turns

/-!
# What a callback does to its batch

`epollEvent_addConn` and `epollEvent_modifyConn` build their argument in `evb->event[0]`, below the
loop that is reading the array. The first entry is read again by its second test after the callback
of its first, so a callback that registers an interest there puts its own mask in the place of the
reported one. Everywhere else the batch stays as `epoll_wait` stored it.
-/

namespace EpollNet

open EpollNet.Basis

/-! ## The discipline -/

/-- A step that belongs to one batch, with the reactor alone at the sockets: `epoll_wait` is not
called again and no other thread sends. -/
def WithinBatch : Label → Prop
  | .wait _ | .send .. => False
  | _ => True

/-- `Server_Accept` has accepted a connection and has an object for it. -/
def Accepts (srv : Server) (input : Server.AcceptInput) : Prop :=
  (∃ fd, (Server.acceptLoop (srv.conns serverConn).fd input.script srv.kernel).1 =
    some (some fd)) ∧ (srv.pool ≠ [] ∨ input.connGranted = true)

/-- `event_write` has something to send and comes to an end. -/
def Sends (srv : Server) (c : ConnPtr) (script : List (Except Errno Nat)) : Prop :=
  ∃ b, (srv.conns c).sendptr = some b ∧ 0 < (srv.conns c).sendlen ∧
    (sendData (srv.conns c) b script srv.kernel).ret.isSome = true

/-- The reactor is about to run an `event_write` that sends. -/
def Pc.Sends (srv : Server) (script : List (Except Errno Nat)) : Pc → Prop
  | .write fr c => hasAny eventWriteBits fr.events = true ∧ EpollNet.Sends srv c script
  | _ => False

/-- The step registers an interest. -/
def Registers (s : State) : Label → Prop
  | .accept input => Accepts s.srv input
  | .write script => s.reactor.Sends s.srv script
  | _ => False

/-- Nothing is registered while the first entry is still to be read. -/
def SparesFirst (s : State) (l : Label) : Prop :=
  s.reactor.entryZeroLive = true → ¬Registers s l

instance (srv : Server) (input : Server.AcceptInput) : Decidable (Accepts srv input) :=
  decidable_of_iff
    ((Server.acceptLoop (srv.conns serverConn).fd input.script srv.kernel).1.join.isSome = true ∧
      (srv.pool ≠ [] ∨ input.connGranted = true)) (by
    unfold Accepts
    rw [Option.isSome_iff_exists]
    simp only [Option.join_eq_some_iff])

instance (srv : Server) (c : ConnPtr) (script : List (Except Errno Nat)) :
    Decidable (Sends srv c script) :=
  decidable_of_iff ((srv.conns c).sendptr.any (fun b => decide (0 < (srv.conns c).sendlen) &&
    (sendData (srv.conns c) b script srv.kernel).ret.isSome) = true) (by
    unfold Sends
    simp [Option.any_eq_true])

instance (srv : Server) (script : List (Except Errno Nat)) (pc : Pc) :
    Decidable (pc.Sends srv script) :=
  match pc with
  | .write fr c =>
    inferInstanceAs (Decidable (hasAny eventWriteBits fr.events = true ∧ Sends srv c script))
  | .blocked | .test _ | .accept _ | .sockopt .. | .read .. | .push .. | .post .. | .inHandler
  | .stopped => inferInstanceAs (Decidable False)

instance (s : State) (l : Label) : Decidable (Registers s l) :=
  match l with
  | .accept input => inferInstanceAs (Decidable (Accepts s.srv input))
  | .write script => inferInstanceAs (Decidable (s.reactor.Sends s.srv script))
  | .wait _ | .test | .sockopt _ | .read _ | .push | .post | .arrive _ | .send .. | .worker _
  | .interrupt _ => inferInstanceAs (Decidable False)

instance (l : Label) : Decidable (WithinBatch l) :=
  match l with
  | .wait _ | .send .. => inferInstanceAs (Decidable False)
  | .test | .accept _ | .sockopt _ | .read _ | .push | .post | .write _ | .arrive _ | .worker _
  | .interrupt _ => inferInstanceAs (Decidable True)

instance (s : State) (l : Label) : Decidable (SparesFirst s l) :=
  inferInstanceAs (Decidable (s.reactor.entryZeroLive = true → ¬Registers s l))

/-! ## What a step writes -/

variable {s s' : State} {l : Label}

/-- `getConn` finds an object unless the pool is empty and none can be created, and leaves the array
as it is. -/
theorem getConn_event (srv : Server) (granted : Bool) :
    ((srv.getConn granted).1.isSome = true ↔ srv.pool ≠ [] ∨ granted = true) ∧
      (srv.getConn granted).2.event = srv.event := by
  unfold Server.getConn dataQueuePop
  cases srv.pool with
  | nil => cases granted <;> simp
  | cons c rest => simp

/-- The registration of `Server_Accept` puts its argument in the first entry, whatever becomes of
it. -/
theorem acceptAdd_event (srv : Server) (c : ConnPtr) (clientSock : Fd) (granted : Bool) :
    (srv.acceptAdd c clientSock granted).2.event =
      Function.update srv.event 0 ⟨Server.acceptMask, c⟩ := by
  unfold Server.acceptAdd Server.epollEventAddConn
  dsimp only
  split
  · unfold Server.acceptErr
    split <;> rfl
  · rfl

/-- `Server_Accept` puts its argument in the first entry if it registers, and leaves the array as it
is if not. -/
theorem serverAccept_event (srv : Server) (input : Server.AcceptInput) :
    (Accepts srv input → (srv.serverAccept input).1.isSome = true ∧
      ∃ c, (srv.serverAccept input).2.event =
        Function.update srv.event 0 ⟨Server.acceptMask, c⟩) ∧
    (¬Accepts srv input → (srv.serverAccept input).2.event = srv.event) := by
  unfold Accepts Server.serverAccept Server.acceptConn
  generalize Server.acceptLoop (srv.conns serverConn).fd input.script srv.kernel = answered
  obtain ⟨result, kernel⟩ := answered
  rcases result with _ | _ | fd
  · exact ⟨by simp, fun _ => rfl⟩
  · exact ⟨by simp, fun _ => rfl⟩
  · obtain ⟨found, same⟩ := getConn_event { srv with kernel } input.connGranted
    dsimp only
    generalize ({ srv with kernel } : Server).getConn input.connGranted = given at found same ⊢
    obtain ⟨conn, given⟩ := given
    cases conn with
    | none =>
      have none' : ¬(srv.pool ≠ [] ∨ input.connGranted = true) := fun some => by
        simpa using found.mpr some
      refine ⟨fun accepts => absurd accepts.2 none', fun _ => ?_⟩
      simp only [Server.acceptErr]
      split <;> exact same
    | some c =>
      refine ⟨fun _ => ⟨rfl, c, ?_⟩, fun spares => absurd ⟨⟨fd, rfl⟩, found.mp rfl⟩ spares⟩
      exact (acceptAdd_event _ c fd input.granted).trans
        (congrArg (Function.update · 0 ⟨Server.acceptMask, c⟩) same)

/-- `event_write` puts its argument in the first entry if it sends, and leaves the array as it is if
not. -/
theorem eventWrite_event (srv : Server) (c : ConnPtr) (script : List (Except Errno Nat)) :
    (Sends srv c script → (srv.eventWrite c script).1 = true ∧
      ∃ flags, (srv.eventWrite c script).2.event =
        Function.update srv.event 0 ⟨Server.modifyMask flags, c⟩) ∧
    (¬Sends srv c script → (srv.eventWrite c script).2.event = srv.event) := by
  rcases srv.eventWrite_cases c script with ⟨idle, called⟩ | ⟨b, pending, positive, outcome⟩
  · refine ⟨?_, fun _ => by rw [called]⟩
    rintro ⟨b, pending, positive, _⟩
    rcases idle with none' | zero
    · rw [pending] at none'
      contradiction
    · omega
  · rcases outcome with ⟨looping, called⟩ | ⟨returned, called⟩ | ⟨returned, called⟩ |
      ⟨ret, returned, _, _, called⟩
    · refine ⟨?_, fun _ => by rw [called]; rfl⟩
      rintro ⟨b', pending', _, returned⟩
      obtain rfl := Option.some.inj (pending.symm.trans pending')
      rw [looping] at returned
      contradiction
    · exact ⟨fun _ => by rw [called]; exact ⟨rfl, _, rfl⟩,
        fun spares => absurd ⟨b, pending, positive, by rw [returned]; rfl⟩ spares⟩
    · exact ⟨fun _ => by rw [called]; exact ⟨rfl, _, rfl⟩,
        fun spares => absurd ⟨b, pending, positive, by rw [returned]; rfl⟩ spares⟩
    · exact ⟨fun _ => by rw [called]; exact ⟨rfl, _, rfl⟩,
        fun spares => absurd ⟨b, pending, positive, by rw [returned]; rfl⟩ spares⟩

/-! ## The batch under a step -/

/-- A test leaves no more entries to be read. -/
theorem loads_dispatch {fr : Frame} {event : Nat → EpollEvent} {j : Nat}
    (loads : (fr.dispatch event).Loads j) : (Pc.test fr).Loads j := by
  have entered : ∀ flags, ({ fr with events := flags }.enter (event fr.i).ptr).Loads j →
      fr.Ahead j := by
    intro flags loads
    unfold Frame.enter at loads
    split at loads <;> exact loads
  have resumed : ∀ flags, ({ fr with events := flags } : Frame).resume.Loads j → fr.Ahead j :=
    fun _ => Regs.loads_resume
  refine Regs.loads_of_ahead ?_
  unfold Frame.dispatch at loads
  split at loads
  · split at loads
    · exact entered _ loads
    · exact resumed fr.events loads
  · dsimp only at loads
    split at loads
    · exact entered _ loads
    · exact resumed _ loads

/-- An entry still to be read keeps its value when the first entry is written only if it will not be
read again. -/
theorem kept_of_spared {registers : Prop} {event : Nat → EpollEvent} {j : Nat}
    (spares : s.reactor.entryZeroLive = true → ¬registers)
    (writes : registers → ∃ ev, event = Function.update s.srv.event 0 ev)
    (leaves : ¬registers → event = s.srv.event) (loads : s.reactor.Loads j) :
    event j = s.srv.event j := by
  by_cases registered : registers
  · obtain ⟨ev, rfl⟩ := writes registered
    refine Function.update_of_ne (fun first => ?_) _ _
    subst first
    refine not_loads_zero ?_ loads
    exact Bool.eq_false_iff.mpr fun live => spares live registered
  · rw [leaves registered]

/-- After `Server_Accept` the reactor is in the same callback or back in the loop. -/
theorem afterAccept_spec (s : State) (fr : Frame) (out : Option (Option ConnPtr) × Server) :
    (afterAccept s fr out).srv = out.2 ∧
      ∀ j, (afterAccept s fr out).reactor.Loads j → fr.Ahead j := by
  obtain ⟨result, srv⟩ := out
  rcases result with _ | _ | c
  · exact ⟨rfl, fun _ loads => loads.elim⟩
  · exact ⟨rfl, fun _ => Regs.loads_resume⟩
  · exact ⟨rfl, fun _ => id⟩

/-- After `event_write` it is back in the loop, or never will be. -/
theorem afterWrite_spec (s : State) (fr : Frame) (out : Bool × Server) :
    (afterWrite s fr out).srv = out.2 ∧
      ∀ j, (afterWrite s fr out).reactor.Loads j → fr.Ahead j := by
  obtain ⟨returned, srv⟩ := out
  cases returned with
  | false => exact ⟨rfl, fun _ loads => loads.elim⟩
  | true => exact ⟨rfl, fun _ => Regs.loads_resume⟩

/-- The end of a connection leaves the array as it is. -/
theorem hangUp_event (srv : Server) (c : ConnPtr) : (srv.hangUp c).event = srv.event := by
  unfold Server.hangUp Server.setConn Server.closeConnObj
  split <;> rfl

/-- A step that spares the first entry leaves every entry still to be read as it was. -/
theorem batch_step (within : WithinBatch l) (spares : SparesFirst s l)
    (stepped : step s l = some s') {j : Nat} (loads : s'.reactor.Loads j) :
    s.reactor.Loads j ∧ s'.srv.event j = s.srv.event j := by
  cases l with
  | wait batch => exact within.elim
  | send c data len granted => exact within.elim
  | accept input =>
    simp only [step] at stepped
    split at stepped
    next fr at_accept =>
      obtain rfl := Option.some.inj stepped
      obtain ⟨srv, ahead⟩ := afterAccept_spec s fr (s.srv.serverAccept input)
      have loaded : s.reactor.Loads j := at_accept ▸ ahead j loads
      obtain ⟨writes, leaves⟩ := serverAccept_event s.srv input
      rw [srv]
      refine ⟨loaded, kept_of_spared spares (fun accepts => ?_) leaves loaded⟩
      obtain ⟨_, c, written⟩ := writes accepts
      exact ⟨_, written⟩
    · contradiction
  | write script =>
    simp only [step] at stepped
    split at stepped
    next fr c at_write =>
      split at stepped
      next flags =>
        obtain rfl := Option.some.inj stepped
        obtain ⟨srv, ahead⟩ := afterWrite_spec s fr (s.srv.eventWrite c script)
        have loaded : s.reactor.Loads j := at_write ▸ ahead j loads
        obtain ⟨writes, leaves⟩ := eventWrite_event s.srv c script
        rw [srv]
        refine ⟨loaded, kept_of_spared (fun live sends => ?_) (fun sends => ?_) leaves loaded⟩
        · refine spares live ?_
          rw [Registers, at_write]
          exact ⟨flags, sends⟩
        · obtain ⟨_, flags, written⟩ := writes sends
          exact ⟨_, written⟩
      next =>
        obtain rfl := Option.some.inj stepped
        exact ⟨at_write ▸ Regs.loads_resume loads, rfl⟩
    · contradiction
  | test =>
    cases step_cases stepped with
    | tested at_test => exact ⟨at_test ▸ loads_dispatch loads, rfl⟩
  | sockopt answer =>
    cases step_cases stepped with
    | sockoptFailed at_sockopt _ => exact ⟨at_sockopt ▸ Regs.loads_resume loads, rfl⟩
    | sockoptConnected at_sockopt _ => exact ⟨at_sockopt ▸ loads, rfl⟩
    | sockoptSevered at_sockopt _ _ => exact ⟨at_sockopt ▸ loads, rfl⟩
  | read input =>
    cases step_cases stepped with
    | readSkipped at_read _ => exact ⟨at_read ▸ loads, rfl⟩
    | readLooping at_read _ _ => exact loads.elim
    | readEnded at_read _ _ =>
      exact ⟨at_read ▸ loads, congrFun (hangUp_event (s.srv.received _ input) _) j⟩
    | readFinished at_read _ _ _ _ => exact ⟨at_read ▸ loads, rfl⟩
    | readItem at_read _ _ _ _ _ _ _ => exact ⟨at_read ▸ loads, rfl⟩
  | push =>
    cases step_cases stepped with
    | pushed at_push => exact ⟨at_push ▸ loads, rfl⟩
  | post =>
    cases step_cases stepped with
    | posted at_post => exact ⟨at_post ▸ loads, rfl⟩
  | arrive a =>
    cases step_cases stepped with
    | arrived => exact ⟨loads, rfl⟩
  | worker w =>
    cases step_cases stepped with
    | worker stepped =>
      obtain ⟨reactor, rqueue, sem, heap, srv⟩ := stepped.frame
      exact ⟨reactor ▸ loads, by rw [srv]⟩
  | interrupt w =>
    cases step_cases stepped with
    | interrupted _ => exact ⟨loads, rfl⟩

/-- Every mask the library registers asks for edge triggering, which `epoll_wait` never reports. -/
theorem modifyMask_et (flags : BitVec 32) :
    hasAny (Server.modifyMask flags) epollEt = true := by
  unfold Server.modifyMask
  split <;> split <;> rfl

/-- A step that registers while the first entry is still to be read leaves a mask there that
`epoll_wait` did not store, and the entry is still to be read. -/
theorem registration_disturbs (loads : s.reactor.Loads 0) (registers : Registers s l)
    (stepped : step s l = some s') :
    s'.reactor.Loads 0 ∧ hasAny (s'.srv.event 0).events epollEt = true := by
  have returns : ∀ fr : Frame, fr.Ahead 0 → fr.resume.Loads 0 := by
    rintro fr ⟨before | ⟨first, out⟩, some⟩
    · exact absurd before (Nat.not_lt_zero _)
    · rw [Frame.resume, out]
      exact ⟨le_of_eq first, some⟩
  cases l with
  | accept input =>
    simp only [step] at stepped
    split at stepped
    next fr at_accept =>
      obtain rfl := Option.some.inj stepped
      obtain ⟨returned, c, written⟩ := (serverAccept_event s.srv input).1 registers
      have ahead : fr.Ahead 0 := by rwa [at_accept] at loads
      have mask : hasAny Server.acceptMask epollEt = true := by decide
      generalize s.srv.serverAccept input = out at returned written
      obtain ⟨_ | _ | c', srv⟩ := out
      · contradiction
      · refine ⟨returns fr ahead, ?_⟩
        rw [afterAccept, written, Function.update_self]
        exact mask
      · refine ⟨ahead, ?_⟩
        rw [afterAccept, written, Function.update_self]
        exact mask
    · contradiction
  | write script =>
    simp only [step] at stepped
    split at stepped
    next fr c at_write =>
      rw [Registers, at_write] at registers
      obtain ⟨flags, sends⟩ := registers
      rw [if_pos flags] at stepped
      obtain rfl := Option.some.inj stepped
      obtain ⟨returned, flags, written⟩ := (eventWrite_event s.srv c script).1 sends
      have ahead : fr.Ahead 0 := by rwa [at_write] at loads
      generalize s.srv.eventWrite c script = out at returned written
      obtain ⟨_ | _, srv⟩ := out
      · contradiction
      · refine ⟨returns fr ahead, ?_⟩
        rw [afterWrite, written, Function.update_self]
        exact modifyMask_et flags
    · contradiction
  | _ => exact registers.elim

/-! ## The batch over a whole round -/

/-- From any state in which `epoll_wait` returns a batch, whatever the callbacks do, as long as none
registers an interest while the first entry is still to be read: each test of an entry finds that
entry and all later ones as `epoll_wait` stored them. -/
theorem batch_undisturbed {begun : State} {batch : List (Fd × BitVec 32)}
    (stored : step s (.wait batch) = some begun)
    (reached : Reach EpollNet.step (fun s l => WithinBatch l ∧ SparesFirst s l) (· = begun) s')
    {fr : Frame} (at_test : s'.reactor = .test fr) {j : Nat} (ahead : fr.i ≤ j)
    (inside : j < fr.n) :
    s'.srv.event j = (s.srv.epollWait batch).event j := by
  have kept : ∀ j, s'.reactor.Loads j → s'.srv.event j = begun.srv.event j := by
    apply reached.invariant
    · rintro s rfl j _
      rfl
    · intro s l s' kept allowed stepped j loads
      obtain ⟨loaded, same⟩ := batch_step allowed.1 allowed.2 stepped loads
      exact same.trans (kept j loaded)
  have srv : begun.srv = s.srv.epollWait batch := by
    cases step_cases stored with
    | waited _ _ => rfl
  rw [← srv]
  exact kept j (at_test ▸ ⟨ahead, inside⟩)

namespace Sample

/-- Two clients are connected. -/
def twoClients : State :=
  (runAllowed EpollNet.step Disciplined start (connecting 4 ++ connecting 5)).get
    (by decide +kernel)

/-- One is readable, and the other with it. -/
def bothReadable : State :=
  (step twoClients (.wait [(4, epollIn), (5, epollIn)])).get (by decide +kernel)

/-- A client has three bytes to send. -/
def pendingClient : State :=
  (runAllowed EpollNet.step (fun _ _ => True) start
    (connecting 4 ++ [.send 1 (some fun _ => 65) 3 true])).get (by decide +kernel)

/-- It is writable. -/
def writableBegun : State := (step pendingClient (.wait [(4, epollOut)])).get (by decide +kernel)

end Sample

/-- Two clients are readable, and the first is read before the second is tested. -/
theorem batch_undisturbed_two : ∃ (s' : State) (fr : Frame), s'.reactor = .test fr ∧ fr.i = 1 ∧
    s'.srv.event 1 = (Sample.twoClients.srv.epollWait [(4, epollIn), (5, epollIn)]).event 1 := by
  have completed : (runAllowed EpollNet.step (fun s l => WithinBatch l ∧ SparesFirst s l)
      Sample.bothReadable [.test, .test, .sockopt (some 0),
        .read (Sample.reading [⟨[⟨4, [65], false⟩], .ok 1⟩]), .push, .post, .write []]).map
        (fun s => decide (s.reactor = .test ⟨1, 2, eventReadBits, .out⟩)) = some true := by
    decide +kernel
  have ran : ∃ s', Reach EpollNet.step (fun s l => WithinBatch l ∧ SparesFirst s l)
      (· = Sample.bothReadable) s' ∧
        decide (s'.reactor = .test ⟨1, 2, eventReadBits, .out⟩) = true :=
    Reach.exists_of_run rfl completed
  obtain ⟨s', reached, passed⟩ := ran
  have at_test := of_decide_eq_true passed
  exact ⟨s', _, at_test, rfl, batch_undisturbed (Option.some_get _).symm reached at_test
    (le_refl 1) (by decide)⟩

/-- The reported mask was `EPOLLOUT`. A partial write frees the buffer and registers for input, and
the second test of the same entry finds an input nobody reported. -/
theorem batch_disturbed : ¬∀ (s begun s' : State) (batch : List (Fd × BitVec 32)) (fr : Frame)
    (j : Nat), Reach EpollNet.step (fun _ _ => True) Started s →
      step s (.wait batch) = some begun →
      Reach EpollNet.step (fun _ l => WithinBatch l) (· = begun) s' → s'.reactor = .test fr →
      fr.i ≤ j → j < fr.n → s'.srv.event j = (s.srv.epollWait batch).event j := by
  intro undisturbed
  have completed : (runAllowed EpollNet.step (fun _ l => WithinBatch l) Sample.writableBegun
      [.test, .sockopt (some 0), .read (Sample.reading []), .write [.ok 1]]).map
        (fun s => decide (s.reactor = .test ⟨0, 1, eventWriteBits, .inp⟩ ∧
          hasAny (s.srv.event 0).events epollIn = true)) = some true := by
    decide +kernel
  have ran : ∃ s', Reach EpollNet.step (fun _ l => WithinBatch l) (· = Sample.writableBegun) s' ∧
      decide (s'.reactor = .test ⟨0, 1, eventWriteBits, .inp⟩ ∧
        hasAny (s'.srv.event 0).events epollIn = true) = true := Reach.exists_of_run rfl completed
  obtain ⟨s', reached, passed⟩ := ran
  obtain ⟨at_test, input⟩ := of_decide_eq_true passed
  have connected : Reach EpollNet.step (fun _ _ => True) Started Sample.pendingClient :=
    (Reach.refl Sample.started).of_runAllowed (Option.some_get _).symm
  have same := undisturbed Sample.pendingClient Sample.writableBegun s' [(4, epollOut)] _ 0
    connected (Option.some_get _).symm reached at_test (Nat.zero_le _) Nat.zero_lt_one
  rw [same] at input
  exact absurd input (by decide +kernel)

end EpollNet
