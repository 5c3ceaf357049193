import EpollNet.Verif.Exclusive

/-!
# The reactor's turn with the entries taken apart

Each part of the loop of `epollEvent_wait`, of the callback and of `Server_Accept` keeps
`Regs.Regular`, the roster changing as in the server whose handlers are single steps.
-/

namespace EpollNet

open EpollNet.Basis

namespace Regs

variable {s s' : Regs} {r : Roster Fd} {c : ConnPtr} {sock : Fd}

/-! ## The loop -/

/-- Returning from a callback leaves the entries ahead. -/
theorem loads_resume {fr : Frame} {j : Nat} (loaded : fr.resume.Loads j) : fr.Ahead j := by
  unfold Frame.resume at loaded
  cases which : fr.test with
  | out =>
    simp only [which] at loaded
    obtain ⟨low, high⟩ := loaded
    refine ⟨?_, high⟩
    rcases Nat.lt_or_eq_of_le low with later | here
    · exact .inl later
    · exact .inr ⟨here, which⟩
  | inp =>
    simp only [which] at loaded
    split at loaded
    · exact ⟨.inl loaded.1, loaded.2⟩
    · contradiction

/-- Entries ahead of a callback are ahead of its test. -/
theorem loads_of_ahead {fr : Frame} {j : Nat} (ahead : fr.Ahead j) : (Pc.test fr).Loads j := by
  obtain ⟨later | ⟨here, _⟩, high⟩ := ahead
  · exact ⟨Nat.le_of_lt later, high⟩
  · exact ⟨Nat.le_of_eq here, high⟩

/-- A callback goes back to where the loop resumes. -/
theorem back_pc (fr : Frame) : fr.back.pc = fr.resume := by
  unfold Frame.back Frame.resume
  cases fr.test with
  | out => rfl
  | inp =>
    dsimp only
    split <;> rfl

/-- A callback that goes back has no call under way. -/
theorem back_call (fr : Frame) : fr.back.call = none := by
  unfold Frame.back
  cases fr.test with
  | out => rfl
  | inp =>
    dsimp only
    split <;> rfl

/-- A callback that goes back has no registration pending. -/
theorem back_pending (fr : Frame) : fr.back.pending = none := by
  unfold Frame.back
  cases fr.test with
  | out => rfl
  | inp =>
    dsimp only
    split <;> rfl

/-- When the reactor is in no registration call, the calls are the senders'. -/
theorem call_kept (senders : s'.senders = s.senders) (reactor : s'.reactor.call = none)
    {thread : Option Nat} {call : RegCall} (member : call ∈ s'.call thread) :
    call ∈ s.call thread := by
  cases thread with
  | none =>
    rw [Regs.call, reactor] at member
    contradiction
  | some t =>
    rw [Regs.call, senders] at member
    exact member

/-- A callback returns from a place where its entries ahead are still to be loaded, without having
changed the roster. -/
theorem Regular.back {fr : Frame} {kernel : Kernel} (regular : s.Regular r)
    (settled : s.reactor.pending = none) (table : s.srv.kernel.SameTable kernel)
    (reg : kernel.reg = s.srv.kernel.reg) (scheduled : Scheduled r s.reported fr.resume)
    (loads : ∀ j, fr.Ahead j → s.reactor.pc.Loads j) :
    Regular { s with srv := { s.srv with kernel }, reactor := fr.back } r := by
  refine regular.congr (Server.roster_kernel table) ?_ rfl (fun _ => id) rfl rfl ?_ ?_ ?_ ?_
  · rw [settled]
    exact back_pending fr
  · dsimp only
    rw [back_pc]
    exact scheduled
  · dsimp only
    rw [back_pc]
    exact fun j loaded => loads j (loads_resume loaded)
  · exact fun thread call member => .inl (call_kept (by rfl) (back_call fr) member)
  · exact regular.intact.congr reg rfl rfl rfl

/-- `epoll_wait` fills the array with the holders of the descriptors it reports. -/
theorem Regular.wait {batch : List (Fd × BitVec 32)} (regular : s.Regular r)
    (at_blocked : s.reactor = .blocked) (reports : s.srv.kernel.Reports batch)
    (alone : batch = [] ∨ s.Alone none) : (s.wait batch).Regular r := by
  have settled : s.reactor.pending = none := by rw [at_blocked]; rfl
  have roster := regular.behind.roster settled
  have named : ∀ j, j < batch.length →
      ((s.srv.epollWait batch).event j).ptr = (s.wait batch).reported j := by
    intro j inside
    obtain ⟨ev, found⟩ := Option.isSome_iff_exists.mp (reports.2 _ (List.getElem_mem inside))
    have held := regular.intact.owner _ ev found
    simpa [Regs.wait, Server.epollWait, List.getElem?_eq_getElem inside, found] using held
  have upcoming : Upcoming r (s.wait batch).reported 0 batch.length := by
    obtain ⟨live, distinct⟩ := upcoming_epollWait (roster ▸ regular.kept) reports
    constructor
    · intro j low inside
      rw [← named j inside, ← roster]
      exact live j low inside
    · intro j k low order inside
      rw [← named j (Nat.lt_trans order inside), ← named k inside]
      exact distinct j k low order inside
  have quiet : (s.wait batch).reactor.call = none ∧ (s.wait batch).reactor.pending = none := by
    unfold Regs.wait
    dsimp only
    split
    · exact ⟨rfl, rfl⟩
    · exact ⟨rfl, rfl⟩
  have place : (s.wait batch).reactor.pc = Pc.begin batch.length := by
    unfold Regs.wait Pc.begin
    dsimp only
    split
    · rfl
    · rfl
  constructor
  · exact regular.kept
  · exact regular.behind.congr (by rfl) (quiet.2.trans settled.symm) (by rfl)
  · exact regular.connected
  · rw [place]
    unfold Pc.begin
    split
    · exact ⟨‹_›, upcoming⟩
    · trivial
  · intro j loaded
    rw [place] at loaded
    unfold Pc.begin at loaded
    split at loaded
    · exact named j loaded.2
    · contradiction
  · exact regular.flying
  · intro thread call member
    have old : call ∈ s.call thread := call_kept (by rfl) quiet.1 member
    rcases alone with rfl | alone
    · exact regular.ready thread call old
    · have distinct : thread ≠ none := by
        rintro rfl
        rw [Regs.call, at_blocked] at old
        contradiction
      exact (regular.ready thread call old).elsewhere (alone.idle distinct old)
  · exact ⟨regular.intact.owner, regular.intact.mask, regular.intact.dispatched⟩

/-- Moving between the tests of an entry. -/
theorem Regular.moved {place : Place} (regular : s.Regular r) (settled : s.reactor.pending = none)
    (still : place.pending = none) (quiet : place.call = none)
    (scheduled : Scheduled r s.reported place.pc)
    (loads : ∀ j, place.pc.Loads j → s.reactor.pc.Loads j) :
    Regular { s with reactor := place } r :=
  regular.congr rfl (still.trans settled.symm) rfl (fun _ => id) rfl rfl scheduled loads
    (fun _ _ member => .inl (call_kept (by rfl) quiet member))
    ⟨regular.intact.owner, regular.intact.mask, regular.intact.dispatched⟩

/-- The loop loads an entry. -/
theorem Regular.load (regular : s.Regular r) (stepped : s.load = some s') : s'.Regular r := by
  have scheduled := regular.scheduled
  have kept := regular.kept
  unfold Regs.load at stepped
  cases place : s.reactor with
  | test fr =>
    have settled : s.reactor.pending = none := by rw [place]; rfl
    rw [place] at scheduled
    have again : ∀ events, Regular { s with reactor := .load { fr with events } } r :=
      fun events => regular.moved settled rfl rfl scheduled fun j loaded => by
        rw [place]
        exact loaded
    have skip : Regular { s with reactor := fr.back } r :=
      regular.back settled (.refl _) rfl (scheduled_skip kept scheduled fr.events)
        fun j ahead => by
          rw [place]
          exact loads_of_ahead ahead
    simp only [place] at stepped
    split at stepped
    · split at stepped
      · obtain rfl := Option.some.inj stepped
        exact again _
      · obtain rfl := Option.some.inj stepped
        exact skip
    · split at stepped
      · obtain rfl := Option.some.inj stepped
        exact again _
      · obtain rfl := Option.some.inj stepped
        exact skip
  | err fr =>
    have settled : s.reactor.pending = none := by rw [place]; rfl
    rw [place] at scheduled
    have on : ∀ events, Regular { s with reactor := .test { fr with events } } r :=
      fun events => regular.moved settled rfl rfl scheduled fun j loaded => by
        rw [place]
        exact loaded
    simp only [place] at stepped
    split at stepped
    · obtain rfl := Option.some.inj stepped
      exact on _
    · obtain rfl := Option.some.inj stepped
      exact on fr.events
  | load fr =>
    have settled : s.reactor.pending = none := by rw [place]; rfl
    have same : (s.srv.event fr.i).ptr = s.reported fr.i := by
      apply regular.loads
      rw [place] at scheduled ⊢
      exact ⟨Nat.le_refl _, scheduled.1⟩
    rw [place] at scheduled
    have entered := scheduled_enter kept scheduled fr.events
    simp only [place, same] at stepped
    obtain rfl := Option.some.inj stepped
    have intact : ∀ reactor, Intact { s with
        dispatches := (s.reported fr.i, s.reported fr.i) :: s.dispatches, reactor } := by
      refine fun reactor => ⟨regular.intact.owner, regular.intact.mask, fun entry member => ?_⟩
      rcases List.mem_cons.mp member with rfl | old
      · rfl
      · exact regular.intact.dispatched entry old
    have loads : ∀ j, fr.Ahead j → s.reactor.pc.Loads j := fun j ahead => by
      rw [place]
      exact loads_of_ahead ahead
    unfold Frame.enter at entered
    split at entered
    · rename_i listener
      rw [if_pos listener]
      exact regular.congr rfl settled.symm rfl (fun _ => id) rfl rfl entered loads
        (fun _ _ member => .inl (call_kept (by rfl) (by rfl) member)) (intact _)
    · rename_i client
      rw [if_neg client]
      exact regular.congr rfl settled.symm rfl (fun _ => id) rfl rfl entered loads
        (fun _ _ member => .inl (call_kept (by rfl) (by rfl) member)) (intact _)
  | blocked | accept _ | adding _ _ _ | sockopt _ _ | read _ _ | write _ _ | modifying _ _
  | inHandler | stopped =>
    simp only [place] at stepped
    contradiction

/-! ## Callbacks -/

/-- `Server_Accept` gives the next object its descriptor. -/
theorem Regular.taken {fr : Frame} {inc : Kernel.Incoming} {rest : List ConnPtr} {nconn : ConnPtr}
    (regular : s.Regular r) (at_accept : s.reactor = .accept fr) (free : s.srv.kernel.Free inc.fd)
    (nonzero : inc.fd ≠ 0) (next : s.srv.roster.Next c rest nconn) :
    Regular { s with
      srv := s.srv.acceptedConn inc c rest nconn
      reactor := .adding fr (.add c Server.acceptMask) inc.fd
      holder := Function.update s.holder inc.fd c } r := by
  have scheduled := regular.scheduled
  have loads := regular.loads
  rw [at_accept] at scheduled loads
  obtain rfl := regular.behind.roster (by rw [at_accept]; rfl)
  obtain ⟨offered, closed, unregistered⟩ := accepted_number regular.kept free nonzero
  constructor
  · exact regular.kept
  · exact ⟨next, closed, offered, s.srv.roster_acceptedConn inc c rest nconn,
      Function.update_self ..⟩
  · intro p known connected
    by_cases same : p = c
    · simp [Server.acceptedConn, same] at connected
    · simp only [Server.acceptedConn, Function.update_of_ne same] at connected
      exact regular.connected p (next.lt_of_ne known same) connected
  · exact scheduled
  · exact loads
  · exact regular.flying
  · intro thread call member
    cases thread with
    | none =>
      obtain rfl := Option.some.inj member
      exact RegCall.add_ready ..
    | some t => exact regular.ready (some t) call member
  · constructor
    · intro fd ev registered
      have distinct : fd ≠ inc.fd := by
        rintro rfl
        have old : s.srv.kernel.reg inc.fd = some ev := registered
        rw [unregistered] at old
        exact absurd old.symm (Option.some_ne_none ev)
      dsimp only
      rw [Function.update_of_ne distinct]
      exact regular.intact.owner fd ev registered
    · exact regular.intact.mask
    · exact regular.intact.dispatched

/-- `Server_Accept` up to its registration. -/
theorem Regular.accept {fr : Frame} {input : Server.AcceptInput} (regular : s.Regular r)
    (at_accept : s.reactor = .accept fr) (nonzero : ∀ answer ∈ input.script, Nonzero answer) :
    (s.afterAccept fr (s.srv.acceptConn input)).Regular r := by
  have scheduled := regular.scheduled
  rw [at_accept] at scheduled
  have settled : s.reactor.pending = none := by rw [at_accept]; rfl
  have loads : ∀ j, fr.Ahead j → s.reactor.pc.Loads j := fun j ahead => by
    rw [at_accept]
    exact ahead
  have back := regular.back settled (.refl _) rfl (Listening.resume scheduled) loads
  rcases s.srv.acceptConn_cases input with
    ⟨result, rfl | rfl, accepted⟩ | ⟨inc, offered, free, _, ⟨_, accepted⟩ |
      ⟨c, rest, nconn, next, accepted⟩⟩
  · rw [accepted]
    exact regular.moved settled rfl rfl trivial nofun
  · rw [accepted]
    exact back
  · rw [accepted]
    have positive := nonzero (.ok inc) offered
    obtain rfl := regular.behind.roster settled
    obtain ⟨_, _, unregistered⟩ := accepted_number regular.kept free positive
    have dropped : s.srv.dropped inc =
        { s.srv with kernel := (Server.acceptedKernel s.srv.kernel inc).close inc.fd } := by
      rw [Server.dropped, Server.acceptErr_of_ne positive]
    rw [dropped]
    apply regular.back settled (Server.sameTable_accepted_close free.2.2 unregistered) _
      (Listening.resume scheduled) loads
    funext fd
    by_cases same : fd = inc.fd
    · simp [Kernel.close, same, unregistered]
    · simp [Kernel.close, Function.update_of_ne same, Server.acceptedKernel]
  · rw [accepted]
    exact regular.taken at_accept free (nonzero (.ok inc) offered) next

/-- The callback found no pending error. -/
theorem Regular.sockoptConnected {fr : Frame} (regular : s.Regular r)
    (at_sockopt : s.reactor = .sockopt fr c)
    (isOpen : (s.srv.kernel.sock (s.srv.conns c).fd).isSome = true) :
    Regular { s with
      srv := { s.srv with
        kernel := s.srv.kernel.log (.getsockopt (s.srv.conns c).fd)
        conns := Function.update s.srv.conns c { s.srv.conns c with activity := .connected } }
      reactor := .read fr c } r := by
  have scheduled := regular.scheduled
  have loads := regular.loads
  rw [at_sockopt] at scheduled loads
  obtain rfl := regular.behind.roster (by rw [at_sockopt]; rfl)
  have live : s.srv.roster.Live c := scheduled.settled.live isOpen
  constructor
  · exact regular.kept
  · exact Server.roster_congr (Server.sameTable_log s.srv.kernel (.getsockopt (s.srv.conns c).fd))
      (Server.fd_update (by rfl)) rfl rfl
  · intro p known connected
    by_cases same : p = c
    · exact same ▸ live
    · simp only [Function.update_of_ne same] at connected
      exact regular.connected p known connected
  · exact scheduled
  · exact loads
  · exact regular.flying
  · exact fun thread call member => regular.ready thread call (call_kept (by rfl) (by rfl) member)
  · exact regular.intact.congr rfl rfl rfl rfl

/-- A live object's descriptor was closed, by the object's end or under it: the object itself is
settled, and the other live ones stay. -/
theorem Regular.closed {fr : Frame} {srv : Server} {place : Place} {r' : Roster Fd}
    (regular : s.Regular r) (settled : s.reactor.pending = none)
    (serving : Serving r s.reported fr c) (kept : Kept r') (roster : srv.roster = r')
    (size : r'.size = r.size) (own : r'.Settled c) (others : ∀ p, p ≠ c → r.Live p → r'.Live p)
    (handles : ∀ p, p ≠ c → r'.handle p = r.handle p)
    (flown : s.Unsent c ∨ r'.handle c = -1) (idle : (srv.conns c).activity = .connclosed)
    (conns : ∀ p, p ≠ c → srv.conns p = s.srv.conns p) (event : srv.event = s.srv.event)
    (closing : ∀ fd ev, srv.kernel.reg fd = some ev → s.srv.kernel.reg fd = some ev)
    (still : place.pending = none) (quiet : place.call = none)
    (scheduled : Serving r' s.reported fr c → Scheduled r' s.reported place.pc)
    (loads : ∀ j, place.pc.Loads j → s.reactor.pc.Loads j) :
    Regular { s with srv, reactor := place } r' := by
  have before := regular.behind.roster settled
  have calls : ∀ thread, ∀ call ∈ Regs.call { s with srv, reactor := place } thread,
      call ∈ s.call thread := fun _ _ member => call_kept (by rfl) quiet member
  constructor
  · exact kept
  · rw [Behind, still]
    exact roster
  · intro p known connected
    by_cases same : p = c
    · rw [same, idle] at connected
      contradiction
    · have nconn : srv.nconn = s.srv.nconn :=
        (congrArg Roster.size roster).trans (size.trans (congrArg Roster.size before).symm)
      rw [conns p same] at connected
      exact others p same (regular.connected p (nconn ▸ known) connected)
  · exact scheduled (serving.roster (le_of_eq size.symm) own others)
  · intro j loaded
    dsimp only
    rw [event]
    exact regular.loads j (loads j loaded)
  · intro t call member
    have flying := regular.flying t call (calls _ call member)
    by_cases same : call.conn = c
    · rcases flown with unsent | parked
      · exact absurd same (unsent.ne (calls _ call member))
      · exact .inr (same ▸ parked)
    · rw [handles _ same]
      exact flying.imp_left (others _ same)
  · intro thread call member
    dsimp only
    rw [event]
    exact regular.ready thread call (calls thread call member)
  · exact regular.intact.closed closing rfl rfl rfl rfl

/-- The `SO_ERROR` part of the callback. -/
theorem Regular.sockopt {fr : Frame} {answer : Option Int} (regular : s.Regular r)
    (at_sockopt : s.reactor = .sockopt fr c)
    (unsent : answer = none ∨ answer = some 0 ∨ s.Unsent c)
    (stepped : Regs.step s (.sockopt answer) = some s') : ∃ r', s'.Regular r' := by
  have scheduled := regular.scheduled
  rw [at_sockopt] at scheduled
  have settled : s.reactor.pending = none := by rw [at_sockopt]; rfl
  have loads : ∀ j, fr.Ahead j → s.reactor.pc.Loads j := fun j ahead => by
    rw [at_sockopt]
    exact ahead
  simp only [Regs.step, at_sockopt] at stepped
  rcases s.srv.callbackSockopt_cases c answer with
    ⟨called, _⟩ | ⟨isOpen, _, called⟩ | ⟨isOpen, ⟨val, given, nonzero⟩, called⟩
  · rw [called] at stepped
    obtain rfl := Option.some.inj stepped
    exact ⟨r, regular.back settled (Server.sameTable_log ..) rfl scheduled.resume loads⟩
  · rw [called] at stepped
    obtain rfl := Option.some.inj stepped
    exact ⟨r, regular.sockoptConnected at_sockopt isOpen⟩
  · rw [called] at stepped
    obtain rfl := Option.some.inj stepped
    have before := regular.behind.roster settled
    have live : r.Live c := scheduled.settled.live (before ▸ isOpen)
    refine ⟨r.sever c, regular.closed settled scheduled regular.kept.sever
      (before ▸ s.srv.roster_severed c) rfl Roster.settled_sever
      (fun p distinct other => other.sever live distinct) (fun _ _ => rfl) (.inl ?_) ?_ ?_ rfl ?_
      rfl rfl id fun j loaded => loads j loaded⟩
    · rcases unsent with none | zero | unsent
      · rw [given] at none
        contradiction
      · rw [given] at zero
        exact absurd (Option.some.inj zero) nonzero
      · exact unsent
    · simp [Server.severed]
    · exact fun p distinct => Function.update_of_ne distinct _ _
    · intro fd ev registered
      by_cases same : fd = (s.srv.conns c).fd
      · simp [Server.severed, Kernel.close, same] at registered
      · simp only [Server.severed, Kernel.close, Function.update_of_ne same] at registered
        exact registered

/-- The receiving loop changes no interest. -/
theorem received_reg (srv : Server) (c : ConnPtr) (input : Server.ReadInput) :
    (srv.received c input).kernel.reg = srv.kernel.reg :=
  readLoop_kernel (P := fun k => k.reg = srv.kernel.reg)
    (fun k a same => (k.arrive_reg a).trans same)
    (fun k answer same => (k.read_reg _ _ answer).trans same) input.script 0
    (Server.recvbuffer input.beyond) srv.kernel rfl

/-- Nor does the sending loop. -/
theorem sending_reg (srv : Server) (c : ConnPtr) (b : Buf) (script : List (Except Errno Nat)) :
    (srv.sending c b script).kernel.reg = srv.kernel.reg :=
  sendLoop_kernel (P := fun k => k.reg = srv.kernel.reg)
    (fun k bytes answer same => (k.write_reg _ _ bytes answer).trans same) script srv.kernel rfl

/-- A handler of the reactor that changes neither the roster nor the entries goes on to a place
that is in no registration call. -/
theorem Regular.handled {srv : Server} {place : Place} (regular : s.Regular r)
    (settled : s.reactor.pending = none) (roster : srv.roster = s.srv.roster)
    (activity : ∀ c, (srv.conns c).activity = (s.srv.conns c).activity)
    (event : srv.event = s.srv.event) (reg : srv.kernel.reg = s.srv.kernel.reg)
    (still : place.pending = none)
    (calls : ∀ call ∈ place.call, call.Ready (s.srv.event 0))
    (scheduled : Scheduled r s.reported place.pc)
    (loads : ∀ j, place.pc.Loads j → s.reactor.pc.Loads j) :
    Regular { s with srv, reactor := place } r := by
  refine regular.congr roster (still.trans settled.symm) rfl (fun c connected => ?_) rfl event
    scheduled loads (fun thread call member => ?_) (regular.intact.congr reg rfl rfl rfl)
  · rw [← activity c]
    exact connected
  · cases thread with
    | none => exact .inr ⟨calls call member, .inl rfl⟩
    | some t => exact .inl member

/-- `event_read` met the end of the stream. -/
theorem Regular.hangUp {fr : Frame} {input : Server.ReadInput} (regular : s.Regular r)
    (at_read : s.reactor = .read fr c) (returned : s.srv.recvlen c input = some 0) :
    Regular { s with srv := (s.srv.received c input).hangUp c, reactor := .write fr c }
      (r.retire c (-1)) := by
  have scheduled := regular.scheduled
  rw [at_read] at scheduled
  have settled : s.reactor.pending = none := by rw [at_read]; rfl
  have before := regular.behind.roster settled
  have live : r.Live c :=
    scheduled.settled.live (before ▸ Server.isOpen_of_recvlen returned)
  have positive : 0 < ((s.srv.received c input).conns c).fd := by
    have handle : (s.srv.conns c).fd = r.handle c := congrFun (congrArg Roster.handle before) c
    rw [Server.received_conns, handle]
    exact (mem_clientFds.mp (regular.kept.live_fd live scheduled.client)).1
  have roster : ((s.srv.received c input).hangUp c).roster = r.retire c (-1) := by
    rw [Server.roster_hangUp positive, Server.roster_received, before]
  refine regular.closed settled scheduled (regular.kept.retire live scheduled.client) roster rfl
    (Roster.settled_retire regular.kept.closed_neg_one)
    (fun p distinct other => other.retire live distinct) (fun p distinct => ?_) (.inr ?_)
    ?_ ?_ ?_ ?_ rfl rfl id fun j loaded => by rwa [at_read]
  · exact Function.update_of_ne distinct _ _
  · exact Function.update_self ..
  · rw [Server.hangUp_eq positive]
    simp
  · intro p distinct
    rw [Server.hangUp_eq positive]
    exact Function.update_of_ne distinct _ _
  · rw [Server.hangUp_eq positive]
    rfl
  · intro fd ev registered
    rw [Server.hangUp_eq positive] at registered
    by_cases same : fd = (s.srv.conns c).fd
    · simp [Kernel.close, same] at registered
    · simp only [Kernel.close, Server.received_conns, Function.update_of_ne same,
        Server.ctlDel_reg_of_ne _ same, received_reg] at registered
      exact registered

/-- `event_read`. -/
theorem Regular.read {fr : Frame} {input : Server.ReadInput} (regular : s.Regular r)
    (at_read : s.reactor = .read fr c)
    (stepped : Regs.step s (.read input) = some s') : ∃ r', s'.Regular r' := by
  have scheduled := regular.scheduled
  rw [at_read] at scheduled
  have settled : s.reactor.pending = none := by rw [at_read]; rfl
  have loads : ∀ j, fr.Ahead j → s.reactor.pc.Loads j := fun j ahead => by
    rw [at_read]
    exact ahead
  have roster := s.srv.roster_received c input
  have reg := received_reg s.srv c input
  simp only [Regs.step, at_read] at stepped
  split at stepped
  · unfold Server.eventRead at stepped
    rcases s.srv.eventReadRecv_cases c input with
      ⟨returned, received⟩ | ⟨_, received⟩ | ⟨_, heap, _, _, _, received⟩ |
        ⟨_, item, made, _, _, _, _, _, _, received⟩
    · rw [received] at stepped
      obtain rfl := Option.some.inj stepped
      exact ⟨_, regular.hangUp at_read returned⟩
    · rw [received] at stepped
      obtain rfl := Option.some.inj stepped
      exact ⟨r, regular.handled settled roster (fun _ => rfl) rfl reg rfl nofun trivial nofun⟩
    · rw [received] at stepped
      obtain rfl := Option.some.inj stepped
      exact ⟨r, regular.handled settled roster (fun _ => rfl) rfl reg rfl nofun scheduled loads⟩
    · rw [received] at stepped
      obtain rfl := Option.some.inj stepped
      exact ⟨r, regular.handled settled roster (fun _ => rfl) rfl reg rfl nofun scheduled loads⟩
  · obtain rfl := Option.some.inj stepped
    exact ⟨r, regular.moved settled rfl rfl scheduled loads⟩

/-- `event_write` up to its registration. -/
theorem Regular.write {fr : Frame} {script : List (Except Errno Nat)} (regular : s.Regular r)
    (at_write : s.reactor = .write fr c)
    (stepped : Regs.step s (.write script) = some s') : s'.Regular r := by
  have scheduled := regular.scheduled
  rw [at_write] at scheduled
  have settled : s.reactor.pending = none := by rw [at_write]; rfl
  have loads : ∀ j, fr.Ahead j → s.reactor.pc.Loads j := fun j ahead => by
    rw [at_write]
    exact ahead
  have back := regular.back settled (.refl _) rfl scheduled.resume loads
  have modifying : ∀ flags, ∀ call ∈ (Place.modifying fr (.modify c flags)).call,
      call.Ready (s.srv.event 0) := by
    intro flags call member
    obtain rfl := Option.some.inj member
    exact RegCall.modify_ready ..
  simp only [Regs.step, at_write] at stepped
  split at stepped
  · rcases s.srv.eventWriteSend_cases c script with ⟨_, sent⟩ | ⟨b, _, _, outcome⟩
    · rw [sent] at stepped
      obtain rfl := Option.some.inj stepped
      exact back
    · have roster : (s.srv.sending c b script).roster = s.srv.roster :=
        Server.roster_kernel (sameTable_sendData ..)
      have reg := sending_reg s.srv c b script
      have kept : ∀ flags, Regular { s with
          srv := s.srv.sending c b script, reactor := .modifying fr (.modify c flags) } r :=
        fun flags => regular.handled settled roster (fun _ => rfl) rfl reg rfl (modifying flags)
          scheduled loads
      rcases outcome with ⟨_, sent⟩ | ⟨_, sent⟩ | ⟨_, sent⟩ | ⟨_, _, _, _, sent⟩
      · rw [sent] at stepped
        obtain rfl := Option.some.inj stepped
        exact regular.handled settled roster (fun _ => rfl) rfl reg rfl nofun trivial nofun
      · rw [sent] at stepped
        obtain rfl := Option.some.inj stepped
        exact kept _
      · rw [sent] at stepped
        obtain rfl := Option.some.inj stepped
        exact kept _
      · rw [sent] at stepped
        obtain rfl := Option.some.inj stepped
        refine regular.handled settled ?_ (fun p => ?_) rfl reg rfl (modifying _) scheduled loads
        · exact Server.roster_congr (sameTable_sendData ..) (Server.fd_update (by rfl)) rfl rfl
        · by_cases same : p = c
          · subst same
            simp [Server.unloaded]
          · simp [Server.unloaded, Function.update_of_ne same]
  · obtain rfl := Option.some.inj stepped
    exact back

/-! ## The end of an accept -/

/-- The roster of an accept on its way, table by table. -/
theorem Accepting.fields (accepting : s.Accepting r c sock) :
    s.srv.roster.owner = r.owner ∧
      s.srv.roster.opened = (r.take c s.srv.pool s.srv.nconn sock).opened ∧
      s.srv.roster.handle = (r.take c s.srv.pool s.srv.nconn sock).handle := by
  rw [accepting.roster]
  exact ⟨rfl, rfl, rfl⟩

/-- What an accept on its way has made of the kernel. -/
theorem Accepting.kernel (accepting : s.Accepting r c sock) (kept : Kept r) :
    (s.srv.conns c).fd = sock ∧ (s.srv.kernel.sock sock).isSome = true ∧
      s.srv.kernel.reg sock = none := by
  obtain ⟨_, closed, _, roster, _⟩ := accepting
  have handle : (s.srv.conns c).fd = Function.update r.handle c sock c :=
    congrFun (congrArg Roster.handle roster) c
  have opened : (r.take c s.srv.pool s.srv.nconn sock).opened sock := .inl rfl
  have owner : s.srv.roster.owner sock = r.owner sock := by rw [roster]; rfl
  rw [Function.update_self] at handle
  refine ⟨handle, by rwa [← roster] at opened, ?_⟩
  cases registered : s.srv.kernel.reg sock with
  | none => rfl
  | some ev =>
    rw [Server.roster_owner, registered, Option.map_some] at owner
    exact absurd (kept.sound.isOpen sock ev.ptr owner.symm) closed

/-- An accepted connection is served next, the batch being as it was reported. -/
theorem serving_lend {rest : List ConnPtr} {nconn : ConnPtr} {ptr : Nat → ConnPtr} {fr : Frame}
    (listening : Listening r ptr fr) (kept : Kept r) (next : r.Next c rest nconn)
    (closed : ¬r.opened sock) (later : fr.test = .out → fr.i ≠ 0) :
    Serving (r.lend c rest nconn sock) ptr fr c where
  bound := listening.bound
  client := kept.next_ne next
  known := next.lt kept.sound
  settled := .inl Roster.live_lend
  upcoming := listening.upcoming.roster fun _ _ _ live => live.lend kept.sound next closed
  apart := listening.upcoming.apart_of_not_live (next.not_live kept.sound)
  again := fun which => .inr ⟨later which, listening.again which, listening.apart⟩

/-- The registration of an accepted descriptor. -/
theorem Regular.lent {fr : Frame} {call : RegCall} (regular : s.Regular r)
    (at_adding : s.reactor = .adding fr call sock) (accepting : s.Accepting r call.conn sock)
    (spares : s.Spares call.conn) :
    Regular { s with
      srv := { s.srv with
        kernel := (s.srv.kernel.log (.epollCtl sock)).register sock ⟨call.mask, call.conn⟩ }
      asked := Function.update s.asked sock call.mask
      reactor := .sockopt fr call.conn } (r.lend call.conn s.srv.pool s.srv.nconn sock) := by
  have scheduled := regular.scheduled
  have loads := regular.loads
  rw [at_adding] at scheduled loads
  obtain ⟨owner, opened, handle⟩ := accepting.fields
  obtain ⟨next, closed, offered, roster, held⟩ := accepting
  have kept := regular.kept
  constructor
  · exact kept.lend next closed offered
  · show Server.roster _ = _
    unfold Server.roster Roster.lend
    congr 1
    rw [← owner]
    funext x
    by_cases same : x = sock
    · simp [same, Kernel.register]
    · simp [Kernel.register, Function.update_of_ne same]
  · intro p known connected
    exact (regular.connected p known connected).lend kept.sound next closed
  · refine serving_lend scheduled kept next closed fun which first => ?_
    rcases spares with quiet | own
    · simp [at_adding, Place.pc, Pc.entryZeroLive, first, which] at quiet
    · have listener := scheduled.again which
      rw [first, ← own] at listener
      exact kept.next_ne next listener
  · exact loads
  · intro t call' member
    rcases regular.flying t call' member with live | parked
    · exact .inl (live.lend kept.sound next closed)
    · by_cases same : call'.conn = call.conn
      · exact .inl (same ▸ Roster.live_lend)
      · refine .inr ?_
        simp only [Roster.lend, Function.update_of_ne same]
        exact parked
  · exact fun thread call' member => regular.ready thread call' (call_kept (by rfl) (by rfl) member)
  · constructor
    · intro fd ev stored
      by_cases same : fd = sock
      · subst same
        simp only [Kernel.register, Function.update_self, Option.some.injEq] at stored
        rw [← stored]
        exact held.symm
      · simp only [Kernel.register, Function.update_of_ne same] at stored
        exact regular.intact.owner fd ev stored
    · intro fd ev stored
      by_cases same : fd = sock
      · subst same
        simp only [Kernel.register, Function.update_self, Option.some.injEq] at stored
        simp only [Function.update_self]
        rw [← stored]
      · simp only [Kernel.register, Function.update_of_ne same] at stored
        simp only [Function.update_of_ne same]
        exact regular.intact.mask fd ev stored
    · exact regular.intact.dispatched

/-- A refused registration: the object goes back to the pool with a descriptor that is closed. -/
theorem Regular.bounced {fr : Frame} {call : RegCall} (regular : s.Regular r)
    (at_adding : s.reactor = .adding fr call sock) (accepting : s.Accepting r call.conn sock)
    (unsent : s.Unsent call.conn) :
    Regular { s with
      srv := (({ s.srv with kernel := s.srv.kernel.log (.epollCtl sock) } :
        Server).setConn call.conn).acceptErr sock
      reactor := fr.back } (r.bounce call.conn s.srv.pool s.srv.nconn sock) := by
  have scheduled := regular.scheduled
  have loads := regular.loads
  rw [at_adding] at scheduled loads
  obtain ⟨_, _, unregistered⟩ := accepting.kernel regular.kept
  obtain ⟨owner, opened, handle⟩ := accepting.fields
  obtain ⟨next, closed, offered, roster, _⟩ := accepting
  have kept := regular.kept
  have nonzero : sock ≠ 0 := ne_of_gt (mem_clientFds.mp offered).1
  rw [Server.acceptErr_of_ne nonzero]
  constructor
  · exact kept.bounce next closed offered
  · unfold Behind
    rw [back_pending]
    show Server.roster _ = _
    unfold Server.roster Roster.bounce
    congr 1
    · funext x
      by_cases same : x = sock
      · simp [same, Server.setConn, Kernel.close, closed]
      · have before : ((s.srv.kernel.sock x).isSome = true) = (x = sock ∨ r.opened x) :=
          congrFun opened x
        simpa [Server.setConn, Kernel.close, Function.update_of_ne same, same] using before
    · rw [← owner]
      funext x
      by_cases same : x = sock
      · simp [same, Server.setConn, Kernel.close, unregistered]
      · simp [Server.setConn, Kernel.close, Function.update_of_ne same]
    · funext x
      have before : (s.srv.conns x).fd = Function.update r.handle call.conn sock x :=
        congrFun handle x
      rw [← before]
      exact Server.fd_update (by rfl) x
  · intro p known connected
    by_cases same : p = call.conn
    · simp [same, Server.setConn, connobjReset] at connected
    · simp only [Server.setConn, Function.update_of_ne same] at connected
      exact (regular.connected p known connected).bounce kept.sound next
  · dsimp only
    rw [back_pc]
    refine scheduled_resume scheduled.bound ?_ fun which => ⟨?_, ?_, fun client => ?_⟩
    · exact scheduled.upcoming.roster fun _ _ _ live => live.bounce kept.sound next
    · exact scheduled.upcoming.roster fun _ _ _ live => live.bounce kept.sound next
    · exact scheduled.again which ▸ scheduled.apart
    · exact absurd (scheduled.again which) client
  · intro j loaded
    dsimp only at loaded
    rw [back_pc] at loaded
    exact loads j (loads_resume loaded)
  · intro t call' member
    have apart := unsent.ne member
    rcases regular.flying t call' member with live | parked
    · exact .inl (live.bounce kept.sound next)
    · refine .inr ?_
      simp only [Roster.bounce, Function.update_of_ne apart]
      exact parked
  · exact fun thread call' member =>
      regular.ready thread call' (call_kept (by rfl) (back_call fr) member)
  · refine regular.intact.closed (fun fd ev stored => ?_) rfl rfl rfl rfl
    by_cases same : fd = sock
    · simp [Kernel.close, same] at stored
    · simpa [Server.setConn, Kernel.close, Function.update_of_ne same] using stored

end Regs

end EpollNet
