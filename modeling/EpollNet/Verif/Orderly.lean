import EpollNet.Verif.Reactor

/-!
# Disciplined runs stay orderly

`Orderly` is what every step of a disciplined run keeps: registrations, descriptors and pool
agree, connected objects are live, and the rest of the batch is as the reactor needs it. It is
proved by cases on the step from the lemmas about rosters and schedules, and it is the common
ground of the results about the pool, about lost connections, about descriptors and about
deliveries.
-/

namespace EpollNet

open EpollNet.Basis

/-! ## Small changes to the server -/

namespace Server

/-- The objects named by the entries of the event array. -/
def targets (s : Server) (j : Nat) : ConnPtr := (s.event j).ptr

/-- A registration change stores its object into the first entry. -/
theorem targets_modify (s : Server) (c : ConnPtr) (flags : BitVec 32) :
    (s.epollEventModifyConn c flags).2.targets = Function.update s.targets 0 c := by
  funext j
  by_cases first : j = 0
  · simp [targets, epollEventModifyConn, first]
  · simp [targets, epollEventModifyConn, first]

/-- Accepting stores the object into the first entry. -/
theorem targets_admitted (s : Server) (inc : Kernel.Incoming) (c : ConnPtr) (rest : List ConnPtr)
    (nconn : ConnPtr) : (s.admitted inc c rest nconn).targets = Function.update s.targets 0 c := by
  funext j
  by_cases first : j = 0
  · simp [targets, admitted, first]
  · simp [targets, admitted, acceptedConn, first]

/-- So does a refused accept. -/
theorem targets_refused {s : Server} {inc : Kernel.Incoming} {c : ConnPtr} {rest : List ConnPtr}
    {nconn : ConnPtr} (nonzero : inc.fd ≠ 0) :
    (s.refused inc c rest nconn).targets = Function.update s.targets 0 c := by
  unfold refused
  rw [acceptErr_of_ne nonzero]
  funext j
  by_cases first : j = 0
  · simp [targets, setConn, first]
  · simp [targets, setConn, acceptedConn, first]

/-- A kernel with the same tables makes the same roster. -/
theorem roster_kernel {s : Server} {k : Kernel} (table : s.kernel.SameTable k) :
    ({ s with kernel := k } : Server).roster = s.roster :=
  roster_congr table (fun _ => rfl) rfl rfl

/-- Logging a call changes no table. -/
theorem sameTable_log (k : Kernel) (call : Call) : k.SameTable (k.log call) :=
  ⟨fun _ => rfl, fun _ => rfl⟩

/-- A receiving loop that returned had an open descriptor. -/
theorem isOpen_of_recvlen {s : Server} {c : ConnPtr} {input : ReadInput} {recvlen : Int}
    (returned : s.recvlen c input = some recvlen) :
    (s.kernel.sock (s.conns c).fd).isSome = true := by
  by_contra closed
  have looping : s.recvlen c input = none :=
    readLoop_closed input.script 0 (recvbuffer input.beyond) s.kernel
      (Option.not_isSome_iff_eq_none.mp closed)
  rw [looping] at returned
  contradiction

end Server

/-! ## The invariant -/

/-- What holds between any two steps of a disciplined run. -/
structure Orderly (s : State) : Prop where
  /-- Registrations, descriptors and pool agree. -/
  kept : Kept s.srv.roster
  /-- A connected object is live. -/
  connected : ∀ c, c < s.srv.nconn → (s.srv.conns c).activity = .connected → s.srv.roster.Live c
  /-- The rest of the batch is as the reactor needs it. -/
  scheduled : Scheduled s.srv.roster s.srv.targets s.reactor

/-- A step that keeps the roster and connects no object need only keep the schedule. -/
theorem Orderly.congr {s s' : State} (orderly : Orderly s) (roster : s'.srv.roster = s.srv.roster)
    (activity : ∀ c, (s'.srv.conns c).activity = .connected → (s.srv.conns c).activity = .connected)
    (scheduled : Scheduled s.srv.roster s'.srv.targets s'.reactor) : Orderly s' where
  kept := roster ▸ orderly.kept
  connected := by
    intro c known connected
    have size : s'.srv.nconn = s.srv.nconn := congrArg Roster.size roster
    rw [roster]
    exact orderly.connected c (size ▸ known) (activity c connected)
  scheduled := roster ▸ scheduled

/-- A batch the kernel may report names live objects, none twice. -/
theorem upcoming_epollWait {s : Server} {batch : List (Fd × BitVec 32)} (kept : Kept s.roster)
    (reports : s.kernel.Reports batch) :
    Upcoming s.roster (s.epollWait batch).targets 0 batch.length := by
  obtain ⟨nodup, registered⟩ := reports
  have named : ∀ j (inside : j < batch.length),
      s.roster.owner batch[j].1 = some ((s.epollWait batch).targets j) := by
    intro j inside
    obtain ⟨ev, found⟩ := Option.isSome_iff_exists.mp (registered _ (List.getElem_mem inside))
    simp [Server.targets, Server.epollWait, List.getElem?_eq_getElem inside, found]
  refine ⟨fun j _ inside => kept.sound.owner_live (named j inside), fun j k _ order inside => ?_⟩
  intro same
  have before : j < batch.length := by omega
  have left := kept.sound.carries _ _ (named j before)
  have right := kept.sound.carries _ _ (named k inside)
  rw [same, right] at left
  have first : j < (batch.map Prod.fst).length := by simpa using before
  have second : k < (batch.map Prod.fst).length := by simpa using inside
  have images : (batch.map Prod.fst)[j] = (batch.map Prod.fst)[k] := by simpa using left.symm
  have equal := (List.Nodup.getElem_inj_iff nodup).mp images
  omega

/-- The facts of an accepted number under the discipline. -/
theorem accepted_number {s : Server} {inc : Kernel.Incoming} (kept : Kept s.roster)
    (free : s.kernel.Free inc.fd) (nonzero : inc.fd ≠ 0) :
    inc.fd ∈ clientFds ∧ ¬s.roster.opened inc.fd ∧ s.kernel.reg inc.fd = none := by
  obtain ⟨nonnegative, small, closed⟩ := free
  have shut : ¬s.roster.opened inc.fd := by simp [closed]
  refine ⟨mem_clientFds.mpr ⟨lt_of_le_of_ne nonnegative (Ne.symm nonzero), small⟩, shut, ?_⟩
  cases registered : s.kernel.reg inc.fd with
  | none => rfl
  | some ev => exact absurd (kept.sound.isOpen inc.fd ev.ptr (by simp [registered])) shut

/-! ## Steps -/

variable {s : State} {fr : Frame} {c : ConnPtr}

/-- `Server_Accept` that gave up after accepting. -/
theorem Orderly.dropped {inc : Kernel.Incoming} (orderly : Orderly s)
    (at_accept : s.reactor = .accept fr) (free : s.srv.kernel.Free inc.fd) (nonzero : inc.fd ≠ 0) :
    Orderly { s with srv := s.srv.dropped inc, reactor := fr.resume } := by
  have scheduled := orderly.scheduled
  rw [at_accept] at scheduled
  obtain ⟨_, _, unregistered⟩ := accepted_number orderly.kept free nonzero
  have conns : (s.srv.dropped inc).conns = s.srv.conns := by
    rw [Server.dropped, Server.acceptErr_of_ne nonzero]
  have targets : (s.srv.dropped inc).targets = s.srv.targets := by
    rw [Server.dropped, Server.acceptErr_of_ne nonzero]
    rfl
  apply orderly.congr (Server.roster_dropped nonzero free.2.2 unregistered)
  · intro c
    rw [conns]
    exact id
  · rw [targets]
    exact Listening.resume scheduled

/-- `Server_Accept` whose registration was refused. -/
theorem Orderly.refused {inc : Kernel.Incoming} {rest : List ConnPtr} {nconn : ConnPtr}
    (orderly : Orderly s) (at_accept : s.reactor = .accept fr) (free : s.srv.kernel.Free inc.fd)
    (nonzero : inc.fd ≠ 0) (next : s.srv.roster.Next c rest nconn) :
    Orderly { s with srv := s.srv.refused inc c rest nconn, reactor := fr.resume } := by
  have scheduled := orderly.scheduled
  rw [at_accept] at scheduled
  obtain ⟨offered, closed, unregistered⟩ := accepted_number orderly.kept free nonzero
  have roster : (s.srv.refused inc c rest nconn).roster = s.srv.roster.bounce c rest nconn inc.fd :=
    Server.roster_refused nonzero free.2.2 unregistered
  refine ⟨?_, fun p known connected => ?_, ?_⟩
  · rw [roster]
    exact orderly.kept.bounce next closed offered
  · have activity : (s.srv.refused inc c rest nconn).conns =
        Function.update s.srv.conns c
          (connobjReset { s.srv.takenConn c with fd := inc.fd, activity := .connecting }) := by
      rw [Server.refused, Server.acceptErr_of_ne nonzero]
      simp [Server.setConn, Server.acceptedConn]
    have size : (s.srv.refused inc c rest nconn).nconn = nconn := congrArg Roster.size roster
    simp only [activity, size] at known connected
    rw [roster]
    by_cases same : p = c
    · subst same
      simp [connobjReset] at connected
    · rw [Function.update_of_ne same] at connected
      have live := orderly.connected p (next.lt_of_ne known same) connected
      exact live.bounce orderly.kept.sound next
  · rw [roster, Server.targets_refused nonzero]
    exact Listening.bounce scheduled orderly.kept next closed

/-- `Server_Accept` that returned a connection. -/
theorem Orderly.admitted {inc : Kernel.Incoming} {rest : List ConnPtr} {nconn : ConnPtr}
    (orderly : Orderly s) (at_accept : s.reactor = .accept fr) (free : s.srv.kernel.Free inc.fd)
    (nonzero : inc.fd ≠ 0) (next : s.srv.roster.Next c rest nconn) :
    Orderly { s with srv := s.srv.admitted inc c rest nconn, reactor := .sockopt fr c } := by
  have scheduled := orderly.scheduled
  rw [at_accept] at scheduled
  obtain ⟨offered, closed, _⟩ := accepted_number orderly.kept free nonzero
  have roster := s.srv.roster_admitted inc c rest nconn
  refine ⟨?_, fun p known connected => ?_, ?_⟩
  · rw [roster]
    exact orderly.kept.lend next closed offered
  · rw [roster]
    by_cases same : p = c
    · exact same ▸ Roster.live_lend
    · simp only [Server.admitted, Server.acceptedConn, Function.update_of_ne same] at connected
      exact (orderly.connected p (next.lt_of_ne known same) connected).lend orderly.kept.sound next
        closed
  · rw [roster, Server.targets_admitted]
    exact Listening.lend scheduled orderly.kept next closed

/-- The callback found no pending error. -/
theorem Orderly.sockoptConnected (orderly : Orderly s) (at_sockopt : s.reactor = .sockopt fr c)
    (isOpen : (s.srv.kernel.sock (s.srv.conns c).fd).isSome = true) :
    Orderly { s with
      srv := { s.srv with
        kernel := s.srv.kernel.log (.getsockopt (s.srv.conns c).fd)
        conns := Function.update s.srv.conns c { s.srv.conns c with activity := .connected } }
      reactor := .read fr c } := by
  have scheduled := orderly.scheduled
  rw [at_sockopt] at scheduled
  have live : s.srv.roster.Live c := scheduled.settled.live isOpen
  have roster : ({ s.srv with
      kernel := s.srv.kernel.log (.getsockopt (s.srv.conns c).fd)
      conns := Function.update s.srv.conns c { s.srv.conns c with activity := .connected } } :
      Server).roster = s.srv.roster :=
    Server.roster_congr (Server.sameTable_log s.srv.kernel (.getsockopt (s.srv.conns c).fd))
      (Server.fd_update (by rfl)) rfl rfl
  refine ⟨?_, fun p known connected => ?_, ?_⟩
  · rw [roster]
    exact orderly.kept
  · rw [roster]
    by_cases same : p = c
    · exact same ▸ live
    · simp only [Function.update_of_ne same] at connected
      exact orderly.connected p known connected
  · rw [roster]
    exact scheduled

/-- The callback closed a descriptor with a pending error. -/
theorem Orderly.severed (orderly : Orderly s) (at_sockopt : s.reactor = .sockopt fr c)
    (isOpen : (s.srv.kernel.sock (s.srv.conns c).fd).isSome = true) :
    Orderly { s with srv := s.srv.severed c, reactor := .read fr c } := by
  have scheduled := orderly.scheduled
  rw [at_sockopt] at scheduled
  have live : s.srv.roster.Live c := scheduled.settled.live isOpen
  have roster := s.srv.roster_severed c
  refine ⟨?_, fun p known connected => ?_, ?_⟩
  · rw [roster]
    exact orderly.kept.sever
  · rw [roster]
    by_cases same : p = c
    · subst same
      simp [Server.severed] at connected
    · simp only [Server.severed, Function.update_of_ne same] at connected
      exact (orderly.connected p known connected).sever live same
  · rw [roster]
    exact scheduled.roster (le_refl _) Roster.settled_sever
      fun p distinct other => other.sever live distinct

/-- The receiving loop changes no table. -/
theorem Server.sameTable_received (s : Server) (c : ConnPtr) (input : Server.ReadInput) :
    s.kernel.SameTable (s.received c input).kernel := sameTable_readData ..

/-- The receiving loop changes no object. -/
@[simp] theorem Server.received_conns (s : Server) (c : ConnPtr) (input : Server.ReadInput) :
    (s.received c input).conns = s.conns := rfl

/-- The receiving loop leaves the roster. -/
theorem Server.roster_received (s : Server) (c : ConnPtr) (input : Server.ReadInput) :
    (s.received c input).roster = s.roster := Server.roster_kernel (s.sameTable_received c input)

/-- A receiving loop that returns was on a live client's descriptor, which is a positive number. -/
theorem Orderly.reading {input : Server.ReadInput} {recvlen : Int} (orderly : Orderly s)
    (at_read : s.reactor = .read fr c) (returned : s.srv.recvlen c input = some recvlen) :
    c ≠ serverConn ∧ s.srv.roster.Live c ∧ 0 < ((s.srv.received c input).conns c).fd := by
  have scheduled := orderly.scheduled
  rw [at_read] at scheduled
  have live : s.srv.roster.Live c := scheduled.settled.live (Server.isOpen_of_recvlen returned)
  have offered := orderly.kept.live_fd live scheduled.client
  exact ⟨scheduled.client, live, (mem_clientFds.mp offered).1⟩

/-- `event_read` met the end of the stream. -/
theorem Orderly.hangUp {input : Server.ReadInput} (orderly : Orderly s)
    (at_read : s.reactor = .read fr c) (returned : s.srv.recvlen c input = some 0) :
    Orderly { s with srv := (s.srv.received c input).hangUp c, reactor := .write fr c } := by
  have scheduled := orderly.scheduled
  rw [at_read] at scheduled
  obtain ⟨_, live, positive⟩ := orderly.reading at_read returned
  have roster : ((s.srv.received c input).hangUp c).roster = s.srv.roster.retire c (-1) := by
    rw [Server.roster_hangUp positive, Server.roster_received]
  refine ⟨?_, fun p known connected => ?_, ?_⟩
  · rw [roster]
    exact orderly.kept.retire live scheduled.client
  · rw [roster]
    simp only [Server.hangUp_eq positive] at known connected
    by_cases same : p = c
    · subst same
      simp at connected
    · simp only [Function.update_of_ne same] at connected
      exact (orderly.connected p known connected).retire live same
  · have targets : ((s.srv.received c input).hangUp c).targets = s.srv.targets := by
      rw [Server.hangUp_eq positive]
      rfl
    rw [roster, targets]
    exact scheduled.roster (le_refl _) (Roster.settled_retire orderly.kept.closed_neg_one)
      fun p distinct other => other.retire live distinct

/-- An object replaced by one with the same activity connects none. -/
theorem activity_update {conns : ConnPtr → ConnObj} {obj : ConnObj}
    (same : obj.activity = (conns c).activity) (p : ConnPtr)
    (connected : (Function.update conns c obj p).activity = .connected) :
    (conns p).activity = .connected := by
  by_cases equal : p = c
  · subst equal
    rwa [Function.update_self, same] at connected
  · rwa [Function.update_of_ne equal] at connected

/-- A registration change on a settled object whose send fields changed. -/
theorem roster_store {s : Server} {k : Kernel} {c : ConnPtr} {obj : ConnObj} {heap : Heap}
    {sent : List (ConnPtr × Nat × Buf)} (table : s.kernel.SameTable k)
    (fd : obj.fd = (s.conns c).fd) (settled : s.roster.Settled c) (flags : BitVec 32) :
    (({ s with kernel := k, heap, conns := Function.update s.conns c obj, sent } :
      Server).epollEventModifyConn c flags).2.roster = s.roster := by
  have roster : ({ s with kernel := k, heap, conns := Function.update s.conns c obj, sent } :
      Server).roster = s.roster :=
    Server.roster_congr table (Server.fd_update fd) rfl rfl
  rw [Server.roster_modify (by rw [roster]; exact settled), roster]

/-- Every disciplined step keeps the order. -/
theorem Orderly.step {s' : State} {l : Label} (orderly : Orderly s) (disciplined : Disciplined s l)
    (stepped : Step s l s') : Orderly s' := by
  have scheduled := orderly.scheduled
  cases stepped with
  | waited at_blocked reports =>
    refine ⟨orderly.kept, orderly.connected, ?_⟩
    have upcoming := upcoming_epollWait orderly.kept reports
    unfold Pc.begin
    split
    · exact ⟨‹_›, upcoming⟩
    · trivial
  | tested at_test =>
    rw [at_test] at scheduled
    exact orderly.congr rfl (fun _ => id)
      (scheduled_dispatch orderly.kept (fun _ => rfl) scheduled)
  | acceptLooping _ => exact orderly.congr rfl (fun _ => id) trivial
  | acceptNone at_accept =>
    rw [at_accept] at scheduled
    exact orderly.congr rfl (fun _ => id) (Listening.resume scheduled)
  | acceptDropped at_accept offered free =>
    exact orderly.dropped at_accept free (disciplined (.ok _) offered)
  | acceptRefused at_accept offered free next _ =>
    exact orderly.refused at_accept free (disciplined (.ok _) offered) next
  | acceptAdmitted at_accept offered free next =>
    exact orderly.admitted at_accept free (disciplined (.ok _) offered) next
  | sockoptFailed at_sockopt _ =>
    rw [at_sockopt] at scheduled
    exact orderly.congr (Server.roster_kernel (Server.sameTable_log ..)) (fun _ => id)
      scheduled.resume
  | sockoptConnected at_sockopt isOpen => exact orderly.sockoptConnected at_sockopt isOpen
  | sockoptSevered at_sockopt isOpen _ => exact orderly.severed at_sockopt isOpen
  | readSkipped at_read _ =>
    rw [at_read] at scheduled
    exact orderly.congr rfl (fun _ => id) scheduled
  | readLooping _ _ _ =>
    exact orderly.congr (Server.roster_received ..) (fun _ => id) trivial
  | readEnded at_read _ returned => exact orderly.hangUp at_read returned
  | readFinished at_read _ _ _ _ =>
    rw [at_read] at scheduled
    exact orderly.congr (s.srv.roster_received _ _) (fun _ => id) scheduled
  | readItem at_read _ _ _ _ _ _ _ =>
    rw [at_read] at scheduled
    exact orderly.congr (s.srv.roster_received _ _) (fun _ => id) scheduled
  | pushed at_push =>
    rw [at_push] at scheduled
    exact orderly.congr rfl (fun _ => id) scheduled
  | posted at_post =>
    rw [at_post] at scheduled
    exact orderly.congr rfl (fun _ => id) scheduled
  | writeIdle at_write =>
    rw [at_write] at scheduled
    exact orderly.congr rfl (fun _ => id) scheduled.resume
  | writeLooping _ _ _ _ =>
    exact orderly.congr (Server.roster_kernel (sameTable_sendData ..)) (fun _ => id) trivial
  | written at_write _ _ _ fd activity _ =>
    rw [at_write] at scheduled
    apply orderly.congr (roster_store (sameTable_sendData ..) fd scheduled.settled _)
    · exact fun p => activity_update activity p
    · rw [Server.targets_modify]
      exact (Serving.store scheduled).resume
  | arrived =>
    exact orderly.congr (Server.roster_kernel (Kernel.sameTable_arrive ..)) (fun _ => id) scheduled
  | sendIdle => exact orderly
  | sent known _ connected fd activity _ =>
    have live := orderly.connected _ known connected
    apply orderly.congr (roster_store (.refl _) fd (.inl live) _)
    · exact fun p => activity_update (activity.trans connected.symm) p
    · rw [Server.targets_modify]
      exact scheduled.store disciplined
  | worker moved =>
    obtain ⟨reactor, rqueue, sem, heap, srv⟩ := moved.frame
    apply orderly.congr
    · rw [srv]
      rfl
    · rw [srv]
      exact fun _ => id
    · rw [reactor, srv]
      exact scheduled
  | interrupted _ => exact ⟨orderly.kept, orderly.connected, scheduled⟩

/-! ## Runs -/

/-- A server with one object, at most one descriptor and an empty pool is orderly. -/
theorem kept_start {s : Server} (pool : s.pool = []) (nconn : s.nconn = serverConn + 1)
    (numbers : ∀ fd, (s.kernel.sock fd).isSome = true → 0 ≤ fd ∧ fd < 2 ^ 31)
    (owner : ∀ fd c, (s.kernel.reg fd).map EpollEvent.ptr = some c →
      c = serverConn ∧ (s.conns c).fd = fd ∧ (s.kernel.sock fd).isSome = true) :
    Kept s.roster := by
  have sound : s.roster.Sound := by
    constructor
    · simp [pool]
    · simp [pool]
    · exact fun fd c owned => (owner fd c owned).2.2
    · exact fun fd c owned => (owner fd c owned).2.1
    · intro fd c owned
      rw [(owner fd c owned).1, Server.roster_size, nconn]
      exact Nat.lt_succ_self _
    · simp [pool]
  refine ⟨sound, numbers, ?_, by simp [pool], ?_, ?_⟩
  · rw [Server.roster_size, nconn]
    exact Nat.lt_succ_self _
  · exact fun fd c owned client => absurd (owner fd c owned).1 client
  · -- only the listening object can be lent, and there are client descriptors enough
    have one : (s.roster.lent clientFds).card ≤ 1 := by
      have part : s.roster.lent clientFds ⊆ Finset.range 1 := by
        intro c member
        have live := ((Roster.mem_lent sound).mp member).1
        rw [(owner _ c live).1]
        exact Finset.mem_range.mpr Nat.zero_lt_one
      exact le_trans (Finset.card_le_card part) (by simp)
    have enough : 1 ≤ clientFds.card :=
      Finset.card_pos.mpr ⟨1, mem_clientFds.mpr ⟨by decide, by decide⟩⟩
    simp only [Roster.Bounded, Server.roster_pool, pool, List.length_nil]
    omega

/-- The server after `Server_Listen` has its socket. -/
def Server.listening (memory : ConnPtr → ConnObj) (event : Nat → EpollEvent) (sock : Fd) : Server :=
  { Server.serverCreate memory event with
    kernel := { Kernel.initial.log (.opened sock) with
      sock := Function.update Kernel.initial.sock sock (some ⟨[], false, 0⟩) }
    conns := Function.update (Server.serverCreate memory event).conns serverConn
      { (Server.serverCreate memory event).conns serverConn with fd := sock } }

/-- The error path of `Server_Listen` closes a positive number and nothing else. -/
theorem listenErr_cases (s : Server) :
    s.listenErr = s ∨
    (0 < (s.conns serverConn).fd ∧ s.listenErr = { s with
      kernel := s.kernel.close (s.conns serverConn).fd
      conns := Function.update s.conns serverConn
        { s.conns serverConn with activity := .connclosed, fd := -1 } }) := by
  unfold Server.listenErr Server.closeConnObj
  by_cases nonnegative : (s.conns serverConn).fd ≥ 0
  · rw [if_pos nonnegative]
    by_cases positive : (s.conns serverConn).fd > 0
    · exact .inr ⟨positive, if_pos positive⟩
    · exact .inl (if_neg positive)
  · exact .inl (if_neg nonnegative)

/-- The error path of `Server_Listen` leaves the pool. -/
@[simp] theorem listenErr_pool (s : Server) : s.listenErr.pool = s.pool := by
  rcases listenErr_cases s with same | ⟨_, closed⟩
  · rw [same]
  · rw [closed]

/-- The error path of `Server_Listen` makes no object. -/
@[simp] theorem listenErr_nconn (s : Server) : s.listenErr.nconn = s.nconn := by
  rcases listenErr_cases s with same | ⟨_, closed⟩
  · rw [same]
  · rw [closed]

/-- The error path of `Server_Listen` sends nothing. -/
@[simp] theorem listenErr_sent (s : Server) : s.listenErr.sent = s.sent := by
  rcases listenErr_cases s with same | ⟨_, closed⟩
  · rw [same]
  · rw [closed]

/-- It leaves an empty interest list empty. -/
theorem listenErr_reg {s : Server} (unregistered : s.kernel.reg = Kernel.initial.reg) (fd : Fd) :
    s.listenErr.kernel.reg fd = none := by
  rcases listenErr_cases s with same | ⟨_, closed⟩
  · rw [same, unregistered]
    rfl
  · rw [closed]
    by_cases own : fd = (s.conns serverConn).fd
    · simp [Kernel.close, own]
    · simp [Kernel.close, unregistered, Kernel.initial]

/-- `Server_Listen` fails before it has a socket, or after, or adds its socket to epoll and the
loops start. -/
theorem startWith_cases (memory : ConnPtr → ConnObj) (event : Nat → EpollEvent) (workers : Nat)
    (input : Server.ListenInput) :
    ((Kernel.initial.socket input.socket).1 = none ∧ startWith memory event workers input =
        ⟨(Server.serverCreate memory event).listenErr, .stopped, [], []⟩) ∨
    ∃ sock, 0 ≤ sock ∧ sock < 2 ^ 31 ∧
      (startWith memory event workers input =
          ⟨(Server.listening memory event sock).listenErr, .stopped, [], []⟩ ∨
        ∃ granted, startWith memory event workers input =
          ⟨((Server.listening memory event sock).epollEventAddConn serverConn epollIn granted).2,
            .blocked, List.replicate workers .wait, []⟩) := by
  unfold startWith Server.serverListen
  cases given : input.socket with
  | none => exact .inl ⟨rfl, rfl⟩
  | some sock =>
    by_cases free : Kernel.initial.Free sock
    · have opened : (Server.serverCreate memory event).kernel.socket (some sock) =
          (some sock, (Server.listening memory event sock).kernel) := by
        simp only [Kernel.socket]
        exact if_pos free
      refine .inr ⟨sock, free.1, free.2.1, ?_⟩
      simp only [opened]
      by_cases ready : (input.reuse && input.bind && input.listen) = true
      · refine .inr ⟨input.granted, ?_⟩
        simp only [ready, if_true]
        rfl
      · refine .inl ?_
        simp only [ready]
        rfl
    · have refused : (Server.serverCreate memory event).kernel.socket (some sock) =
          (none, (Server.serverCreate memory event).kernel) := by
        simp only [Kernel.socket]
        exact if_neg free
      refine .inl ⟨congrArg Prod.fst refused, ?_⟩
      simp only [refused]
      rfl

/-- The same of a server that may start in any memory. -/
theorem Started.cases (started : Started s) : ∃ memory event,
    s = ⟨(Server.serverCreate memory event).listenErr, .stopped, [], []⟩ ∨
    ∃ sock, 0 ≤ sock ∧ sock < 2 ^ 31 ∧
      (s = ⟨(Server.listening memory event sock).listenErr, .stopped, [], []⟩ ∨
        ∃ granted workers, s =
          ⟨((Server.listening memory event sock).epollEventAddConn serverConn epollIn granted).2,
            .blocked, List.replicate workers .wait, []⟩) := by
  obtain ⟨memory, event, workers, input, rfl⟩ := started
  refine ⟨memory, event, ?_⟩
  rcases startWith_cases memory event workers input with
    ⟨_, failed⟩ | ⟨sock, nonnegative, small, failed | ⟨granted, running⟩⟩
  · exact .inl failed
  · exact .inr ⟨sock, nonnegative, small, .inl failed⟩
  · exact .inr ⟨sock, nonnegative, small, .inr ⟨granted, workers, running⟩⟩

/-- A server starts with its listening object only. -/
theorem Started.nconn (started : Started s) : s.srv.nconn = serverConn + 1 := by
  obtain ⟨memory, event, failed | ⟨sock, _, _, failed | ⟨granted, workers, running⟩⟩⟩ :=
    started.cases
  · rw [failed, listenErr_nconn]
    rfl
  · rw [failed, listenErr_nconn]
    rfl
  · rw [running]
    rfl

/-- Its pool is empty. -/
theorem Started.pool (started : Started s) : s.srv.pool = [] := by
  obtain ⟨memory, event, failed | ⟨sock, _, _, failed | ⟨granted, workers, running⟩⟩⟩ :=
    started.cases
  · rw [failed, listenErr_pool]
    rfl
  · rw [failed, listenErr_pool]
    rfl
  · rw [running]
    rfl

/-- It starts before anything was sent. -/
theorem Started.sent (started : Started s) : s.srv.sent = [] := by
  obtain ⟨memory, event, failed | ⟨sock, _, _, failed | ⟨granted, workers, running⟩⟩⟩ :=
    started.cases
  · rw [failed, listenErr_sent]
    rfl
  · rw [failed, listenErr_sent]
    rfl
  · rw [running]
    rfl

/-- It starts with at most the listener's interest, which is for input. -/
theorem Started.listener (started : Started s) (fd : Fd) (ev : EpollEvent)
    (registered : s.srv.kernel.reg fd = some ev) : ev = ⟨epollIn, serverConn⟩ := by
  obtain ⟨memory, event, failed | ⟨sock, _, _, failed | ⟨granted, workers, running⟩⟩⟩ :=
    started.cases
  · rw [failed, listenErr_reg rfl] at registered
    contradiction
  · rw [failed, listenErr_reg rfl] at registered
    contradiction
  · rw [running] at registered
    simp only [Server.epollEventAddConn, Kernel.ctlAdd] at registered
    split at registered
    · by_cases own : fd = sock
      · simp only [Server.listening, own, Kernel.register, Function.update_self,
          Option.some.injEq] at registered
        exact registered.symm
      · simp only [Server.listening, Kernel.register, Function.update_self,
          Function.update_of_ne own] at registered
        exact absurd registered.symm (Option.some_ne_none ev)
    · exact absurd registered.symm (Option.some_ne_none ev)

/-- The listening object is not connected. -/
theorem Started.idle (started : Started s) :
    (s.srv.conns serverConn).activity = .connclosed := by
  have listenErr : ∀ srv : Server, (srv.conns serverConn).activity = .connclosed →
      (srv.listenErr.conns serverConn).activity = .connclosed := by
    intro srv idle
    rcases listenErr_cases srv with same | ⟨_, closed⟩
    · rw [same, idle]
    · rw [closed]
      simp
  obtain ⟨memory, event, failed | ⟨sock, _, _, failed | ⟨granted, workers, running⟩⟩⟩ :=
    started.cases
  · rw [failed]
    exact listenErr _ (by simp [Server.serverCreate, connobjReset])
  · rw [failed]
    exact listenErr _ (by simp [Server.listening, Server.serverCreate, connobjReset])
  · rw [running]
    simp [Server.epollEventAddConn, Server.listening, Server.serverCreate, connobjReset]

/-- The listening socket is open, and no other is. -/
theorem listening_isOpen {memory : ConnPtr → ConnObj} {event : Nat → EpollEvent} {sock fd : Fd} :
    ((Server.listening memory event sock).kernel.sock fd).isSome = true ↔ fd = sock := by
  by_cases same : fd = sock
  · simp [Server.listening, same]
  · simp [Server.listening, Kernel.initial, same]

/-- Registering the listening socket registers it for the listening object, or nothing. -/
theorem listening_owner {memory : ConnPtr → ConnObj} {event : Nat → EpollEvent} {sock fd : Fd}
    {granted : Bool} {c : ConnPtr}
    (owned : (((Server.listening memory event sock).epollEventAddConn serverConn epollIn
      granted).2.kernel.reg fd).map EpollEvent.ptr = some c) : fd = sock ∧ c = serverConn := by
  unfold Server.epollEventAddConn Kernel.ctlAdd at owned
  dsimp only at owned
  split at owned
  · by_cases same : fd = sock
    · simp [Server.listening, same, Kernel.register] at owned
      exact ⟨same, owned.symm⟩
    · simp [Server.listening, same, Kernel.register, Kernel.initial] at owned
  · simp [Server.listening, Kernel.initial] at owned

/-- A failed start keeps nothing registered. -/
theorem kept_listenErr {s : Server} (pool : s.pool = []) (nconn : s.nconn = serverConn + 1)
    (numbers : ∀ fd, (s.kernel.sock fd).isSome = true → 0 ≤ fd ∧ fd < 2 ^ 31)
    (unregistered : s.kernel.reg = Kernel.initial.reg) : Kept s.listenErr.roster := by
  refine kept_start (by simpa using pool) (by simpa using nconn) ?_ ?_
  · intro fd isOpen
    apply numbers fd
    rcases listenErr_cases s with same | ⟨_, closed⟩
    · rwa [same] at isOpen
    · rw [closed] at isOpen
      by_cases own : fd = (s.conns serverConn).fd
      · simp [Kernel.close, own] at isOpen
      · simpa [Kernel.close, Function.update_of_ne own] using isOpen
  · intro fd c owned
    rw [listenErr_reg unregistered] at owned
    contradiction

/-- A server with only its listening object, not connected, and no batch is orderly. -/
theorem orderly_start {srv : Server} {pc : Pc} {workers : List Worker} (kept : Kept srv.roster)
    (nconn : srv.nconn = serverConn + 1) (idle : (srv.conns serverConn).activity = .connclosed)
    (scheduled : Scheduled srv.roster srv.targets pc) : Orderly ⟨srv, pc, workers, []⟩ := by
  refine ⟨kept, fun c known connected => ?_, scheduled⟩
  have only : c = serverConn := by
    rw [nconn] at known
    exact Nat.lt_one_iff.mp known
  rw [only, idle] at connected
  contradiction

/-- A failed start is orderly. -/
theorem orderly_listenErr {srv : Server} (pool : srv.pool = []) (nconn : srv.nconn = serverConn + 1)
    (numbers : ∀ fd, (srv.kernel.sock fd).isSome = true → 0 ≤ fd ∧ fd < 2 ^ 31)
    (unregistered : srv.kernel.reg = Kernel.initial.reg)
    (idle : (srv.conns serverConn).activity = .connclosed) :
    Orderly ⟨srv.listenErr, .stopped, [], []⟩ := by
  apply orderly_start (kept_listenErr pool nconn numbers unregistered)
  · rw [listenErr_nconn, nconn]
  · rcases listenErr_cases srv with same | ⟨_, closed⟩
    · rw [same, idle]
    · rw [closed]
      simp
  · trivial

/-- Every server starts orderly. -/
theorem Started.orderly (started : Started s) : Orderly s := by
  obtain ⟨memory, event,
    failed | ⟨sock, nonnegative, small, failed | ⟨granted, workers, running⟩⟩⟩ := started.cases
  · rw [failed]
    apply orderly_listenErr rfl rfl _ rfl rfl
    intro fd isOpen
    exact absurd isOpen Bool.false_ne_true
  · rw [failed]
    apply orderly_listenErr rfl rfl _ rfl
    · simp [Server.listening, Server.serverCreate, connobjReset]
    · exact fun fd isOpen => listening_isOpen.mp isOpen ▸ ⟨nonnegative, small⟩
  · have isOpen : ∀ fd, ((((Server.listening memory event sock).epollEventAddConn serverConn epollIn
        granted).2).kernel.sock fd).isSome = true ↔ fd = sock := by
      intro fd
      have only : ((Server.listening memory event sock).kernel.sock fd).isSome = true ↔ fd = sock :=
        listening_isOpen
      rw [← only]
      unfold Server.epollEventAddConn Kernel.ctlAdd
      dsimp only
      split <;> rfl
    rw [running]
    refine orderly_start ?_ rfl ?_ trivial
    · refine kept_start rfl rfl ?_ ?_
      · exact fun fd opened => (isOpen fd).mp opened ▸ ⟨nonnegative, small⟩
      · intro fd c owned
        obtain ⟨rfl, rfl⟩ := listening_owner owned
        refine ⟨rfl, ?_, (isOpen _).mpr rfl⟩
        simp [Server.epollEventAddConn, Server.listening]
    · simp [Server.epollEventAddConn, Server.listening, Server.serverCreate, connobjReset]

/-- Every state of a disciplined run is orderly. -/
theorem orderly (reached : Reach EpollNet.step Disciplined Started s) : Orderly s :=
  reached.invariant (fun _ started => started.orderly) fun _ _ _ orderly disciplined stepped =>
    orderly.step disciplined (step_cases stepped)

/-- `StartServer` starts a server. -/
theorem startServer_started (memory : ConnPtr → ConnObj) (event : Nat → EpollEvent)
    (input : Server.ListenInput) : Started (startServer memory event input) :=
  ⟨memory, event, maxWorkThread, input, rfl⟩

/-! ## Sample runs -/

namespace Sample

/-- A server listening on descriptor 3. -/
def start : State :=
  startServer (fun _ => ⟨0, .connclosed, none, 0⟩) (fun _ => ⟨0, 0⟩)
    ⟨some 3, true, true, true, true⟩

/-- What one `read` of `event_read` meets, with its allocations succeeding. -/
def reading (script : List ReadAnswer) : Server.ReadInput := ⟨script, fun _ => 0, true, true⟩

/-- A connection is accepted, with nothing to read yet. -/
def connecting (fd : Fd) : List Label :=
  [.wait [(3, epollIn)], .test, .test, .accept ⟨[.ok ⟨fd, [], false⟩], true, true⟩,
    .sockopt (some 0), .read (reading [⟨[], .error .eagain⟩]), .write []]

/-- Bytes arrive and are read and queued as one item. -/
def delivering (fd : Fd) (bytes : List UInt8) : List Label :=
  [.wait [(fd, epollIn)], .test, .test, .sockopt (some 0),
    .read (reading [⟨[⟨fd, bytes, false⟩], .ok bytes.length⟩]), .push, .post, .write []]

/-- The end of the stream is read. -/
def closing (fd : Fd) : List Label :=
  [.wait [(fd, epollIn)], .test, .test, .sockopt (some 0), .read (reading [⟨[], .ok 0⟩]), .write []]

/-- A worker takes a token and reaches the call of `procread`. -/
def taking (w : Nat) : List Label := [.worker w, .worker w, .worker w]

/-- The sample server is one that `StartServer` may start. -/
theorem started : Started start := startServer_started _ _ _

end Sample

end EpollNet
