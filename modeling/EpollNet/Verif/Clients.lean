import EpollNet.Verif.Orderly

/-!
# Which client a descriptor belongs to

Every descriptor remembers the accept that returned it, and every connection object the accept
that last took it. In a disciplined run the two agree wherever a descriptor is registered for a
client's object, and a descriptor accept returned stays registered until it is closed.
-/

namespace EpollNet

open EpollNet.Basis

/-- The accept an open descriptor came from; zero for the listening socket. -/
def Kernel.clientOf (k : Kernel) (fd : Fd) : Option Nat := (k.sock fd).map Socket.client

/-- Descriptors and connection objects agree on their clients. -/
structure Attributed (s : State) : Prop where
  /-- A descriptor registered for a client's object came from the accept that took the object. -/
  named : ∀ fd c, s.srv.roster.owner fd = some c → c ≠ serverConn →
    s.srv.kernel.clientOf fd = some (s.srv.client c) ∧ s.srv.client c ≠ 0
  /-- An open descriptor that came from an accept is registered for a client's object. -/
  owned : ∀ fd n, s.srv.kernel.clientOf fd = some n → n ≠ 0 →
    ∃ c, c ≠ serverConn ∧ s.srv.roster.owner fd = some c
  /-- While the loops run, the listening object has an open descriptor that came from none. -/
  listener : s.reactor ≠ .stopped →
    s.srv.kernel.clientOf (s.srv.conns serverConn).fd = some 0

variable {s s' : State} {fr : Frame} {c : ConnPtr}

/-- A live client's descriptor is not the listening one. -/
theorem Attributed.fd_ne (attributed : Attributed s) (running : s.reactor ≠ .stopped)
    (live : s.srv.roster.Live c) (client : c ≠ serverConn) :
    (s.srv.conns serverConn).fd ≠ (s.srv.conns c).fd := by
  intro same
  obtain ⟨own, positive⟩ := attributed.named _ _ live client
  have listening := attributed.listener running
  rw [same] at listening
  exact positive (Option.some.inj (own.symm.trans listening))

/-- A step that changes no table, no accept and not the listening descriptor. -/
theorem Attributed.congr (attributed : Attributed s)
    (table : s.srv.kernel.SameTable s'.srv.kernel) (client : s'.srv.client = s.srv.client)
    (listening : (s'.srv.conns serverConn).fd = (s.srv.conns serverConn).fd)
    (running : s'.reactor ≠ .stopped → s.reactor ≠ .stopped) : Attributed s' where
  named := by
    intro fd p owned different
    rw [Kernel.clientOf, table.client, client]
    exact attributed.named fd p ((table.owner fd).symm.trans owned) different
  owned := by
    intro fd n own positive
    rw [Kernel.clientOf, table.client] at own
    obtain ⟨p, different, owned⟩ := attributed.owned fd n own positive
    exact ⟨p, different, (table.owner fd).trans owned⟩
  listener := by
    intro loops
    rw [listening, Kernel.clientOf, table.client]
    exact attributed.listener (running loops)

/-- A step that closes a live client's descriptor. -/
theorem Attributed.close (attributed : Attributed s) (running : s.reactor ≠ .stopped)
    (live : s.srv.roster.Live c) (different : c ≠ serverConn)
    (owner : s'.srv.roster.owner =
      Function.update s.srv.roster.owner (s.srv.conns c).fd none)
    (clientOf : s'.srv.kernel.clientOf =
      Function.update s.srv.kernel.clientOf (s.srv.conns c).fd none)
    (client : s'.srv.client = s.srv.client)
    (listening : (s'.srv.conns serverConn).fd = (s.srv.conns serverConn).fd) : Attributed s' where
  named := by
    intro fd p owned
    rw [owner] at owned
    rw [clientOf, client]
    by_cases same : fd = (s.srv.conns c).fd
    · simp [same] at owned
    · rw [Function.update_of_ne same] at owned ⊢
      exact attributed.named fd p owned
  owned := by
    intro fd n own
    rw [clientOf] at own
    rw [owner]
    by_cases same : fd = (s.srv.conns c).fd
    · simp [same] at own
    · rw [Function.update_of_ne same] at own ⊢
      exact attributed.owned fd n own
  listener := by
    intro _
    rw [listening, clientOf, Function.update_of_ne (attributed.fd_ne running live different)]
    exact attributed.listener running

/-- A closed descriptor belongs to nobody. -/
theorem clientOf_close (k : Kernel) (fd : Fd) :
    (k.close fd).clientOf = Function.update k.clientOf fd none := by
  funext x
  by_cases same : x = fd
  · simp [Kernel.clientOf, Kernel.close, same]
  · simp [Kernel.clientOf, Kernel.close, Function.update_of_ne same]

/-- `Server_Accept` that gave up after accepting. -/
theorem Attributed.dropped {inc : Kernel.Incoming} (attributed : Attributed s)
    (orderly : Orderly s) (at_accept : s.reactor = .accept fr) (free : s.srv.kernel.Free inc.fd)
    (nonzero : inc.fd ≠ 0) :
    Attributed { s with srv := s.srv.dropped inc, reactor := fr.resume } := by
  obtain ⟨_, _, unregistered⟩ := accepted_number orderly.kept free nonzero
  have running : s.reactor ≠ .stopped := by
    rw [at_accept]
    nofun
  rw [Server.dropped, Server.acceptErr_of_ne nonzero]
  exact attributed.congr (Server.sameTable_accepted_close free.2.2 unregistered) rfl rfl
    fun _ => running

/-- `Server_Accept` whose registration was refused. -/
theorem Attributed.refused {inc : Kernel.Incoming} {rest : List ConnPtr} {nconn : ConnPtr}
    (attributed : Attributed s) (orderly : Orderly s) (at_accept : s.reactor = .accept fr)
    (free : s.srv.kernel.Free inc.fd) (nonzero : inc.fd ≠ 0)
    (next : s.srv.roster.Next c rest nconn) :
    Attributed { s with srv := s.srv.refused inc c rest nconn, reactor := fr.resume } := by
  obtain ⟨_, _, unregistered⟩ := accepted_number orderly.kept free nonzero
  have table := Server.sameTable_accepted_close free.2.2 unregistered
  have client : c ≠ serverConn := orderly.kept.next_ne next
  have idle := next.not_live orderly.kept.sound
  have running : s.reactor ≠ .stopped := by
    rw [at_accept]
    nofun
  have others : ∀ fd p, s.srv.roster.owner fd = some p → p ≠ c := by
    rintro fd _ owned rfl
    exact idle (orderly.kept.sound.owner_live owned)
  rw [Server.refused, Server.acceptErr_of_ne nonzero]
  constructor
  · intro fd p owned different
    have old : s.srv.roster.owner fd = some p := (table.owner fd).symm.trans owned
    have same : ((Server.acceptedKernel s.srv.kernel inc).close inc.fd).clientOf fd =
        s.srv.kernel.clientOf fd := table.client fd
    show ((Server.acceptedKernel s.srv.kernel inc).close inc.fd).clientOf fd =
        some (Function.update s.srv.client c _ p) ∧ Function.update s.srv.client c _ p ≠ 0
    rw [Function.update_of_ne (others fd p old), same]
    exact attributed.named fd p old different
  · intro fd n own positive
    have old : s.srv.kernel.clientOf fd = some n := (table.client fd).symm.trans own
    obtain ⟨p, different, owned⟩ := attributed.owned fd n old positive
    exact ⟨p, different, (table.owner fd).trans owned⟩
  · intro _
    have listening := attributed.listener running
    simp only [Server.setConn, Server.acceptedConn, Function.update_of_ne client.symm]
    exact (table.client _).trans listening

/-- `Server_Accept` that returned a connection. -/
theorem Attributed.admitted {inc : Kernel.Incoming} {rest : List ConnPtr} {nconn : ConnPtr}
    (attributed : Attributed s) (orderly : Orderly s) (at_accept : s.reactor = .accept fr)
    (free : s.srv.kernel.Free inc.fd) (next : s.srv.roster.Next c rest nconn) :
    Attributed { s with srv := s.srv.admitted inc c rest nconn, reactor := .sockopt fr c } := by
  have client : c ≠ serverConn := orderly.kept.next_ne next
  have idle := next.not_live orderly.kept.sound
  have running : s.reactor ≠ .stopped := by
    rw [at_accept]
    nofun
  have owner : (s.srv.admitted inc c rest nconn).roster.owner =
      Function.update s.srv.roster.owner inc.fd (some c) :=
    congrArg Roster.owner (s.srv.roster_admitted inc c rest nconn)
  have clientOf : (s.srv.admitted inc c rest nconn).kernel.clientOf =
      Function.update s.srv.kernel.clientOf inc.fd (some (s.srv.kernel.accepted + 1)) := by
    funext x
    by_cases same : x = inc.fd
    · simp [Kernel.clientOf, Server.admitted, Kernel.register, Server.acceptedKernel, same]
    · simp [Kernel.clientOf, Server.admitted, Kernel.register, Server.acceptedKernel, same]
  have closed : s.srv.kernel.clientOf inc.fd = none := by
    rw [Kernel.clientOf, free.2.2]
    rfl
  constructor
  · intro fd p owned different
    show (s.srv.admitted inc c rest nconn).kernel.clientOf fd =
        some (Function.update s.srv.client c (s.srv.kernel.accepted + 1) p) ∧
      Function.update s.srv.client c (s.srv.kernel.accepted + 1) p ≠ 0
    simp only [owner] at owned
    rw [clientOf]
    by_cases same : fd = inc.fd
    · rw [same, Function.update_self, Option.some.injEq] at owned
      subst owned
      simp [same]
    · rw [Function.update_of_ne same] at owned ⊢
      have distinct : p ≠ c := by
        rintro rfl
        exact idle (orderly.kept.sound.owner_live owned)
      rw [Function.update_of_ne distinct]
      exact attributed.named fd p owned different
  · intro fd n own positive
    simp only [clientOf] at own
    simp only [owner]
    by_cases same : fd = inc.fd
    · exact ⟨c, client, by rw [same, Function.update_self]⟩
    · rw [Function.update_of_ne same] at own ⊢
      exact attributed.owned fd n own positive
  · intro _
    have listening := attributed.listener running
    have apart : (s.srv.conns serverConn).fd ≠ inc.fd := by
      intro same
      rw [same, closed] at listening
      contradiction
    simp only [clientOf]
    simp only [Server.admitted, Server.acceptedConn, Function.update_of_ne client.symm]
    rw [Function.update_of_ne apart]
    exact listening

/-- A registration change of a settled object changes no table. -/
theorem sameTable_store {s : Server} {k : Kernel} {c : ConnPtr} {obj : ConnObj} {heap : Heap}
    {sent : List (ConnPtr × Nat × Buf)} (table : s.kernel.SameTable k)
    (fd : obj.fd = (s.conns c).fd) (settled : s.roster.Settled c) (flags : BitVec 32) :
    s.kernel.SameTable (({ s with
      kernel := k, heap, conns := Function.update s.conns c obj, sent } :
        Server).epollEventModifyConn c flags).2.kernel := by
  refine table.trans (Kernel.sameTable_ctlMod ?_)
  intro isOpen _
  simp only [Function.update_self, fd] at isOpen ⊢
  rw [table.isOpen] at isOpen
  rw [table.owner]
  exact settled.live isOpen

/-- Every disciplined step keeps descriptors and objects in agreement. -/
theorem Attributed.step {l : Label} (attributed : Attributed s) (orderly : Orderly s)
    (disciplined : Disciplined s l) (stepped : Step s l s') : Attributed s' := by
  have scheduled := orderly.scheduled
  -- outside `stopped` the reactor was running before
  have loops : ∀ {pc : Pc}, s.reactor = pc → pc ≠ .stopped → s.reactor ≠ .stopped := by
    rintro _ rfl running
    exact running
  cases stepped with
  | waited at_blocked _ =>
    exact attributed.congr ⟨fun _ => rfl, fun _ => rfl⟩ rfl rfl fun _ => loops at_blocked nofun
  | tested at_test => exact attributed.congr (.refl _) rfl rfl fun _ => loops at_test nofun
  | acceptLooping at_accept =>
    exact attributed.congr (.refl _) rfl rfl fun _ => loops at_accept nofun
  | acceptNone at_accept => exact attributed.congr (.refl _) rfl rfl fun _ => loops at_accept nofun
  | acceptDropped at_accept offered free =>
    exact attributed.dropped orderly at_accept free (disciplined (.ok _) offered)
  | acceptRefused at_accept offered free next _ =>
    exact attributed.refused orderly at_accept free (disciplined (.ok _) offered) next
  | acceptAdmitted at_accept offered free next =>
    exact attributed.admitted orderly at_accept free next
  | sockoptFailed at_sockopt _ =>
    exact attributed.congr (Server.sameTable_log ..) rfl rfl fun _ => loops at_sockopt nofun
  | sockoptConnected at_sockopt isOpen =>
    exact attributed.congr (Server.sameTable_log ..) rfl (Server.fd_update (by rfl) _)
      fun _ => loops at_sockopt nofun
  | @sockoptSevered fr c val at_sockopt isOpen _ =>
    rw [at_sockopt] at scheduled
    apply attributed.close (loops at_sockopt nofun) (scheduled.settled.live isOpen) scheduled.client
    · exact congrArg Roster.owner (s.srv.roster_severed c)
    · exact clientOf_close _ _
    · rfl
    · exact Server.fd_update (by rfl) _
  | readSkipped at_read _ => exact attributed.congr (.refl _) rfl rfl fun _ => loops at_read nofun
  | readLooping at_read _ _ =>
    exact attributed.congr (s.srv.sameTable_received ..) rfl rfl fun _ => loops at_read nofun
  | @readEnded fr c input at_read _ returned =>
    obtain ⟨client, live, positive⟩ := orderly.reading at_read returned
    apply attributed.close (loops at_read nofun) live client
    · have roster := Server.roster_hangUp positive
      rw [Server.roster_received] at roster
      exact congrArg Roster.owner roster
    · simp only [Server.hangUp_eq positive, clientOf_close, Server.received_conns]
      funext x
      by_cases same : x = (s.srv.conns c).fd
      · rw [same, Function.update_self, Function.update_self]
      · rw [Function.update_of_ne same, Function.update_of_ne same, Kernel.clientOf,
          Server.ctlDel_sock]
        exact (s.srv.sameTable_received c input).client x
    · simp only [Server.hangUp_eq positive]
      rfl
    · simp only [Server.hangUp_eq positive, Function.update_of_ne client.symm]
      rfl
  | readFinished at_read _ _ _ _ =>
    exact attributed.congr (s.srv.sameTable_received ..) rfl rfl fun _ => loops at_read nofun
  | readItem at_read _ _ _ _ _ _ _ =>
    exact attributed.congr (s.srv.sameTable_received ..) rfl rfl fun _ => loops at_read nofun
  | pushed at_push => exact attributed.congr (.refl _) rfl rfl fun _ => loops at_push nofun
  | posted at_post => exact attributed.congr (.refl _) rfl rfl fun _ => loops at_post nofun
  | writeIdle at_write => exact attributed.congr (.refl _) rfl rfl fun _ => loops at_write nofun
  | writeLooping at_write _ _ _ =>
    exact attributed.congr (sameTable_sendData ..) rfl rfl fun _ => loops at_write nofun
  | written at_write _ _ _ fd _ _ =>
    rw [at_write] at scheduled
    exact attributed.congr (sameTable_store (sameTable_sendData ..) fd scheduled.settled _) rfl
      (Server.fd_update fd _) fun _ => loops at_write nofun
  | arrived => exact attributed.congr (Kernel.sameTable_arrive ..) rfl rfl id
  | sendIdle => exact attributed
  | sent known _ connected fd _ _ =>
    have live := orderly.connected _ known connected
    exact attributed.congr (sameTable_store (.refl _) fd (.inl live) _) rfl
      (Server.fd_update fd _) id
  | worker moved =>
    obtain ⟨reactor, rqueue, sem, heap, srv⟩ := moved.frame
    apply attributed.congr
    · rw [srv]
      exact .refl _
    · rw [srv]
    · rw [srv]
    · rw [reactor]
      exact id
  | interrupted _ => exact attributed.congr (.refl _) rfl rfl id

/-! ## Runs -/

/-- A server that accepted nothing yet is attributed. -/
theorem attributed_start {srv : Server} {pc : Pc} {workers : List Worker}
    (owner : ∀ fd c, srv.roster.owner fd = some c → c = serverConn)
    (clientOf : ∀ fd n, srv.kernel.clientOf fd = some n → n = 0)
    (listener : pc ≠ .stopped → srv.kernel.clientOf (srv.conns serverConn).fd = some 0) :
    Attributed ⟨srv, pc, workers, []⟩ where
  named := fun fd c owned different => absurd (owner fd c owned) different
  owned := fun fd n own positive => absurd (clientOf fd n own) positive
  listener := listener

/-- A failed start is attributed. -/
theorem attributed_listenErr {srv : Server} (unregistered : srv.kernel.reg = Kernel.initial.reg)
    (clientOf : ∀ fd n, srv.kernel.clientOf fd = some n → n = 0) :
    Attributed ⟨srv.listenErr, .stopped, [], []⟩ := by
  apply attributed_start _ _ (absurd rfl)
  · intro fd c owned
    rw [Server.roster_owner, listenErr_reg unregistered] at owned
    contradiction
  · intro fd n own
    rcases listenErr_cases srv with same | ⟨_, closed⟩
    · rw [same] at own
      exact clientOf fd n own
    · rw [closed, clientOf_close] at own
      by_cases equal : fd = (srv.conns serverConn).fd
      · simp [equal] at own
      · rw [Function.update_of_ne equal] at own
        exact clientOf fd n own

/-- The listening socket came from no accept. -/
theorem clientOf_listening {memory : ConnPtr → ConnObj} {event : Nat → EpollEvent} {sock fd : Fd}
    {n : Nat} (own : (Server.listening memory event sock).kernel.clientOf fd = some n) :
    n = 0 := by
  by_cases same : fd = sock
  · simpa [Kernel.clientOf, Server.listening, same, eq_comm] using own
  · simp [Kernel.clientOf, Server.listening, same, Kernel.initial] at own

/-- Every server starts attributed. -/
theorem Started.attributed (started : Started s) : Attributed s := by
  obtain ⟨memory, event, failed | ⟨sock, _, _, failed | ⟨granted, workers, running⟩⟩⟩ :=
    started.cases
  · rw [failed]
    refine attributed_listenErr rfl fun fd n own => ?_
    simp [Kernel.clientOf, Server.serverCreate, Kernel.initial] at own
  · rw [failed]
    exact attributed_listenErr rfl fun fd n => clientOf_listening
  · have sockets : (((Server.listening memory event sock).epollEventAddConn serverConn epollIn
        granted).2).kernel.sock = (Server.listening memory event sock).kernel.sock := by
      unfold Server.epollEventAddConn Kernel.ctlAdd
      dsimp only
      split <;> rfl
    rw [running]
    apply attributed_start
    · exact fun fd c owned => (listening_owner owned).2
    · intro fd n own
      rw [Kernel.clientOf, sockets] at own
      exact clientOf_listening own
    · intro _
      rw [Kernel.clientOf, sockets]
      simp [Server.epollEventAddConn, Server.listening]

/-- Every state of a disciplined run is attributed. -/
theorem attributed (reached : Reach EpollNet.step Disciplined Started s) : Attributed s := by
  have both : Orderly s ∧ Attributed s := by
    apply reached.invariant
    · exact fun _ started => ⟨started.orderly, started.attributed⟩
    · intro s l s' inv disciplined stepped
      have cases := step_cases stepped
      exact ⟨inv.1.step disciplined cases, inv.2.step inv.1 disciplined cases⟩
  exact both.2

end EpollNet
