import EpollNet.Verif.Orderly

/-!
# The server works with objects that exist

Without any discipline on senders or on descriptor numbers: the pool, the registrations, the
rest of the batch and the reactor's callback name connection objects that were created. What
is not created yet is memory with arbitrary contents, so facts about what the objects hold are
facts about created objects, and the results about memory start from here.
-/

namespace EpollNet

open EpollNet.Basis

/-! ## The server -/

/-- The pool and the registrations name objects that were created. -/
structure Server.Existing (s : Server) : Prop where
  /-- The listening object was created. -/
  created : serverConn < s.nconn
  /-- Pooled objects were created. -/
  pooled : ∀ c ∈ s.pool, c < s.nconn
  /-- Registered objects were created. -/
  registered : ∀ fd c, s.roster.owner fd = some c → c < s.nconn

/-- A change under which new names are those of created objects. -/
theorem Server.Existing.grow {s s' : Server} (existing : s.Existing) (nconn : s.nconn ≤ s'.nconn)
    (pool : ∀ c ∈ s'.pool, c ∈ s.pool ∨ c < s'.nconn)
    (owner : ∀ fd c, s'.roster.owner fd = some c → s.roster.owner fd = some c ∨ c < s'.nconn) :
    s'.Existing := by
  constructor
  · exact lt_of_lt_of_le existing.created nconn
  · intro c member
    rcases pool c member with old | known
    · exact lt_of_lt_of_le (existing.pooled c old) nconn
    · exact known
  · intro fd c owned
    rcases owner fd c owned with old | known
    · exact lt_of_lt_of_le (existing.registered fd c old) nconn
    · exact known

/-- A change of other memory. -/
theorem Server.Existing.congr {s s' : Server} (existing : s.Existing) (nconn : s'.nconn = s.nconn)
    (pool : s'.pool = s.pool)
    (owner : ∀ fd c, s'.roster.owner fd = some c → s.roster.owner fd = some c) : s'.Existing :=
  existing.grow (le_of_eq nconn.symm) (fun _ member => .inl (pool ▸ member))
    fun fd c owned => .inl (owner fd c owned)

/-- The next object to lend exists afterwards. -/
theorem Server.Existing.next_lt {s : Server} {c : ConnPtr} {rest : List ConnPtr} {nconn : ConnPtr}
    (existing : s.Existing) (next : s.roster.Next c rest nconn) : c < nconn := by
  cases next with
  | pooled queue =>
    rw [Server.roster_pool] at queue
    exact existing.pooled c (queue ▸ List.mem_cons_self)
  | fresh _ => exact Nat.lt_succ_self _

/-- What stays in the pool when the next object is lent was there before. -/
theorem Basis.Roster.Next.mem_rest {r : Roster Fd} {c p : ConnPtr} {rest : List ConnPtr}
    {size : Nat} (next : r.Next c rest size) (member : p ∈ rest) : p ∈ r.pool := by
  cases next with
  | pooled queue => exact queue ▸ List.mem_cons_of_mem _ member
  | fresh _ => contradiction

/-- Closing a descriptor registers nothing. -/
theorem owner_close {k : Kernel} {closed fd : Fd} {c : ConnPtr}
    (owned : ((k.close closed).reg fd).map EpollEvent.ptr = some c) :
    (k.reg fd).map EpollEvent.ptr = some c := by
  by_cases same : fd = closed
  · subst same
    simp [Kernel.close] at owned
  · simp only [Kernel.close, Function.update_of_ne same] at owned
    exact owned

/-- A registration change registers its own object or none. -/
theorem owner_modify {s : Server} {c p : ConnPtr} {flags : BitVec 32} {fd : Fd}
    (owned : (s.epollEventModifyConn c flags).2.roster.owner fd = some p) :
    s.roster.owner fd = some p ∨ p = c := by
  simp only [Server.roster_owner, Server.epollEventModifyConn] at owned
  unfold Kernel.ctlMod at owned
  split at owned
  · by_cases same : fd = (s.conns c).fd
    · subst same
      simp only [Kernel.register, Function.update_self, Option.map_some,
        Option.some.injEq] at owned
      exact .inr owned.symm
    · simp only [Kernel.register, Function.update_of_ne same] at owned
      exact .inl owned
  · exact .inl owned

/-- A registration change on a created object. -/
theorem Server.Existing.modify {s : Server} {c : ConnPtr} (existing : s.Existing)
    (known : c < s.nconn) (flags : BitVec 32) : (s.epollEventModifyConn c flags).2.Existing := by
  refine existing.grow (le_refl _) (fun _ member => .inl member) fun fd p owned => ?_
  rcases owner_modify owned with old | rfl
  · exact .inl old
  · exact .inr known

/-- An accept that found no object touches the kernel only. -/
theorem Server.dropped_frame (s : Server) (inc : Kernel.Incoming) :
    ∃ kernel, (∀ fd p, (kernel.reg fd).map EpollEvent.ptr = some p →
        (s.kernel.reg fd).map EpollEvent.ptr = some p) ∧
      s.dropped inc = { s with kernel } := by
  unfold Server.dropped Server.acceptErr
  split
  · exact ⟨(Server.acceptedKernel s.kernel inc).close inc.fd,
      fun _ _ owned => owner_close owned, rfl⟩
  · exact ⟨Server.acceptedKernel s.kernel inc, fun _ _ owned => owned, rfl⟩

/-- The end of a connection touches the kernel, the pool and the object's state. -/
theorem Server.hangUp_frame (s : Server) (c : ConnPtr) :
    ∃ kernel obj, obj.sendptr = (s.conns c).sendptr ∧
      (∀ fd p, (kernel.reg fd).map EpollEvent.ptr = some p →
        (s.kernel.reg fd).map EpollEvent.ptr = some p) ∧
      s.hangUp c = { s with
        kernel, conns := Function.update s.conns c obj, pool := s.pool ++ [c] } := by
  have deleted : ∀ fd p, ((s.kernel.ctlDel (s.conns c).fd).2.reg fd).map EpollEvent.ptr = some p →
      (s.kernel.reg fd).map EpollEvent.ptr = some p := by
    intro fd p owned
    by_cases same : fd = (s.conns c).fd
    · subst same
      unfold Kernel.ctlDel at owned
      split at owned
      · simp at owned
      · exact owned
    · rwa [Server.ctlDel_reg_of_ne _ same] at owned
  by_cases positive : 0 < (s.conns c).fd
  · rw [Server.hangUp_eq positive]
    exact ⟨_, { s.conns c with activity := .connclosed, fd := -1, sendlen := 0 }, rfl,
      fun fd p owned => deleted fd p (owner_close owned), rfl⟩
  · refine ⟨(s.kernel.ctlDel (s.conns c).fd).2, connobjReset (s.conns c), rfl, deleted, ?_⟩
    simp [Server.hangUp, Server.epollEventDelConn, Server.closeConnObj, positive, Server.setConn,
      dataQueuePush]

/-- A refused accept gives the next object back to the pool. -/
theorem Server.refused_frame (s : Server) (inc : Kernel.Incoming) (c : ConnPtr)
    (rest : List ConnPtr) (nconn : ConnPtr) :
    ∃ kernel obj, obj.sendptr = (s.takenConn c).sendptr ∧
      (∀ fd p, (kernel.reg fd).map EpollEvent.ptr = some p →
        (s.kernel.reg fd).map EpollEvent.ptr = some p) ∧
      s.refused inc c rest nconn = { s with
        kernel, nconn
        conns := Function.update s.conns c obj
        pool := rest ++ [c]
        event := Function.update s.event 0 ⟨Server.acceptMask, c⟩
        client := Function.update s.client c (s.kernel.accepted + 1) } := by
  have conns : ((s.acceptedConn inc c rest nconn).setConn c).conns = Function.update s.conns c
      (connobjReset { s.takenConn c with fd := inc.fd, activity := .connecting }) := by
    simp [Server.setConn, Server.acceptedConn]
  by_cases zero : inc.fd = 0
  · refine ⟨(Server.acceptedKernel s.kernel inc).log (.epollCtl inc.fd),
      connobjReset { s.takenConn c with fd := inc.fd, activity := .connecting }, rfl,
      fun _ _ owned => owned, ?_⟩
    rw [← conns]
    simp only [Server.refused, Server.acceptErr, zero, ne_eq, not_true_eq_false, if_false]
    rfl
  · refine ⟨((Server.acceptedKernel s.kernel inc).log (.epollCtl inc.fd)).close inc.fd,
      connobjReset { s.takenConn c with fd := inc.fd, activity := .connecting }, rfl,
      fun _ _ owned => owner_close owned, ?_⟩
    rw [← conns]
    simp only [Server.refused, Server.acceptErr, zero, ne_eq, not_false_eq_true, if_true]
    rfl

/-- A refused accept names the object it gave back. -/
theorem Server.Existing.refused {s : Server} {inc : Kernel.Incoming} {c : ConnPtr}
    {rest : List ConnPtr} {nconn : ConnPtr} (existing : s.Existing)
    (next : s.roster.Next c rest nconn) : (s.refused inc c rest nconn).Existing := by
  obtain ⟨kernel, obj, _, owner, refused⟩ := s.refused_frame inc c rest nconn
  have lent := existing.next_lt next
  rw [refused]
  refine existing.grow next.size_le (fun p member => ?_) fun fd p owned => .inl (owner fd p owned)
  rcases List.mem_append.mp member with kept | own
  · exact .inl (next.mem_rest kept)
  · exact .inr (List.mem_singleton.mp own ▸ lent)

/-- An admitted accept registers the object it took. -/
theorem Server.Existing.admitted {s : Server} {inc : Kernel.Incoming} {c : ConnPtr}
    {rest : List ConnPtr} {nconn : ConnPtr} (existing : s.Existing)
    (next : s.roster.Next c rest nconn) : (s.admitted inc c rest nconn).Existing := by
  refine existing.grow next.size_le (fun p member => .inl (next.mem_rest member))
    fun fd p owned => ?_
  rw [Server.roster_admitted] at owned
  by_cases same : fd = inc.fd
  · subst same
    simp only [Roster.lend, Function.update_self, Option.some.injEq] at owned
    exact .inr (owned ▸ existing.next_lt next)
  · simp only [Roster.lend, Function.update_of_ne same] at owned
    exact .inl owned

/-- A receiving loop registers nothing. -/
theorem Server.Existing.received {s : Server} (existing : s.Existing) (c : ConnPtr)
    (input : Server.ReadInput) : (s.received c input).Existing := by
  refine existing.congr rfl rfl fun fd p owned => ?_
  rwa [Server.roster_received] at owned

/-- The end of a connection gives its object to the pool. -/
theorem Server.Existing.hangUp {s : Server} {c : ConnPtr} (existing : s.Existing)
    (known : c < s.nconn) : (s.hangUp c).Existing := by
  obtain ⟨kernel, obj, _, owner, ended⟩ := s.hangUp_frame c
  rw [ended]
  refine existing.grow (le_refl _) (fun p member => ?_) fun fd p owned => .inl (owner fd p owned)
  rcases List.mem_append.mp member with kept | own
  · exact .inl kept
  · exact .inr (List.mem_singleton.mp own ▸ known)

/-- A sending loop registers nothing. -/
theorem Server.Existing.sending {s : Server} (existing : s.Existing) (c : ConnPtr) (b : Buf)
    (script : List (Except Errno Nat)) : (s.sending c b script).Existing := by
  refine existing.congr rfl rfl fun fd p owned => ?_
  have table : s.kernel.SameTable (s.sending c b script).kernel := sameTable_sendData ..
  rw [Server.roster_owner, ← table.owner fd]
  exact owned

/-! ## The reactor -/

/-- The frame is at an entry of its batch and the batch names objects below `size`. -/
def Frame.Within (ptr : Nat → ConnPtr) (size : ConnPtr) (fr : Frame) : Prop :=
  fr.i < fr.n ∧ ∀ j, j < fr.n → ptr j < size

/-- The reactor is at an entry of its batch, and serves an object below `size`. -/
def Pc.Within (ptr : Nat → ConnPtr) (size : ConnPtr) : Pc → Prop
  | .test fr | .accept fr => fr.Within ptr size
  | .sockopt fr c | .read fr c | .push fr c _ | .post fr c | .write fr c =>
    c < size ∧ fr.Within ptr size
  | .blocked | .inHandler | .stopped => True

variable {ptr ptr' : Nat → ConnPtr} {size size' : ConnPtr} {fr : Frame} {c : ConnPtr}

/-- A frame stays within when objects are created and named. -/
theorem Frame.Within.mono (within : fr.Within ptr size) (grown : size ≤ size')
    (named : ∀ j, ptr' j = ptr j ∨ ptr' j < size') : fr.Within ptr' size' := by
  refine ⟨within.1, fun j inside => ?_⟩
  rcases named j with same | known
  · rw [same]
    exact lt_of_lt_of_le (within.2 j inside) grown
  · exact known

/-- So does the reactor. -/
theorem Pc.Within.mono {pc : Pc} (within : pc.Within ptr size) (grown : size ≤ size')
    (named : ∀ j, ptr' j = ptr j ∨ ptr' j < size') : pc.Within ptr' size' := by
  cases pc with
  | test _ => exact Frame.Within.mono within grown named
  | accept _ => exact Frame.Within.mono within grown named
  | sockopt _ _ => exact ⟨lt_of_lt_of_le within.1 grown, within.2.mono grown named⟩
  | read _ _ => exact ⟨lt_of_lt_of_le within.1 grown, within.2.mono grown named⟩
  | push _ _ _ => exact ⟨lt_of_lt_of_le within.1 grown, within.2.mono grown named⟩
  | post _ _ => exact ⟨lt_of_lt_of_le within.1 grown, within.2.mono grown named⟩
  | write _ _ => exact ⟨lt_of_lt_of_le within.1 grown, within.2.mono grown named⟩
  | blocked => trivial
  | inHandler => trivial
  | stopped => trivial

/-- A store of a known object into the first entry keeps a frame within. -/
theorem Frame.Within.store (within : fr.Within ptr size) (grown : size ≤ size')
    (known : c < size') : fr.Within (Function.update ptr 0 c) size' := by
  apply within.mono grown
  intro j
  by_cases first : j = 0
  · exact .inr (by rwa [first, Function.update_self])
  · exact .inl (Function.update_of_ne first _ _)

/-- So does the reactor. -/
theorem Pc.Within.store {pc : Pc} (within : pc.Within ptr size) (known : c < size) :
    pc.Within (Function.update ptr 0 c) size := by
  apply within.mono (le_refl _)
  intro j
  by_cases first : j = 0
  · exact .inr (by rwa [first, Function.update_self])
  · exact .inl (Function.update_of_ne first _ _)

/-- Returning from a test or a callback stays in the batch. -/
theorem Frame.Within.resume (within : fr.Within ptr size) : fr.resume.Within ptr size := by
  unfold Frame.resume
  split
  · exact within
  · split
    · exact ⟨‹_›, within.2⟩
    · trivial

/-- A test serves an object of the batch. -/
theorem Frame.Within.dispatch {event : Nat → EpollEvent} (within : fr.Within ptr size)
    (targets : ∀ j, (event j).ptr = ptr j) : (fr.dispatch event).Within ptr size := by
  have enter : ∀ events, ({ fr with events }.enter (event fr.i).ptr).Within ptr size := by
    intro events
    unfold Frame.enter
    split
    · exact within
    · exact ⟨targets fr.i ▸ within.2 fr.i within.1, within⟩
  unfold Frame.dispatch
  split
  · split
    · exact enter _
    · exact within.resume
  · dsimp only
    split
    · exact enter _
    · refine Frame.Within.resume ?_
      exact within

/-! ## Runs -/

/-- Whatever the server works with was created. -/
structure Known (s : State) : Prop where
  /-- The server's part. -/
  existing : s.srv.Existing
  /-- The reactor's part. -/
  within : s.reactor.Within s.srv.targets s.srv.nconn

/-- The entries of a batch the kernel reports name registered objects. -/
theorem within_epollWait {s : Server} {batch : List (Fd × BitVec 32)} (existing : s.Existing)
    (reports : s.kernel.Reports batch) :
    (Pc.begin batch.length).Within (s.epollWait batch).targets s.nconn := by
  unfold Pc.begin
  split
  · refine ⟨‹_›, fun j inside => ?_⟩
    obtain ⟨ev, found⟩ :=
      Option.isSome_iff_exists.mp (reports.2 _ (List.getElem_mem inside))
    have named : (s.epollWait batch).targets j = ev.ptr := by
      simp [Server.targets, Server.epollWait, List.getElem?_eq_getElem inside, found]
    rw [named]
    exact existing.registered batch[j].1 ev.ptr (by simp [found])
  · trivial

/-- Every step works with created objects. -/
theorem Known.step {s s' : State} {l : Label} (known : Known s) (stepped : Step s l s') :
    Known s' := by
  obtain ⟨existing, within⟩ := known
  cases stepped with
  | waited _ reports =>
    exact ⟨existing.congr rfl rfl fun _ _ owned => owned, within_epollWait existing reports⟩
  | tested at_test =>
    rw [at_test] at within
    exact ⟨existing, Frame.Within.dispatch within fun _ => rfl⟩
  | acceptLooping _ => exact ⟨existing, trivial⟩
  | acceptNone at_accept =>
    rw [at_accept] at within
    exact ⟨existing, Frame.Within.resume within⟩
  | @acceptDropped fr input inc at_accept _ _ =>
    rw [at_accept] at within
    obtain ⟨kernel, owner, dropped⟩ := s.srv.dropped_frame inc
    rw [dropped]
    exact ⟨existing.congr rfl rfl owner, Frame.Within.resume within⟩
  | @acceptRefused fr input inc c rest nconn at_accept _ _ next _ =>
    rw [at_accept] at within
    obtain ⟨kernel, obj, _, _, refused⟩ := s.srv.refused_frame inc c rest nconn
    have targets : (s.srv.refused inc c rest nconn).targets =
        Function.update s.srv.targets 0 c := by
      rw [refused]
      funext j
      by_cases first : j = 0 <;> simp [Server.targets, first]
    refine ⟨existing.refused next, ?_⟩
    dsimp only
    rw [targets, refused]
    exact Frame.Within.resume (Frame.Within.store within next.size_le (existing.next_lt next))
  | @acceptAdmitted fr input inc c rest nconn at_accept _ _ next =>
    rw [at_accept] at within
    have lent := existing.next_lt next
    refine ⟨existing.admitted next, ?_⟩
    dsimp only
    rw [Server.targets_admitted]
    exact ⟨lent, Frame.Within.store within next.size_le lent⟩
  | sockoptFailed at_sockopt _ =>
    rw [at_sockopt] at within
    exact ⟨existing.congr rfl rfl fun _ _ owned => owned, Frame.Within.resume within.2⟩
  | sockoptConnected at_sockopt _ =>
    rw [at_sockopt] at within
    exact ⟨existing.congr rfl rfl fun _ _ owned => owned, within⟩
  | sockoptSevered at_sockopt _ _ =>
    rw [at_sockopt] at within
    exact ⟨existing.congr rfl rfl fun _ _ owned => owner_close owned, within⟩
  | readSkipped at_read _ =>
    rw [at_read] at within
    exact ⟨existing, within⟩
  | @readLooping fr c input _ _ _ => exact ⟨existing.received c input, trivial⟩
  | @readEnded fr c input at_read _ _ =>
    rw [at_read] at within
    have ended := (existing.received c input).hangUp within.1
    obtain ⟨kernel, obj, _, _, same⟩ := (s.srv.received c input).hangUp_frame c
    rw [same] at ended ⊢
    exact ⟨ended, within⟩
  | @readFinished fr c input _ _ at_read _ _ _ _ =>
    rw [at_read] at within
    exact ⟨(existing.received c input).congr rfl rfl fun _ _ owned => owned, within⟩
  | @readItem fr c input _ _ _ at_read _ _ _ _ _ _ _ =>
    rw [at_read] at within
    exact ⟨(existing.received c input).congr rfl rfl fun _ _ owned => owned, within⟩
  | pushed at_push =>
    rw [at_push] at within
    exact ⟨existing.congr rfl rfl fun _ _ owned => owned, within⟩
  | posted at_post =>
    rw [at_post] at within
    exact ⟨existing.congr rfl rfl fun _ _ owned => owned, within⟩
  | writeIdle at_write =>
    rw [at_write] at within
    exact ⟨existing, Frame.Within.resume within.2⟩
  | @writeLooping fr c script b _ _ _ _ => exact ⟨existing.sending c b script, trivial⟩
  | @written fr c script b heap obj flags at_write _ _ _ _ _ _ =>
    rw [at_write] at within
    have sent : ({ s.srv with
        kernel := (sendData (s.srv.conns c) b script s.srv.kernel).kernel
        heap
        conns := Function.update s.srv.conns c obj } : Server).Existing :=
      (existing.sending c b script).congr rfl rfl fun _ _ owned => owned
    refine ⟨sent.modify within.1 flags, ?_⟩
    dsimp only
    rw [Server.targets_modify]
    exact Frame.Within.resume (Frame.Within.store within.2 (le_refl _) within.1)
  | arrived =>
    refine ⟨existing.congr rfl rfl fun fd p owned => ?_, within⟩
    rwa [Server.roster_owner, Kernel.arrive_reg] at owned
  | sendIdle => exact ⟨existing, within⟩
  | @sent c data len granted heap obj sent known _ _ _ _ _ =>
    have stored : ({ s.srv with heap, conns := Function.update s.srv.conns c obj, sent } :
        Server).Existing := existing.congr rfl rfl fun _ _ owned => owned
    refine ⟨stored.modify known _, ?_⟩
    dsimp only
    rw [Server.targets_modify]
    exact within.store known
  | worker moved =>
    obtain ⟨reactor, rqueue, sem, heap, srv⟩ := moved.frame
    refine ⟨?_, ?_⟩
    · rw [srv]
      exact existing.congr rfl rfl fun _ _ owned => owned
    · rw [reactor, srv]
      exact within
  | interrupted _ => exact ⟨existing, within⟩

/-- A server starts with the listening object only. -/
theorem Started.known {s : State} (started : Started s) : Known s := by
  have listenErr : ∀ srv : Server, srv.nconn = serverConn + 1 → srv.pool = [] →
      srv.kernel.reg = Kernel.initial.reg → srv.listenErr.Existing := by
    intro srv nconn pool unregistered
    refine ⟨?_, fun c member => ?_, fun fd c owned => ?_⟩
    · rw [listenErr_nconn, nconn]
      exact Nat.lt_succ_self _
    · rw [listenErr_pool, pool] at member
      contradiction
    · rw [Server.roster_owner, listenErr_reg unregistered] at owned
      contradiction
  obtain ⟨memory, event, failed | ⟨sock, _, _, failed | ⟨granted, workers, running⟩⟩⟩ :=
    started.cases
  · rw [failed]
    exact ⟨listenErr _ rfl rfl rfl, trivial⟩
  · rw [failed]
    exact ⟨listenErr _ rfl rfl rfl, trivial⟩
  · rw [running]
    refine ⟨⟨?_, ?_, ?_⟩, trivial⟩
    · exact Nat.lt_succ_self _
    · intro c member
      contradiction
    · intro fd c owned
      obtain ⟨_, rfl⟩ := listening_owner owned
      exact Nat.lt_succ_self _

end EpollNet
