import EpollNet.Verif.Clients

/-!
# No connection is lost, unless an error is found by a callback that only writes

A pending socket error closes the descriptor and leaves the object alone. A callback that goes
on to read then never returns from `readData`; one that only writes returns, and the object is
in no pool and owns no descriptor. In every other disciplined run each object made by `getConn`
is pooled or owns exactly one registered descriptor whenever the reactor blocks.
-/

namespace EpollNet

open EpollNet.Basis

/-- The object owns exactly one descriptor: it carries it, the descriptor is open, and it is
the only one registered for the object. -/
def Server.OwnsOne (s : Server) (c : ConnPtr) : Prop :=
  (s.kernel.sock (s.conns c).fd).isSome = true ∧
    ∀ fd, (s.kernel.reg fd).map EpollEvent.ptr = some c ↔ fd = (s.conns c).fd

/-- Each object ever made by `getConn` is pooled or owns exactly one descriptor, and each open
descriptor returned by accept is owned by exactly one object outside the pool. -/
def NothingLost (s : Server) : Prop :=
  (∀ c, serverConn < c → c < s.nconn → c ∈ s.pool ∨ s.OwnsOne c) ∧
    ∀ fd n, s.kernel.clientOf fd = some n → n ≠ 0 →
      ∃! c, c < s.nconn ∧ c ∉ s.pool ∧ (s.conns c).fd = fd

/-- A socket error is found by a callback that goes on to read. -/
def errorRead (s : State) : Label → Bool
  | .sockopt (some val) =>
    match s.reactor with
    | .sockopt fr _ => val == 0 || hasAny eventReadBits fr.events
    | _ => true
  | _ => true

/-- The discipline, and no socket error is found by a callback that only writes. -/
abbrev ReadsErrors (s : State) (l : Label) : Prop := Disciplined s l ∧ errorRead s l = true

/-- The object was severed and its callback is about to read, which it will do for ever. -/
def Doomed (s : State) (c : ConnPtr) : Prop :=
  ∃ fr, s.reactor = .read fr c ∧ hasAny eventReadBits fr.events = true ∧
    ¬s.srv.roster.opened (s.srv.roster.handle c)

/-- Each object made by `getConn` is pooled, live or doomed, unless a handler never returned. -/
def Accounted (s : State) : Prop :=
  s.reactor ≠ .inHandler → ∀ c, serverConn < c → c < s.srv.roster.size →
    c ∈ s.srv.roster.pool ∨ s.srv.roster.Live c ∨ Doomed s c

variable {s s' : State} {fr : Frame} {c : ConnPtr}

/-- A step of another thread that keeps the roster. -/
theorem Accounted.idle (accounted : Accounted s) (roster : s'.srv.roster = s.srv.roster)
    (reactor : s'.reactor = s.reactor) : Accounted s' := by
  unfold Accounted Doomed at accounted ⊢
  rw [roster, reactor]
  exact accounted

/-- A step of the reactor that keeps the roster, from where nobody is doomed. -/
theorem Accounted.congr {pc : Pc} (accounted : Accounted s) (at_pc : s.reactor = pc)
    (moving : pc ≠ .inHandler) (roster : s'.srv.roster = s.srv.roster)
    (safe : ∀ p, ¬Doomed s p) : Accounted s' := by
  intro _ p client known
  rw [roster] at known ⊢
  rcases accounted (at_pc ▸ moving) p client known with pooled | live | doomed
  · exact .inl pooled
  · exact .inr (.inl live)
  · exact absurd doomed (safe p)

/-- Nobody is doomed where the reactor is not about to read. -/
theorem safe_of_pc {pc : Pc} (at_pc : s.reactor = pc) (elsewhere : ∀ fr p, pc ≠ .read fr p)
    (p : ConnPtr) : ¬Doomed s p := by
  rintro ⟨fr, at_read, _⟩
  exact elsewhere fr p (at_pc.symm.trans at_read)

/-- Nobody is doomed where the object about to be read has an open descriptor. -/
theorem safe_of_open (at_read : s.reactor = .read fr c)
    (isOpen : s.srv.roster.opened (s.srv.roster.handle c)) (p : ConnPtr) : ¬Doomed s p := by
  rintro ⟨fr', at_read', _, closed⟩
  obtain ⟨_, rfl⟩ := Pc.read.inj (at_read.symm.trans at_read')
  exact closed isOpen

/-- Every disciplined step that reads the errors it finds loses no object. -/
theorem Accounted.step {l : Label} (accounted : Accounted s) (orderly : Orderly s)
    (allowed : ReadsErrors s l) (stepped : Step s l s') : Accounted s' := by
  obtain ⟨disciplined, reads⟩ := allowed
  have scheduled := orderly.scheduled
  have sound := orderly.kept.sound
  cases stepped with
  | waited at_blocked _ =>
    exact accounted.congr at_blocked (by simp) rfl (safe_of_pc at_blocked (by simp))
  | tested at_test => exact accounted.congr at_test (by simp) rfl (safe_of_pc at_test (by simp))
  | acceptLooping _ => exact fun moving => absurd rfl moving
  | acceptNone at_accept =>
    exact accounted.congr at_accept (by simp) rfl (safe_of_pc at_accept (by simp))
  | acceptDropped at_accept offered free =>
    have nonzero := disciplined (.ok _) offered
    obtain ⟨_, _, unregistered⟩ := accepted_number orderly.kept free nonzero
    exact accounted.congr at_accept (by simp) (Server.roster_dropped nonzero free.2.2 unregistered)
      (safe_of_pc at_accept (by simp))
  | @acceptRefused fr input inc c rest nconn at_accept offered free next _ =>
    have nonzero := disciplined (.ok _) offered
    obtain ⟨_, _, unregistered⟩ := accepted_number orderly.kept free nonzero
    intro _ p client known
    have roster :
        (s.srv.refused inc c rest nconn).roster = s.srv.roster.bounce c rest nconn inc.fd :=
      Server.roster_refused nonzero free.2.2 unregistered
    simp only [roster] at known ⊢
    by_cases same : p = c
    · exact .inl (same ▸ List.mem_append_right _ (List.mem_singleton.mpr rfl))
    · rcases accounted (by simp [at_accept]) p client (next.lt_of_ne known same) with
        pooled | live | doomed
      · exact .inl (List.mem_append_left _ (next.mem_of_ne pooled same))
      · exact .inr (.inl (live.bounce sound next))
      · exact absurd doomed (safe_of_pc at_accept (by simp) p)
  | @acceptAdmitted fr input inc c rest nconn at_accept offered free next =>
    obtain ⟨_, closed, _⟩ := accepted_number orderly.kept free (disciplined (.ok _) offered)
    intro _ p client known
    simp only [Server.roster_admitted] at known ⊢
    by_cases same : p = c
    · exact .inr (.inl (same ▸ Roster.live_lend))
    · rcases accounted (by simp [at_accept]) p client (next.lt_of_ne known same) with
        pooled | live | doomed
      · exact .inl (next.mem_of_ne pooled same)
      · exact .inr (.inl (live.lend sound next closed))
      · exact absurd doomed (safe_of_pc at_accept (by simp) p)
  | sockoptFailed at_sockopt _ =>
    exact accounted.congr at_sockopt (by simp) (Server.roster_kernel (Server.sameTable_log ..))
      (safe_of_pc at_sockopt (by simp))
  | sockoptConnected at_sockopt _ =>
    exact accounted.congr at_sockopt (by simp)
      (Server.roster_congr (Server.sameTable_log ..) (Server.fd_update (by rfl)) rfl rfl)
      (safe_of_pc at_sockopt (by simp))
  | @sockoptSevered fr c val at_sockopt isOpen nonzero =>
    rw [at_sockopt] at scheduled
    have live := scheduled.settled.live isOpen
    intro _ p client known
    simp only [Server.roster_severed] at known ⊢
    by_cases same : p = c
    · -- the callback reads, as the discipline on errors demands
      subst same
      have reading : hasAny eventReadBits fr.events = true := by
        simpa [errorRead, at_sockopt, nonzero] using reads
      refine .inr (.inr ⟨fr, rfl, reading, ?_⟩)
      simp only [Server.roster_severed]
      simp [Roster.sever]
    · rcases accounted (by simp [at_sockopt]) p client known with pooled | other | doomed
      · exact .inl pooled
      · exact .inr (.inl (other.sever live same))
      · exact absurd doomed (safe_of_pc at_sockopt (by simp) p)
  | readSkipped at_read skips =>
    refine accounted.congr at_read (by simp) rfl ?_
    rintro p ⟨fr', at_read', reading, _⟩
    obtain ⟨rfl, _⟩ := Pc.read.inj (at_read.symm.trans at_read')
    rw [skips] at reading
    contradiction
  | readLooping _ _ _ => exact fun moving => absurd rfl moving
  | @readEnded fr c input at_read _ returned =>
    obtain ⟨_, live, positive⟩ := orderly.reading at_read returned
    intro _ p client known
    simp only [Server.roster_hangUp positive, Server.roster_received] at known ⊢
    by_cases same : p = c
    · exact .inl (same ▸ List.mem_append_right _ (List.mem_singleton.mpr rfl))
    · rcases accounted (by simp [at_read]) p client known with pooled | other | doomed
      · exact .inl (List.mem_append_left _ pooled)
      · exact .inr (.inl (other.retire live same))
      · exact absurd doomed (safe_of_open at_read (Server.isOpen_of_recvlen returned) p)
  | readFinished at_read _ returned _ _ =>
    exact accounted.congr at_read (by simp) (s.srv.roster_received _ _)
      (safe_of_open at_read (Server.isOpen_of_recvlen returned))
  | readItem at_read _ returned _ _ _ _ _ =>
    exact accounted.congr at_read (by simp) (s.srv.roster_received _ _)
      (safe_of_open at_read (Server.isOpen_of_recvlen returned))
  | pushed at_push => exact accounted.congr at_push (by simp) rfl (safe_of_pc at_push (by simp))
  | posted at_post => exact accounted.congr at_post (by simp) rfl (safe_of_pc at_post (by simp))
  | writeIdle at_write =>
    exact accounted.congr at_write (by simp) rfl (safe_of_pc at_write (by simp))
  | writeLooping _ _ _ _ => exact fun moving => absurd rfl moving
  | written at_write _ _ _ fd _ _ =>
    rw [at_write] at scheduled
    exact accounted.congr at_write (by simp)
      (roster_store (sameTable_sendData ..) fd scheduled.settled _) (safe_of_pc at_write (by simp))
  | arrived => exact accounted.idle (Server.roster_kernel (Kernel.sameTable_arrive ..)) rfl
  | sendIdle => exact accounted
  | sent known _ connected fd _ _ =>
    have live := orderly.connected _ known connected
    exact accounted.idle (roster_store (.refl _) fd (.inl live) _) rfl
  | worker moved =>
    obtain ⟨reactor, rqueue, sem, heap, srv⟩ := moved.frame
    apply accounted.idle _ reactor
    rw [srv]
    rfl
  | interrupted _ => exact accounted.idle rfl rfl

/-- A server starts with no object of `getConn`. -/
theorem Started.accounted (started : Started s) : Accounted s := by
  intro _ c client known
  rw [Server.roster_size, started.nconn] at known
  exact absurd (lt_of_lt_of_le client (Nat.lt_succ_iff.mp known)) (lt_irrefl _)

/-- Every state of a run that reads the errors it finds has all its objects accounted for. -/
theorem accounted (reached : Reach EpollNet.step ReadsErrors Started s) : Accounted s := by
  have both : Orderly s ∧ Accounted s := by
    apply reached.invariant
    · exact fun _ started => ⟨started.orderly, started.accounted⟩
    · intro s l s' inv allowed stepped
      have cases := step_cases stepped
      exact ⟨inv.1.step allowed.1 cases, inv.2.step inv.1 allowed cases⟩
  exact both.2

/-- A live object owns exactly one descriptor. -/
theorem ownsOne_of_live {s : Server} (kept : Kept s.roster) (live : s.roster.Live c) :
    s.OwnsOne c := by
  refine ⟨kept.sound.live_opened live, fun fd => ⟨fun owned => ?_, ?_⟩⟩
  · exact (kept.sound.carries fd c owned).symm
  · rintro rfl
    exact live

/-- Whenever the reactor blocks, each object made by `getConn` is pooled or live. -/
theorem pooled_or_live (reached : Reach EpollNet.step ReadsErrors Started s)
    (blocked : s.reactor = .blocked) (client : serverConn < c) (known : c < s.srv.nconn) :
    c ∈ s.srv.pool ∨ s.srv.roster.Live c := by
  rcases accounted reached (by simp [blocked]) c client known with pooled | live | doomed
  · exact .inl pooled
  · exact .inr live
  · exact absurd doomed (safe_of_pc blocked (by simp) c)

/-- In every run in which no socket error is found by a callback that only writes, whenever the
reactor blocks each object made by `getConn` is pooled or owns exactly one registered
descriptor, and each open descriptor accept returned is owned by exactly one object. -/
theorem nothing_lost (reached : Reach EpollNet.step ReadsErrors Started s)
    (blocked : s.reactor = .blocked) : NothingLost s.srv := by
  have careful : Reach EpollNet.step Disciplined Started s :=
    reached.weaken fun _ _ allowed => allowed.1
  have kept := (orderly careful).kept
  have attributed := attributed careful
  have idle : ∀ c, serverConn < c → c < s.srv.nconn → c ∈ s.srv.pool ∨ s.srv.roster.Live c :=
    fun _ client known => pooled_or_live reached blocked client known
  refine ⟨fun c client known => (idle c client known).imp_right (ownsOne_of_live kept), ?_⟩
  intro fd n own positive
  obtain ⟨c, different, owned⟩ := attributed.owned fd n own positive
  have live := kept.sound.owner_live owned
  have carried : (s.srv.conns c).fd = fd := kept.sound.carries fd c owned
  refine ⟨c, ⟨kept.sound.live_lt live, kept.sound.live_busy live, carried⟩, ?_⟩
  rintro p ⟨known, outside, same⟩
  by_cases listener : p = serverConn
  · -- the listening descriptor came from no accept
    have listening := attributed.listener (by simp [blocked])
    rw [← listener, same, own] at listening
    exact absurd (Option.some.inj listening) positive
  · rcases idle p (Nat.pos_of_ne_zero listener) known with pooled | other
    · exact absurd pooled outside
    · exact other.unique live (same.trans carried.symm)

/-- The reactor is blocked. -/
def Pc.isBlocked : Pc → Bool
  | .blocked => true
  | _ => false

/-- A connection that came and went is in the pool. -/
theorem nothing_lost_recycled : ∃ s : State, s.srv.pool = [1] ∧ NothingLost s.srv := by
  have completed : (runAllowed EpollNet.step ReadsErrors Sample.start
      (Sample.connecting 4 ++ Sample.closing 4)).map
        (fun s => s.reactor.isBlocked && decide (s.srv.pool = [1])) = some true := by
    decide +kernel
  obtain ⟨s, reached, final⟩ := Reach.exists_of_run Sample.started completed
  rw [Bool.and_eq_true, decide_eq_true_eq] at final
  have blocked : s.reactor = .blocked := by
    cases at_pc : s.reactor <;> simp [Pc.isBlocked, at_pc] at final ⊢
  exact ⟨s, final.2, nothing_lost reached blocked⟩

/-- A peer resets its connection, which is reported as input, error and hangup at once. The
first callback only writes and finds the error, so it closes the descriptor; the second cannot
read the error of a closed descriptor and returns. The object is lost. -/
theorem connection_lost : ¬∀ s, Reach EpollNet.step Disciplined Started s →
    s.reactor = .blocked → NothingLost s.srv := by
  intro lossless
  have completed : (runAllowed EpollNet.step Disciplined Sample.start (Sample.connecting 4 ++
      [.wait [(4, epollIn ||| epollErr ||| epollHup)], .test, .sockopt (some 104),
        .read (Sample.reading []), .write [], .test, .sockopt (some 0)])).map
        (fun s => s.reactor.isBlocked &&
          decide (s.srv.pool = [] ∧ s.srv.nconn = 2 ∧
            (s.srv.kernel.sock (s.srv.conns 1).fd) = none)) = some true := by
    decide +kernel
  obtain ⟨s, reached, final⟩ := Reach.exists_of_run Sample.started completed
  rw [Bool.and_eq_true, decide_eq_true_eq] at final
  obtain ⟨waits, pool, nconn, closed⟩ := final
  have blocked : s.reactor = .blocked := by
    cases at_pc : s.reactor <;> simp [Pc.isBlocked, at_pc] at waits ⊢
  have known : 1 < s.srv.nconn := by
    rw [nconn]
    exact Nat.one_lt_two
  have found := (lossless s reached blocked).1 1 Nat.zero_lt_one known
  rw [pool] at found
  rcases found with pooled | ⟨isOpen, _⟩
  · contradiction
  · rw [closed] at isOpen
    contradiction

end EpollNet
