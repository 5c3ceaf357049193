import EpollNet.Verif.Steps

/-!
# The reactor never serves a stranger

One epoll entry may lead to two callbacks, the object it names may be closed and recycled in the
first of them, and an accept in the same batch may lend it again. The invariant says, for each
place the reactor can be, which connection objects the rest of the batch names: they are live
and distinct, and the one being served is live or its descriptor is closed.

`epollEvent_addConn` and `epollEvent_modifyConn` build their argument in the first entry of the
batch, so a sender may not run while that entry will be loaded again; and `closeConnObj` and
`Server_Accept` both treat descriptor zero as none. `Disciplined` is the environment that
respects these two limits of the design.
-/

namespace EpollNet

open EpollNet.Basis

/-! ## The discipline -/

/-- The reactor will load the first entry of the batch again. -/
def Pc.entryZeroLive : Pc → Bool
  | .test fr => fr.i == 0
  | .accept fr | .sockopt fr _ | .read fr _ | .push fr _ _ | .post fr _ | .write fr _ =>
    fr.i == 0 && fr.test == .out
  | .blocked | .inHandler | .stopped => false

/-- An answer of `accept` that is not descriptor zero. -/
def Nonzero : Except Errno Kernel.Incoming → Prop
  | .ok inc => inc.fd ≠ 0
  | .error _ => True

instance (answer : Except Errno Kernel.Incoming) : Decidable (Nonzero answer) :=
  match answer with
  | .ok inc => inferInstanceAs (Decidable (inc.fd ≠ 0))
  | .error _ => inferInstanceAs (Decidable True)

/-- Accept never answers zero, and nobody sends while the first entry is still to be loaded.
Senders between two batches satisfy this. -/
def Disciplined (s : State) : Label → Prop
  | .accept input => ∀ answer ∈ input.script, Nonzero answer
  | .send .. => s.reactor.entryZeroLive = false
  | _ => True

instance (s : State) (l : Label) : Decidable (Disciplined s l) :=
  match l with
  | .accept input => inferInstanceAs (Decidable (∀ answer ∈ input.script, Nonzero answer))
  | .send .. => inferInstanceAs (Decidable (s.reactor.entryZeroLive = false))
  | .wait _ | .test | .sockopt _ | .read _ | .push | .post | .write _ | .arrive _ | .worker _
  | .interrupt _ => inferInstanceAs (Decidable True)

/-! ## The roster of a running server -/

/-- Descriptors a client may be given. -/
def clientFds : Finset Fd := ((Finset.range (2 ^ 31)).image Int.ofNat).erase 0

/-- Membership in `clientFds`. -/
theorem mem_clientFds {fd : Fd} : fd ∈ clientFds ↔ 0 < fd ∧ fd < 2 ^ 31 := by
  simp only [clientFds, Finset.mem_erase, Finset.mem_image, Finset.mem_range]
  constructor
  · rintro ⟨nonzero, n, small, rfl⟩
    have nonnegative : 0 ≤ Int.ofNat n := Int.natCast_nonneg n
    exact ⟨lt_of_le_of_ne nonnegative (Ne.symm nonzero), Int.ofNat_lt.mpr small⟩
  · rintro ⟨positive, small⟩
    obtain ⟨n, rfl⟩ := Int.eq_ofNat_of_zero_le (le_of_lt positive)
    exact ⟨ne_of_gt positive, n, Int.ofNat_lt.mp small, rfl⟩

/-- The roster's part of the invariant. -/
structure Kept (r : Roster Fd) : Prop where
  /-- Registrations, descriptors and pool agree. -/
  sound : r.Sound
  /-- Open descriptors are `int`s. -/
  numbers : ∀ fd, r.opened fd → 0 ≤ fd ∧ fd < 2 ^ 31
  /-- The listening object exists. -/
  created : serverConn < r.size
  /-- The listening object is not pooled. -/
  listener : serverConn ∉ r.pool
  /-- Clients are never registered under descriptor zero. -/
  clients : ∀ fd c, r.owner fd = some c → c ≠ serverConn → 0 < fd
  /-- There are no more client objects than descriptors. -/
  bounded : r.Bounded clientFds

variable {r : Roster Fd} {ptr : Nat → ConnPtr} {c p : ConnPtr} {rest : List ConnPtr}
  {nconn : ConnPtr} {fd : Fd} {fr : Frame}

/-- The library's mark for no descriptor is not open. -/
theorem Kept.closed_neg_one (kept : Kept r) : ¬r.opened (-1) := by
  intro isOpen
  have negative : ¬(0 : Int) ≤ -1 := by decide
  exact negative (kept.numbers _ isOpen).1

/-- A live client's descriptor is one a client may be given. -/
theorem Kept.live_fd (kept : Kept r) (live : r.Live c) (client : c ≠ serverConn) :
    r.handle c ∈ clientFds :=
  mem_clientFds.mpr ⟨kept.clients _ _ live client,
    (kept.numbers _ (kept.sound.live_opened live)).2⟩

/-- The next object to lend is a client's. -/
theorem Kept.next_ne (kept : Kept r) (next : r.Next c rest nconn) : c ≠ serverConn := by
  have created := kept.created
  cases next with
  | pooled queue =>
    rintro rfl
    exact kept.listener (queue ▸ List.mem_cons_self)
  | fresh _ => exact ne_of_gt created

/-- Lending keeps the roster's invariant. -/
theorem Kept.lend (kept : Kept r) (next : r.Next c rest nconn) (closed : ¬r.opened fd)
    (offered : fd ∈ clientFds) : Kept (r.lend c rest nconn fd) := by
  obtain ⟨positive, small⟩ := mem_clientFds.mp offered
  constructor
  · exact kept.sound.lend next closed
  · rintro x (rfl | isOpen)
    · exact ⟨le_of_lt positive, small⟩
    · exact kept.numbers x isOpen
  · exact lt_of_lt_of_le kept.created next.size_le
  · exact fun member => kept.listener ((next.remaining kept.sound).2.2 _ member)
  · intro x o owned client
    by_cases same : x = fd
    · exact same ▸ positive
    · simp only [Roster.lend, Function.update_of_ne same] at owned
      exact kept.clients x o owned client
  · exact kept.bounded.lend kept.sound next closed offered

/-- A bounced loan keeps the roster's invariant. -/
theorem Kept.bounce (kept : Kept r) (next : r.Next c rest nconn) (closed : ¬r.opened fd)
    (offered : fd ∈ clientFds) : Kept (r.bounce c rest nconn fd) := by
  constructor
  · exact kept.sound.bounce next
  · exact kept.numbers
  · exact lt_of_lt_of_le kept.created next.size_le
  · intro member
    rcases List.mem_append.mp member with member | member
    · exact kept.listener ((next.remaining kept.sound).2.2 _ member)
    · exact kept.next_ne next (List.mem_singleton.mp member).symm
  · exact kept.clients
  · exact kept.bounded.bounce kept.sound next closed offered

/-- Retiring a live client keeps the roster's invariant. -/
theorem Kept.retire (kept : Kept r) (live : r.Live c) (client : c ≠ serverConn) :
    Kept (r.retire c (-1)) := by
  constructor
  · exact kept.sound.retire live
  · exact fun x isOpen => kept.numbers x isOpen.2
  · exact kept.created
  · intro member
    rcases List.mem_append.mp member with member | member
    · exact kept.listener member
    · exact client (List.mem_singleton.mp member).symm
  · intro x o owned
    exact kept.clients x o (Roster.owner_closed kept.sound owned).2.1
  · exact kept.bounded.retire kept.sound live (kept.live_fd live client)

/-- Severing a client keeps the roster's invariant. -/
theorem Kept.sever (kept : Kept r) : Kept (r.sever c) := by
  constructor
  · exact kept.sound.sever
  · exact fun x isOpen => kept.numbers x isOpen.2
  · exact kept.created
  · exact kept.listener
  · intro x o owned
    exact kept.clients x o (Roster.owner_closed kept.sound owned).2.1
  · exact kept.bounded.sever kept.sound

/-! ## The rest of the batch -/

/-- Entries `lo` to `n - 1` name live objects, none twice. -/
structure Upcoming (r : Roster Fd) (ptr : Nat → ConnPtr) (lo n : Nat) : Prop where
  /-- Each names a live object. -/
  live : ∀ j, lo ≤ j → j < n → r.Live (ptr j)
  /-- No two name the same. -/
  distinct : ∀ j k, lo ≤ j → j < k → k < n → ptr j ≠ ptr k

/-- None of the entries `lo` to `n - 1` names the object. -/
def Apart (ptr : Nat → ConnPtr) (c : ConnPtr) (lo n : Nat) : Prop :=
  ∀ j, lo ≤ j → j < n → ptr j ≠ c

/-- Later entries are a part of the upcoming ones. -/
theorem Upcoming.later {lo n : Nat} (upcoming : Upcoming r ptr lo n) :
    Upcoming r ptr (lo + 1) n :=
  ⟨fun j low => upcoming.live j (by omega), fun j k low => upcoming.distinct j k (by omega)⟩

/-- The first upcoming entry's object is named by no later one. -/
theorem Upcoming.apart {lo n : Nat} (upcoming : Upcoming r ptr lo n) :
    Apart ptr (ptr lo) (lo + 1) n :=
  fun j low high same => upcoming.distinct lo j (le_refl _) low high same.symm

/-- Upcoming entries survive a change under which the objects they name stay live. -/
theorem Upcoming.roster {r' : Roster Fd} {lo n : Nat} (upcoming : Upcoming r ptr lo n)
    (kept : ∀ j, lo ≤ j → j < n → r.Live (ptr j) → r'.Live (ptr j)) : Upcoming r' ptr lo n :=
  ⟨fun j low high => kept j low high (upcoming.live j low high), upcoming.distinct⟩

/-- A store into the first entry leaves later ones. -/
theorem Upcoming.store {lo n : Nat} (upcoming : Upcoming r ptr (lo + 1) n) :
    Upcoming r (Function.update ptr 0 c) (lo + 1) n := by
  have later : ∀ j, lo + 1 ≤ j → Function.update ptr 0 c j = ptr j := fun j low =>
    Function.update_of_ne (by omega) _ _
  constructor
  · intro j low high
    rw [later j low]
    exact upcoming.live j low high
  · intro j k low order high
    rw [later j low, later k (by omega)]
    exact upcoming.distinct j k low order high

/-- A store into the first entry names nothing in later ones. -/
theorem Apart.store {lo n : Nat} (apart : Apart ptr p (lo + 1) n) :
    Apart (Function.update ptr 0 c) p (lo + 1) n := by
  intro j low high
  rw [Function.update_of_ne (by omega)]
  exact apart j low high

/-- Live entries name no object that is not live. -/
theorem Upcoming.apart_of_not_live {lo n : Nat} (upcoming : Upcoming r ptr lo n)
    (idle : ¬r.Live c) : Apart ptr c lo n :=
  fun j low high same => idle (same ▸ upcoming.live j low high)

/-! ## Where the reactor is -/

/-- Before the second test of an entry: its object, unless it is the listener, is settled. -/
structure Retesting (r : Roster Fd) (ptr : Nat → ConnPtr) (i n : Nat) : Prop where
  /-- Later entries are upcoming. -/
  upcoming : Upcoming r ptr (i + 1) n
  /-- They do not name this entry's object. -/
  apart : Apart ptr (ptr i) (i + 1) n
  /-- This entry's object exists and is settled. -/
  settled : ptr i ≠ serverConn → ptr i < r.size ∧ r.Settled (ptr i)

/-- Before `Server_Accept`. -/
structure Listening (r : Roster Fd) (ptr : Nat → ConnPtr) (fr : Frame) : Prop where
  /-- The entry is in the batch. -/
  bound : fr.i < fr.n
  /-- Later entries are upcoming. -/
  upcoming : Upcoming r ptr (fr.i + 1) fr.n
  /-- They do not name the listener. -/
  apart : Apart ptr serverConn (fr.i + 1) fr.n
  /-- The entry names the listener when it will be tested again. -/
  again : fr.test = .out → ptr fr.i = serverConn

/-- In the callback of a client. -/
structure Serving (r : Roster Fd) (ptr : Nat → ConnPtr) (fr : Frame) (c : ConnPtr) : Prop where
  /-- The entry is in the batch. -/
  bound : fr.i < fr.n
  /-- The object is a client's. -/
  client : c ≠ serverConn
  /-- The object exists. -/
  known : c < r.size
  /-- The object is live or its descriptor is closed. -/
  settled : r.Settled c
  /-- Later entries are upcoming. -/
  upcoming : Upcoming r ptr (fr.i + 1) fr.n
  /-- They do not name the object. -/
  apart : Apart ptr c (fr.i + 1) fr.n
  /-- When the entry will be tested again, it names the object, or it is a later entry of the
  listener that accepted the object. -/
  again : fr.test = .out →
    ptr fr.i = c ∨ (fr.i ≠ 0 ∧ ptr fr.i = serverConn ∧ Apart ptr serverConn (fr.i + 1) fr.n)

/-- What holds of the rest of the batch, by where the reactor is. -/
def Scheduled (r : Roster Fd) (ptr : Nat → ConnPtr) : Pc → Prop
  | .test fr =>
    fr.i < fr.n ∧
      match fr.test with
      | .out => Upcoming r ptr fr.i fr.n
      | .inp => Retesting r ptr fr.i fr.n
  | .accept fr => Listening r ptr fr
  | .sockopt fr c | .read fr c | .push fr c _ | .post fr c | .write fr c => Serving r ptr fr c
  | .blocked | .inHandler | .stopped => True

/-- Returning from a test or a callback. -/
theorem scheduled_resume (bound : fr.i < fr.n) (upcoming : Upcoming r ptr (fr.i + 1) fr.n)
    (again : fr.test = .out → Retesting r ptr fr.i fr.n) : Scheduled r ptr fr.resume := by
  unfold Frame.resume
  cases which : fr.test with
  | out => exact ⟨bound, again which⟩
  | inp =>
    by_cases more : fr.i + 1 < fr.n
    · simp only [more, if_true]
      exact ⟨more, upcoming⟩
    · simp only [more, if_false]
      trivial

/-- The callback of a client returns. -/
theorem Serving.resume (serving : Serving r ptr fr c) : Scheduled r ptr fr.resume := by
  apply scheduled_resume serving.bound serving.upcoming
  intro which
  rcases serving.again which with same | ⟨_, listener, apart⟩
  · exact ⟨serving.upcoming, same ▸ serving.apart,
      fun _ => same ▸ ⟨serving.known, serving.settled⟩⟩
  · exact ⟨serving.upcoming, listener ▸ apart, fun client => absurd listener client⟩

/-- The callback of the listener returns with nothing changed. -/
theorem Listening.resume (listening : Listening r ptr fr) : Scheduled r ptr fr.resume := by
  apply scheduled_resume listening.bound listening.upcoming
  intro which
  have listener := listening.again which
  exact ⟨listening.upcoming, listener ▸ listening.apart, fun client => absurd listener client⟩

/-- A test that fires loads the entry's object and calls back. -/
theorem scheduled_enter (kept : Kept r) (scheduled : Scheduled r ptr (.test fr))
    (events : BitVec 32) : Scheduled r ptr ({ fr with events }.enter (ptr fr.i)) := by
  obtain ⟨bound, scheduled⟩ := scheduled
  unfold Frame.enter
  cases which : fr.test with
  | out =>
    rw [which] at scheduled
    have live := scheduled.live fr.i (le_refl _) bound
    by_cases listener : ptr fr.i = serverConn
    · rw [if_pos listener]
      exact ⟨bound, scheduled.later, listener ▸ scheduled.apart, fun _ => listener⟩
    · rw [if_neg listener]
      exact ⟨bound, listener, kept.sound.live_lt live, .inl live, scheduled.later,
        scheduled.apart, fun _ => .inl rfl⟩
  | inp =>
    rw [which] at scheduled
    by_cases listener : ptr fr.i = serverConn
    · rw [if_pos listener]
      exact ⟨bound, scheduled.upcoming, listener ▸ scheduled.apart, nofun⟩
    · rw [if_neg listener]
      obtain ⟨known, settled⟩ := scheduled.settled listener
      exact ⟨bound, listener, known, settled, scheduled.upcoming, scheduled.apart, nofun⟩

/-- A test that does not fire goes on. -/
theorem scheduled_skip (kept : Kept r) (scheduled : Scheduled r ptr (.test fr))
    (events : BitVec 32) : Scheduled r ptr { fr with events }.resume := by
  obtain ⟨bound, scheduled⟩ := scheduled
  cases which : fr.test with
  | out =>
    rw [which] at scheduled
    have live := scheduled.live fr.i (le_refl _) bound
    have retesting : Retesting r ptr fr.i fr.n :=
      ⟨scheduled.later, scheduled.apart, fun _ => ⟨kept.sound.live_lt live, .inl live⟩⟩
    refine scheduled_resume ?_ ?_ fun _ => ?_
    · exact bound
    · exact scheduled.later
    · exact retesting
  | inp =>
    rw [which] at scheduled
    refine scheduled_resume ?_ ?_ nofun
    · exact bound
    · exact scheduled.upcoming

/-- A test, dispatching or not. -/
theorem scheduled_dispatch (kept : Kept r) {event : Nat → EpollEvent}
    (targets : ∀ j, (event j).ptr = ptr j) (scheduled : Scheduled r ptr (.test fr)) :
    Scheduled r ptr (fr.dispatch event) := by
  have enters := scheduled_enter kept scheduled
  have skips := scheduled_skip kept scheduled
  unfold Frame.dispatch
  rw [targets]
  split
  · split
    · exact enters _
    · exact skips fr.events
  · dsimp only
    split
    · exact enters _
    · exact skips _

/-! ## Entries still to be loaded -/

/-- Entries whose second test is still to come after the callback of a frame. -/
def Frame.Ahead (fr : Frame) (j : Nat) : Prop := (fr.i < j ∨ fr.i = j ∧ fr.test = .out) ∧ j < fr.n

/-- Entries whose second test is still to come. -/
def Pc.Loads (j : Nat) : Pc → Prop
  | .test fr => fr.i ≤ j ∧ j < fr.n
  | .accept fr | .sockopt fr _ | .read fr _ | .push fr _ _ | .post fr _ | .write fr _ => fr.Ahead j
  | .blocked | .inHandler | .stopped => False

/-- An entry that will not be loaded again is not the first. -/
theorem not_loads_zero {pc : Pc} (quiet : pc.entryZeroLive = false) : ¬pc.Loads 0 := by
  intro loads
  have callback : ∀ fr : Frame, (fr.i == 0 && fr.test == .out) = false → ¬fr.Ahead 0 := by
    rintro fr quiet ⟨less | ⟨first, out⟩, _⟩
    · exact Nat.not_lt_zero _ less
    · simp [first, out] at quiet
  cases pc with
  | test fr =>
    have later : fr.i ≠ 0 := by simpa [Pc.entryZeroLive] using quiet
    exact later (Nat.le_zero.mp loads.1)
  | accept fr => exact callback fr quiet loads
  | sockopt fr _ => exact callback fr quiet loads
  | read fr _ => exact callback fr quiet loads
  | push fr _ _ => exact callback fr quiet loads
  | post fr _ => exact callback fr quiet loads
  | write fr _ => exact callback fr quiet loads
  | blocked => exact loads
  | inHandler => exact loads
  | stopped => exact loads

/-! ## Changes under a callback -/

/-- The object served may be recycled as long as it stays settled and no other live object is
disturbed. -/
theorem Serving.roster {r' : Roster Fd} (serving : Serving r ptr fr c) (size : r.size ≤ r'.size)
    (settled : r'.Settled c) (others : ∀ p, p ≠ c → r.Live p → r'.Live p) :
    Serving r' ptr fr c where
  bound := serving.bound
  client := serving.client
  known := lt_of_lt_of_le serving.known size
  settled := settled
  upcoming := serving.upcoming.roster fun j low high => others _ (serving.apart j low high)
  apart := serving.apart
  again := serving.again

/-- The callback's own registration change stores its object into the first entry, which is its
entry or an earlier one. -/
theorem Serving.store (serving : Serving r ptr fr c) :
    Serving r (Function.update ptr 0 c) fr c where
  bound := serving.bound
  client := serving.client
  known := serving.known
  settled := serving.settled
  upcoming := serving.upcoming.store
  apart := serving.apart.store
  again := by
    intro which
    by_cases first : fr.i = 0
    · exact .inl (by rw [first, Function.update_self])
    · rw [Function.update_of_ne first]
      exact (serving.again which).imp_right fun later => ⟨first, later.2.1, later.2.2.store⟩

/-- A store into the first entry by another thread, when the entry will not be loaded. -/
theorem Scheduled.store {pc : Pc} (scheduled : Scheduled r ptr pc)
    (quiet : pc.entryZeroLive = false) : Scheduled r (Function.update ptr 0 p) pc := by
  have keep : ∀ fr : Frame, fr.i ≠ 0 → Function.update ptr 0 p fr.i = ptr fr.i := fun fr later =>
    Function.update_of_ne later _ _
  have serve : ∀ (fr : Frame) (c : ConnPtr), (fr.i == 0 && fr.test == .out) = false →
      Serving r ptr fr c → Serving r (Function.update ptr 0 p) fr c := by
    intro fr c quiet serving
    refine ⟨serving.bound, serving.client, serving.known, serving.settled,
      serving.upcoming.store, serving.apart.store, fun which => ?_⟩
    have later : fr.i ≠ 0 := by
      rintro first
      simp [first, which] at quiet
    rw [keep fr later]
    exact (serving.again which).imp_right fun later => ⟨later.1, later.2.1, later.2.2.store⟩
  cases pc with
  | test fr =>
    have later : fr.i ≠ 0 := by simpa [Pc.entryZeroLive] using quiet
    obtain ⟨bound, scheduled⟩ := scheduled
    refine ⟨bound, ?_⟩
    cases which : fr.test with
    | out =>
      rw [which] at scheduled
      obtain ⟨i, positive⟩ := Nat.exists_eq_succ_of_ne_zero later
      simp only [positive] at scheduled ⊢
      exact scheduled.store
    | inp =>
      rw [which] at scheduled
      exact ⟨scheduled.upcoming.store, by rw [keep fr later]; exact scheduled.apart.store,
        by rw [keep fr later]; exact scheduled.settled⟩
  | accept fr =>
    refine ⟨scheduled.bound, scheduled.upcoming.store, scheduled.apart.store, fun which => ?_⟩
    have later : fr.i ≠ 0 := by
      rintro first
      simp [Pc.entryZeroLive, first, which] at quiet
    rw [keep fr later]
    exact scheduled.again which
  | sockopt fr c => exact serve fr c quiet scheduled
  | read fr c => exact serve fr c quiet scheduled
  | push fr c item => exact serve fr c quiet scheduled
  | post fr c => exact serve fr c quiet scheduled
  | write fr c => exact serve fr c quiet scheduled
  | blocked => trivial
  | inHandler => trivial
  | stopped => trivial

/-- An accepted connection is served next. -/
theorem Listening.lend (listening : Listening r ptr fr) (kept : Kept r)
    (next : r.Next c rest nconn) (closed : ¬r.opened fd) :
    Serving (r.lend c rest nconn fd) (Function.update ptr 0 c) fr c := by
  have idle := next.not_live kept.sound
  have upcoming : Upcoming (r.lend c rest nconn fd) ptr (fr.i + 1) fr.n :=
    listening.upcoming.roster fun _ _ _ live => live.lend kept.sound next closed
  refine ⟨listening.bound, kept.next_ne next, next.lt kept.sound, .inl Roster.live_lend,
    upcoming.store, (listening.upcoming.apart_of_not_live idle).store, fun which => ?_⟩
  by_cases first : fr.i = 0
  · exact .inl (by rw [first, Function.update_self])
  · rw [Function.update_of_ne first]
    exact .inr ⟨first, listening.again which, listening.apart.store⟩

/-- After a refused registration the callback returns. -/
theorem Listening.bounce (listening : Listening r ptr fr) (kept : Kept r)
    (next : r.Next c rest nconn) (closed : ¬r.opened fd) :
    Scheduled (r.bounce c rest nconn fd) (Function.update ptr 0 c) fr.resume := by
  have idle := next.not_live kept.sound
  have upcoming : Upcoming (r.bounce c rest nconn fd) ptr (fr.i + 1) fr.n :=
    listening.upcoming.roster fun _ _ _ live => live.bounce kept.sound next
  apply scheduled_resume listening.bound upcoming.store
  intro which
  refine ⟨upcoming.store, ?_, ?_⟩
  · by_cases first : fr.i = 0
    · rw [first, Function.update_self]
      exact first ▸ (listening.upcoming.apart_of_not_live idle).store
    · rw [Function.update_of_ne first, listening.again which]
      exact listening.apart.store
  · by_cases first : fr.i = 0
    · rw [first, Function.update_self]
      exact fun _ => ⟨next.lt kept.sound, Roster.settled_bounce closed⟩
    · rw [Function.update_of_ne first]
      exact fun client => absurd (listening.again which) client

end EpollNet
