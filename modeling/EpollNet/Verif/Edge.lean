import EpollNet.Verif.Loss
import EpollNet.Verif.Stalled

/-!
# Edge-triggered reports and what is left unread

The kernel reports a descriptor once for whatever arrived since its last report, and the loop of
`readData` leaves after a count that does not fill its buffer. The peer's FIN behind the last bytes
is what every client can have left behind in that way. Where no loop leaves input behind, every
client that has input and no report due is named by an entry of the batch still to be tested, or is
about to be read. So whenever the reactor blocks each connection is open and read empty, or closed
with its object back in the pool.
-/

namespace EpollNet

open EpollNet.Basis

/-! ## The discipline -/

/-- The kernel's part: a report of a descriptor that has input says so, and a read would block
only when there is nothing to read. -/
def truthful (s : State) : Label → Bool
  | .wait batch => batch.all fun entry =>
      !(s.srv.kernel.armed entry.1 && s.srv.kernel.hasInput entry.1) ||
        hasAny entry.2 (epollIn ||| epollHup)
  | .read input =>
    match s.reactor with
    | .read _ c =>
      honest (s.srv.conns c).fd Server.recvbufferSize input.script 0 s.srv.kernel
    | _ => true
  | _ => true

/-- `getsockopt` does not fail on an open descriptor, and the answers of a receiving loop are such
that it leaves nothing unread but what a report is due for. -/
def unstalled (s : State) : Label → Bool
  | .sockopt answer =>
    match s.reactor with
    | .sockopt _ c => answer.isSome || (s.srv.kernel.sock (s.srv.conns c).fd).isNone
    | _ => true
  | .read input =>
    match s.reactor with
    | .read fr c =>
      !hasAny eventReadBits fr.events ||
        drains s.srv.kernel (s.srv.conns c).fd Server.recvbufferSize input.script
    | _ => true
  | _ => true

/-- The disciplined environment and the kernel the library may rely on. -/
abbrev Truthful (s : State) (l : Label) : Prop := Disciplined s l ∧ truthful s l = true

/-- In addition no receiving loop leaves input behind that no report is due for. -/
abbrev Unstalled (s : State) (l : Label) : Prop := Truthful s l ∧ unstalled s l = true

/-- And no socket error is found by a callback that only writes. -/
abbrev Emptying (s : State) (l : Label) : Prop := Unstalled s l ∧ errorRead s l = true

/-! ## What is still to be read -/

/-- The reactor is in the callback of an object, about to read. -/
def Pc.Reads (c : ConnPtr) : Pc → Prop
  | .sockopt fr p | .read fr p => p = c ∧ hasAny eventReadBits fr.events = true
  | _ => False

/-- The reactor will get to the next `epoll_wait`. -/
def Pc.Moves : Pc → Prop
  | .inHandler | .stopped => False
  | _ => True

/-- The object is about to be read, or an entry still to be tested reports input for it. -/
def Attends (pc : Pc) (event : Nat → EpollEvent) (c : ConnPtr) : Prop :=
  pc.Reads c ∨ ∃ j, pc.Loads j ∧ (event j).ptr = c ∧
    hasAny (event j).events (epollIn ||| epollHup) = true

/-- The reactor attends every client whose descriptor is stalled. -/
def Attended (s : State) : Prop :=
  s.reactor.Moves → ∀ fd c, s.srv.roster.owner fd = some c → c ≠ serverConn →
    s.srv.kernel.stalled fd = true → Attends s.reactor s.srv.event c

/-- The connection of the accept is open on a descriptor that one object outside the pool owns.
While it is registered for input and no report is due, there is nothing left to read: no byte, and
no end of the stream. -/
def Server.ReadEmpty (s : Server) (n : Nat) : Prop :=
  ∃ fd c sock, s.kernel.sock fd = some sock ∧ sock.client = n ∧ s.client c = n ∧ c ∉ s.pool ∧
    (s.conns c).fd = fd ∧ s.OwnsOne c ∧
    (s.kernel.armed fd = true → s.kernel.due fd = false → sock.rx = [] ∧ sock.fin = false)

/-- The connection of the accept is closed, and the object it had is back in the pool. -/
def Server.Returned (s : Server) (n : Nat) : Prop :=
  (∀ fd, s.kernel.clientOf fd ≠ some n) ∧
    ∀ c, serverConn < c → c < s.nconn → s.client c = n → c ∈ s.pool

/-- Whenever the reactor blocks, each connection is read empty, or closed and returned. -/
def Drained (s : State) : Prop :=
  s.reactor = .blocked → ∀ n, 0 < n → n ≤ s.srv.kernel.accepted →
    s.srv.ReadEmpty n ∨ s.srv.Returned n

variable {s s' : State} {fr : Frame} {c p : ConnPtr} {event : Nat → EpollEvent}

/-- A client attended by an entry is attended by the loop after the callback. -/
theorem attends_resume {j : Nat} (ahead : fr.Ahead j) (named : (event j).ptr = p)
    (input : hasAny (event j).events (epollIn ||| epollHup) = true) :
    Attends fr.resume event p := by
  refine .inr ⟨j, ?_, named, input⟩
  obtain ⟨later, inside⟩ := ahead
  unfold Frame.resume
  cases which : fr.test with
  | out =>
    have low : fr.i ≤ j := by
      rcases later with less | ⟨same, _⟩
      · exact le_of_lt less
      · exact le_of_eq same
    exact ⟨low, inside⟩
  | inp =>
    have less : fr.i < j := by
      rcases later with less | ⟨_, out⟩
      · exact less
      · rw [which] at out
        contradiction
    have more : fr.i + 1 < fr.n := by omega
    simp only [more, if_true]
    exact ⟨less, inside⟩

/-- An entry is attended by the callback of its own first test, and of earlier entries. -/
theorem attends_enter {j : Nat} {ptr : ConnPtr} (ahead : fr.Ahead j) (named : (event j).ptr = p)
    (input : hasAny (event j).events (epollIn ||| epollHup) = true) :
    Attends (fr.enter ptr) event p := by
  refine .inr ⟨j, ?_, named, input⟩
  unfold Frame.enter
  split <;> exact ahead

/-- A test keeps every client attended: the second test of an entry that reports input enters
the callback that reads. -/
theorem attends_dispatch (client : p ≠ serverConn) (attends : Attends (.test fr) event p) :
    Attends (fr.dispatch event) event p := by
  rcases attends with reads | ⟨j, ⟨low, inside⟩, named, input⟩
  · exact reads.elim
  · unfold Frame.dispatch
    cases which : fr.test with
    | out =>
      have ahead : ∀ events, (⟨fr.i, fr.n, events, .out⟩ : Frame).Ahead j := by
        refine fun _ => ⟨?_, inside⟩
        rcases Nat.lt_or_eq_of_le low with less | same
        · exact .inl less
        · exact .inr ⟨same, rfl⟩
      have own : fr = ⟨fr.i, fr.n, fr.events, .out⟩ := by rw [← which]
      dsimp only
      split
      · exact attends_enter (ahead _) named input
      · rw [own]
        exact attends_resume (ahead _) named input
    | inp =>
      dsimp only
      rcases Nat.lt_or_eq_of_le low with less | rfl
      · have ahead : ∀ events, (⟨fr.i, fr.n, events, .inp⟩ : Frame).Ahead j :=
          fun _ => ⟨.inl less, inside⟩
        split
        · exact attends_enter (ahead _) named input
        · exact attends_resume (ahead _) named input
      · rw [if_pos input, Frame.enter, named, if_neg client]
        refine .inl ⟨rfl, ?_⟩
        rw [hasAny, BitVec.and_or_distrib_left]
        exact bne_iff_ne.mpr fun zero =>
          absurd (BitVec.or_eq_zero_iff.mp zero).2 (by decide)

/-- A store into the first entry leaves a client attended whose entry is another one. -/
theorem attends_store {pc : Pc} {ev : EpollEvent} (attends : Attends pc event p)
    (apart : pc.Loads 0 → (event 0).ptr ≠ p) : Attends pc (Function.update event 0 ev) p := by
  rcases attends with reads | ⟨j, loads, named, input⟩
  · exact .inl reads
  · have later : j ≠ 0 := by
      rintro rfl
      exact apart loads named
    refine .inr ⟨j, loads, ?_, ?_⟩
    · rw [Function.update_of_ne later]
      exact named
    · rw [Function.update_of_ne later]
      exact input

/-! ## Steps -/

/-- A step under which each stalled client was stalled and attended before and still is
attended. -/
theorem Attended.congr (attended : Attended s) (moves : s'.reactor.Moves → s.reactor.Moves)
    (kept : ∀ fd p, s'.srv.roster.owner fd = some p → p ≠ serverConn →
      s'.srv.kernel.stalled fd = true → s.srv.roster.owner fd = some p ∧
        s.srv.kernel.stalled fd = true ∧
        (Attends s.reactor s.srv.event p → Attends s'.reactor s'.srv.event p)) : Attended s' := by
  intro moving fd p owned client stalls
  obtain ⟨before, stalled, attends⟩ := kept fd p owned client stalls
  exact attends (attended (moves moving) fd p before client stalled)

/-- The reactor goes on in the same batch. -/
theorem attends_move {pc pc' : Pc} (attends : Attends pc event p) (reads : pc.Reads p → pc'.Reads p)
    (loads : ∀ j, pc.Loads j → pc'.Loads j) : Attends pc' event p := by
  rcases attends with here | ⟨j, later, named, input⟩
  · exact .inl (reads here)
  · exact .inr ⟨j, loads j later, named, input⟩

/-- A callback returns. -/
theorem attends_return {pc : Pc} (attends : Attends pc event p) (reads : ¬pc.Reads p)
    (loads : ∀ j, pc.Loads j → fr.Ahead j) : Attends fr.resume event p := by
  rcases attends with here | ⟨j, later, named, input⟩
  · exact absurd here reads
  · exact attends_resume (loads j later) named input

/-- Sending stalls nothing. -/
theorem stalled_sendData {c : ConnObj} {b : Buf} {script : List (Except Errno Nat)} {k : Kernel}
    {fd : Fd} (stalls : (sendData c b script k).kernel.stalled fd = true) :
    k.stalled fd = true := by
  have all : (sendData c b script k).kernel.stalled fd = true → k.stalled fd = true :=
    sendLoop_kernel (P := fun k' => k'.stalled fd = true → k.stalled fd = true)
      (fun k' bytes answer before stalls =>
        before (Kernel.stalled_congr stalls (by simp) (by simp) (by simp))) script k id
  exact all stalls

/-- The descriptor of a live client is registered and open. -/
theorem Orderly.own {fd : Fd} (orderly : Orderly s) (owned : s.srv.roster.owner fd = some c) :
    fd = (s.srv.conns c).fd ∧ (s.srv.kernel.sock (s.srv.conns c).fd).isSome = true ∧
      (s.srv.kernel.reg (s.srv.conns c).fd).isSome = true := by
  have carries : (s.srv.conns c).fd = fd := orderly.kept.sound.carries fd c owned
  have isOpen := orderly.kept.sound.isOpen fd c owned
  have registered := congrArg Option.isSome owned
  rw [Server.roster_owner, Option.isSome_map] at registered
  rw [carries]
  exact ⟨rfl, isOpen, registered⟩

/-- After a receiving loop that went on, the descriptor it read is not stalled. -/
theorem not_stalled_received {input : Server.ReadInput} {recvlen : Int}
    (at_read : s.reactor = .read fr c) (reads : hasAny eventReadBits fr.events = true)
    (answers : truthful s (.read input) = true) (left : unstalled s (.read input) = true)
    (returned : s.srv.recvlen c input = some recvlen) (nonzero : recvlen ≠ 0) :
    (s.srv.received c input).kernel.stalled (s.srv.conns c).fd ≠ true := by
  intro stalls
  simp only [truthful, at_read] at answers
  simp only [unstalled, at_read, reads, Bool.not_true, Bool.false_or] at left
  rcases readLoop_ret _ _ _ _ returned with blocked | count
  · have empty : (s.srv.received c input).kernel.hasInput (s.srv.conns c).fd = false :=
      readLoop_honest _ _ _ _ answers (blocked ▸ returned)
    have input := (Kernel.stalled_iff.mp stalls).2.1
    rw [empty] at input
    contradiction
  · exact not_stalled_of_drains left returned (lt_of_le_of_ne count nonzero.symm) stalls

/-- A receiving loop that went on leaves every stalled client attended. -/
theorem Attended.received {srv : Server} {pc : Pc} {input : Server.ReadInput} {recvlen : Int}
    {history : List QueueEvent} (attended : Attended s) (orderly : Orderly s)
    (at_read : s.reactor = .read fr c) (reads : hasAny eventReadBits fr.events = true)
    (answers : truthful s (.read input) = true) (left : unstalled s (.read input) = true)
    (returned : s.srv.recvlen c input = some recvlen) (nonzero : recvlen ≠ 0)
    (kernel : srv.kernel = (s.srv.received c input).kernel) (event : srv.event = s.srv.event)
    (loads : ∀ j, fr.Ahead j → pc.Loads j) :
    Attended { s with srv, reactor := pc, history } := by
  have quiet := not_stalled_received at_read reads answers left returned nonzero
  refine attended.congr (fun _ => by rw [at_read]; trivial) fun fd p owned client stalls => ?_
  dsimp only at owned stalls
  rw [Server.roster_owner, kernel] at owned
  rw [kernel] at stalls
  have before : s.srv.roster.owner fd = some p := by
    rw [← s.srv.roster_received c input]
    exact owned
  have other : fd ≠ (s.srv.conns c).fd := fun same => quiet (same ▸ stalls)
  refine ⟨before, stalled_readData other stalls, fun attends => ?_⟩
  rw [at_read] at attends
  dsimp only
  rw [event]
  refine attends_move attends (fun here => ?_) loads
  obtain rfl : c = p := here.1
  exact absurd (orderly.own before).1 other

/-- A registration change by an object leaves every stalled client attended that an entry to be
loaded again does not name the object for. -/
theorem Attended.modify {srv : Server} {flags : BitVec 32} {pc : Pc} (attended : Attended s)
    (orderly : Orderly s) (moves : pc.Moves → s.reactor.Moves)
    (roster : (srv.epollEventModifyConn c flags).2.roster = s.srv.roster)
    (table : s.srv.kernel.SameTable srv.kernel) (fd : (srv.conns c).fd = (s.srv.conns c).fd)
    (calm : ∀ x, srv.kernel.stalled x = true → s.srv.kernel.stalled x = true)
    (event : srv.event = s.srv.event)
    (apart : ∀ p, p ≠ serverConn → p ≠ c → s.reactor.Loads 0 → (s.srv.event 0).ptr ≠ p)
    (goes : ∀ (event : Nat → EpollEvent) (p : ConnPtr), p ≠ c →
      Attends s.reactor event p → Attends pc event p) :
    Attended { s with srv := (srv.epollEventModifyConn c flags).2, reactor := pc } := by
  refine attended.congr moves fun x p owned client stalls => ?_
  dsimp only at owned
  rw [roster] at owned
  obtain ⟨before, own⟩ := Kernel.stalled_ctlMod stalls
  have other : p ≠ c := by
    rintro rfl
    obtain ⟨same, isOpen, registered⟩ := orderly.own owned
    refine own (same.trans fd.symm) ?_ ?_
    · rw [fd, table.isOpen]
      exact isOpen
    · have still := congrArg Option.isSome (table.owner (s.srv.conns p).fd)
      rw [Option.isSome_map, Option.isSome_map] at still
      rw [fd, still]
      exact registered
  refine ⟨owned, calm x before, fun attends => ?_⟩
  have stored : Attends s.reactor (Function.update s.srv.event 0 ⟨Server.modifyMask flags, c⟩) p :=
    attends_store attends (apart p client other)
  show Attends pc (Function.update srv.event 0 ⟨Server.modifyMask flags, c⟩) p
  rw [event]
  exact goes _ p other stored

/-- A step that stalls nothing and changes no owner and no entry takes the reactor to a place where
it attends the same clients. -/
theorem Attended.move {srv : Server} {pc pc' : Pc} {history : List QueueEvent}
    (attended : Attended s) (before : s.reactor = pc) (moving : pc.Moves)
    (owner : ∀ fd p, srv.roster.owner fd = some p → s.srv.roster.owner fd = some p)
    (calm : ∀ fd, srv.kernel.stalled fd = true → s.srv.kernel.stalled fd = true)
    (event : srv.event = s.srv.event)
    (goes : ∀ fd p, s.srv.roster.owner fd = some p → p ≠ serverConn →
      Attends pc s.srv.event p → Attends pc' s.srv.event p) :
    Attended { s with srv, reactor := pc', history } := by
  refine attended.congr (fun _ => before ▸ moving) fun fd p owned client stalls => ?_
  have old := owner fd p owned
  refine ⟨old, calm fd stalls, fun attends => ?_⟩
  rw [before] at attends
  dsimp only
  rw [event]
  exact goes fd p old client attends

/-- `epoll_wait` reports every descriptor it unstalls with its input. -/
theorem Attended.wait {batch : List (Fd × BitVec 32)} (attended : Attended s)
    (at_blocked : s.reactor = .blocked) (answers : truthful s (.wait batch) = true) :
    Attended { s with srv := s.srv.epollWait batch, reactor := .begin batch.length } := by
  intro moving fd p owned client stalls
  rcases Kernel.stalled_reported stalls with before | ⟨mask, member⟩
  · have none := attended (by rw [at_blocked]; trivial) fd p owned client before
    rw [at_blocked] at none
    rcases none with reads | ⟨_, loads, _⟩
    · exact reads.elim
    · exact loads.elim
  · obtain ⟨j, inside, found⟩ := List.getElem_of_mem member
    obtain ⟨isArmed, input, _⟩ := Kernel.stalled_iff.mp stalls
    have armed : s.srv.kernel.armed fd = true := isArmed
    have readable : s.srv.kernel.hasInput fd = true := input
    have reported : hasAny mask (epollIn ||| epollHup) = true := by
      have entry := List.all_eq_true.mp answers (fd, mask) member
      simpa [armed, readable] using entry
    obtain ⟨ev, registered, named⟩ := Option.map_eq_some_iff.mp owned
    have loaded : (s.srv.epollWait batch).event j = ⟨mask, ev.ptr⟩ := by
      have same : s.srv.kernel.reg fd = some ev := registered
      simp [Server.epollWait, List.getElem?_eq_getElem inside, found, same]
    have positive : batch.length > 0 := by omega
    refine .inr ⟨j, ?_, ?_, ?_⟩
    · simp only [Pc.begin, positive, if_true]
      exact ⟨Nat.zero_le _, inside⟩
    · dsimp only
      rw [loaded]
      exact named
    · dsimp only
      rw [loaded]
      exact reported

/-- The store of `Server_Accept` overwrites no client's entry that will be loaded again. -/
theorem attends_accepted {ev : EpollEvent} (orderly : Orderly s)
    (at_accept : s.reactor = .accept fr) (client : p ≠ serverConn)
    (attends : Attends s.reactor s.srv.event p) :
    Attends (.accept fr) (Function.update s.srv.event 0 ev) p := by
  have scheduled := orderly.scheduled
  rw [at_accept] at scheduled attends
  refine attends_store attends fun loads same => client ?_
  obtain ⟨less | ⟨first, out⟩, _⟩ := loads
  · exact absurd less (Nat.not_lt_zero _)
  · have listener := scheduled.again out
    rw [first] at listener
    exact same.symm.trans listener

/-- `Server_Accept` whose registration was refused. -/
theorem Attended.refused {inc : Kernel.Incoming} {rest : List ConnPtr} {nconn : ConnPtr}
    (attended : Attended s) (orderly : Orderly s) (at_accept : s.reactor = .accept fr)
    (free : s.srv.kernel.Free inc.fd) (nonzero : inc.fd ≠ 0) :
    Attended { s with srv := s.srv.refused inc c rest nconn, reactor := fr.resume } := by
  obtain ⟨_, _, unregistered⟩ := accepted_number orderly.kept free nonzero
  refine attended.congr (fun _ => at_accept ▸ trivial) fun fd p owned client stalls => ?_
  rw [Server.roster_refused nonzero free.2.2 unregistered] at owned
  rw [Server.refused, Server.acceptErr_of_ne nonzero] at stalls ⊢
  refine ⟨owned, Kernel.stalled_accepted unregistered (Kernel.stalled_close stalls),
    fun attends => ?_⟩
  exact attends_return (attends_accepted orderly at_accept client attends) id fun _ => id

/-- `Server_Accept` that returned a connection: its own descriptor is not stalled. -/
theorem Attended.admitted {inc : Kernel.Incoming} {rest : List ConnPtr} {nconn : ConnPtr}
    (attended : Attended s) (orderly : Orderly s) (at_accept : s.reactor = .accept fr)
    (free : s.srv.kernel.Free inc.fd) (nonzero : inc.fd ≠ 0) :
    Attended { s with srv := s.srv.admitted inc c rest nconn, reactor := .sockopt fr c } := by
  obtain ⟨_, _, unregistered⟩ := accepted_number orderly.kept free nonzero
  refine attended.congr (fun _ => at_accept ▸ trivial) fun fd p owned client stalls => ?_
  obtain ⟨other, before⟩ := Kernel.stalled_register stalls
  rw [Server.roster_admitted] at owned
  simp only [Roster.lend, Function.update_of_ne other] at owned
  refine ⟨owned, Kernel.stalled_accepted unregistered before, fun attends => ?_⟩
  exact attends_move (attends_accepted orderly at_accept client attends) False.elim fun _ => id

/-- `getsockopt` fails in the callback of a closed descriptor only. -/
theorem Attended.sockoptFailed {answer : Option Int} (attended : Attended s) (orderly : Orderly s)
    (at_sockopt : s.reactor = .sockopt fr c)
    (failed : answer = none ∨ s.srv.kernel.sock (s.srv.conns c).fd = none)
    (left : unstalled s (.sockopt answer) = true) :
    Attended { s with
      srv := { s.srv with kernel := s.srv.kernel.log (.getsockopt (s.srv.conns c).fd) }
      reactor := fr.resume } := by
  refine attended.move at_sockopt trivial (fun _ _ => id) (fun _ => id) rfl
    fun fd p owned client attends => attends_return attends (fun here => ?_) fun _ => id
  obtain rfl : c = p := here.1
  have isOpen := (orderly.own owned).2.1
  simp only [unstalled, at_sockopt, Bool.or_eq_true, Option.isNone_iff_eq_none] at left
  rcases left with given | closed
  · rcases failed with rfl | closed
    · contradiction
    · rw [closed] at isOpen
      contradiction
  · rw [closed] at isOpen
    contradiction

/-- `event_read` met the end of the stream: the descriptor is registered no more. -/
theorem Attended.hangUp {input : Server.ReadInput} (attended : Attended s) (orderly : Orderly s)
    (at_read : s.reactor = .read fr c) (returned : s.srv.recvlen c input = some 0) :
    Attended { s with srv := (s.srv.received c input).hangUp c, reactor := .write fr c } := by
  obtain ⟨_, live, positive⟩ := orderly.reading at_read returned
  have event : ((s.srv.received c input).hangUp c).event = s.srv.event := by
    rw [Server.hangUp_eq positive]
    rfl
  refine attended.congr (fun _ => at_read ▸ trivial) fun fd p owned client stalls => ?_
  rw [Server.roster_hangUp positive, Server.roster_received] at owned
  obtain ⟨other, before, distinct⟩ := Roster.owner_closed orderly.kept.sound owned
  rw [Server.hangUp_eq positive] at stalls
  have stalled := Kernel.stalled_ctlDel (Kernel.stalled_close stalls)
  refine ⟨before, stalled_readData other stalled, fun attends => ?_⟩
  rw [at_read] at attends
  dsimp only
  rw [event]
  exact attends_move attends (fun here => absurd here.1.symm distinct) fun _ => id

/-- The callback's own registration change stores its object into its entry or an earlier one. -/
theorem Serving.apart_store (serving : Serving s.srv.roster s.srv.targets fr c)
    (loads : fr.Ahead 0) (other : p ≠ c) : (s.srv.event 0).ptr ≠ p := by
  intro same
  obtain ⟨less | ⟨first, out⟩, _⟩ := loads
  · exact absurd less (Nat.not_lt_zero _)
  · rcases serving.again out with own | ⟨later, _⟩
    · rw [first] at own
      exact other (same.symm.trans own)
    · exact later first

/-- Every step that leaves no input behind keeps stalled clients attended. -/
theorem Attended.step {l : Label} (attended : Attended s) (orderly : Orderly s)
    (allowed : Unstalled s l) (stepped : Step s l s') : Attended s' := by
  obtain ⟨⟨disciplined, answers⟩, left⟩ := allowed
  have scheduled := orderly.scheduled
  cases stepped with
  | waited at_blocked _ => exact attended.wait at_blocked answers
  | tested at_test =>
    exact attended.move at_test trivial (fun _ _ => id) (fun _ => id) rfl
      fun _ _ _ client => attends_dispatch client
  | acceptLooping _ => exact fun moving => moving.elim
  | acceptNone at_accept =>
    exact attended.move at_accept trivial (fun _ _ => id) (fun _ => id) rfl
      fun _ _ _ _ attends => attends_return attends id fun _ => id
  | @acceptDropped fr input inc at_accept offered free =>
    have nonzero := disciplined (.ok _) offered
    obtain ⟨_, _, unregistered⟩ := accepted_number orderly.kept free nonzero
    have roster := Server.roster_dropped nonzero free.2.2 unregistered
    rw [Server.dropped, Server.acceptErr_of_ne nonzero] at roster ⊢
    refine attended.move at_accept trivial (fun fd p owned => ?_) (fun fd stalls => ?_) rfl
      fun _ _ _ _ attends => attends_return attends id fun _ => id
    · rwa [roster] at owned
    · exact Kernel.stalled_accepted unregistered (Kernel.stalled_close stalls)
  | acceptRefused at_accept offered free _ _ =>
    exact attended.refused orderly at_accept free (disciplined (.ok _) offered)
  | acceptAdmitted at_accept offered free _ =>
    exact attended.admitted orderly at_accept free (disciplined (.ok _) offered)
  | sockoptFailed at_sockopt failed =>
    exact attended.sockoptFailed orderly at_sockopt failed left
  | sockoptConnected at_sockopt _ =>
    exact attended.move at_sockopt trivial (fun _ _ => id) (fun _ => id) rfl
      fun _ _ _ _ attends => attends_move attends id fun _ => id
  | sockoptSevered at_sockopt _ _ =>
    refine attended.move at_sockopt trivial (fun fd p owned => ?_)
      (fun _ stalls => Kernel.stalled_close stalls) rfl
      fun _ _ _ _ attends => attends_move attends id fun _ => id
    rw [Server.roster_severed] at owned
    exact (Roster.owner_closed orderly.kept.sound owned).2.1
  | readSkipped at_read skips =>
    refine attended.move at_read trivial (fun _ _ => id) (fun _ => id) rfl
      fun _ _ _ _ attends => attends_move attends (fun here => ?_) fun _ => id
    exact absurd here.2 (by rw [skips]; decide)
  | readLooping _ _ _ => exact fun moving => moving.elim
  | readEnded at_read _ returned => exact attended.hangUp orderly at_read returned
  | readFinished at_read reads returned nonzero _ =>
    exact attended.received orderly at_read reads answers left returned nonzero rfl rfl fun _ => id
  | readItem at_read reads returned positive _ _ _ _ =>
    exact attended.received orderly at_read reads answers left returned (ne_of_gt positive) rfl rfl
      fun _ => id
  | pushed at_push =>
    exact attended.move at_push trivial (fun _ _ => id) (fun _ => id) rfl
      fun _ _ _ _ attends => attends_move attends False.elim fun _ => id
  | posted at_post =>
    exact attended.move at_post trivial (fun _ _ => id) (fun _ => id) rfl
      fun _ _ _ _ attends => attends_move attends False.elim fun _ => id
  | writeIdle at_write =>
    exact attended.move at_write trivial (fun _ _ => id) (fun _ => id) rfl
      fun _ _ _ _ attends => attends_return attends id fun _ => id
  | writeLooping _ _ _ _ => exact fun moving => moving.elim
  | @written fr c script b heap obj flags at_write _ _ _ fd _ _ =>
    rw [at_write] at scheduled
    refine attended.modify orderly (fun _ => at_write ▸ trivial)
      (roster_store (sameTable_sendData ..) fd scheduled.settled flags) (sameTable_sendData ..)
      (Server.fd_update fd c) (fun x stalls => stalled_sendData stalls) rfl ?_ ?_
    · intro p client other loads
      rw [at_write] at loads
      exact Serving.apart_store scheduled loads other
    · intro event p _ attends
      rw [at_write] at attends
      exact attends_return attends id fun _ => id
  | arrived =>
    refine attended.congr id fun fd p owned client stalls => ?_
    rw [Server.roster_kernel (Kernel.sameTable_arrive ..)] at owned
    exact ⟨owned, Kernel.stalled_arrive stalls, id⟩
  | sendIdle => exact attended
  | @sent c data len granted heap obj sent known _ connected fd _ _ =>
    have settled : s.srv.roster.Settled c := .inl (orderly.connected c known connected)
    refine attended.modify orderly id (roster_store (.refl _) fd settled eventWriteBits) (.refl _)
      (Server.fd_update fd c) (fun _ => id) rfl ?_ fun _ _ _ => id
    intro p _ _ loads
    exact absurd loads (not_loads_zero disciplined)
  | worker moved =>
    obtain ⟨reactor, rqueue, sem, heap, srv⟩ := moved.frame
    refine attended.congr (by rw [reactor]; exact id) fun fd p owned client stalls => ?_
    rw [srv] at owned stalls ⊢
    rw [reactor]
    exact ⟨owned, stalls, id⟩
  | interrupted _ => exact attended

/-! ## Runs -/

/-- A server starts with no client. -/
theorem Started.attended (started : Started s) : Attended s := by
  obtain ⟨memory, event, failed | ⟨sock, _, _, failed | ⟨granted, workers, running⟩⟩⟩ :=
    started.cases
  · rw [failed]
    exact fun moving => moving.elim
  · rw [failed]
    exact fun moving => moving.elim
  · rw [running]
    intro _ fd c owned client _
    exact absurd (listening_owner owned).2 client

/-- In such a run the reactor blocks only when every client that is registered for input and for
which no report is due has been read empty. -/
theorem read_empty {fd : Fd} {sock : Socket} (reached : Reach EpollNet.step Unstalled Started s)
    (blocked : s.reactor = .blocked) (isOpen : s.srv.kernel.sock fd = some sock)
    (client : sock.client ≠ 0) (listens : s.srv.kernel.armed fd = true)
    (quiet : s.srv.kernel.due fd = false) : sock.rx = [] ∧ sock.fin = false := by
  have all : Orderly s ∧ Attributed s ∧ Attended s := by
    apply reached.invariant
    · exact fun _ started => ⟨started.orderly, started.attributed, started.attended⟩
    · intro s l s' inv allowed stepped
      have cases' := step_cases stepped
      exact ⟨inv.1.step allowed.1.1 cases', inv.2.1.step inv.1 allowed.1.1 cases',
        inv.2.2.step inv.1 allowed cases'⟩
  obtain ⟨_, attributed, attended⟩ := all
  have own : s.srv.kernel.clientOf fd = some sock.client := by
    rw [Kernel.clientOf, isOpen]
    rfl
  obtain ⟨c, different, owned⟩ := attributed.owned fd _ own client
  have nothing : s.srv.kernel.hasInput fd = false := by
    by_contra input
    have stalls := Kernel.stalled_iff.mpr ⟨listens, Bool.of_not_eq_false input, quiet⟩
    have moves : s.reactor.Moves := by
      rw [blocked]
      trivial
    have attends := attended moves fd c owned different stalls
    rw [blocked] at attends
    rcases attends with reads | ⟨_, loads, _⟩
    · exact reads
    · exact loads
  rw [Kernel.hasInput, isOpen] at nothing
  obtain ⟨bytes, fin⟩ := Bool.or_eq_false_iff.mp nothing
  exact ⟨by simpa using bytes, fin⟩

/-- In every run in which no receiving loop leaves input behind that no report is due for, and no
socket error is found by a callback that only writes, each connection is read empty, or closed and
its object returned to the pool, whenever the reactor blocks. -/
theorem drained_at_wait (reached : Reach EpollNet.step Emptying Started s) : Drained s := by
  have unstalled : Reach EpollNet.step Unstalled Started s :=
    reached.weaken fun _ _ allowed => allowed.1
  have reads : Reach EpollNet.step ReadsErrors Started s :=
    reached.weaken fun _ _ allowed => ⟨allowed.1.1.1, allowed.2⟩
  have disciplined : Reach EpollNet.step Disciplined Started s :=
    reads.weaken fun _ _ allowed => allowed.1
  have kept := (orderly disciplined).kept
  have attributed := attributed disciplined
  intro blocked n positive _
  by_cases isOpen : ∃ fd, s.srv.kernel.clientOf fd = some n
  · obtain ⟨fd, own⟩ := isOpen
    obtain ⟨sock, found, same⟩ := Option.map_eq_some_iff.mp own
    obtain ⟨c, different, owned⟩ := attributed.owned fd n own positive.ne'
    have live := kept.sound.owner_live owned
    have named : s.srv.client c = n :=
      Option.some.inj ((attributed.named fd c owned different).1.symm.trans own)
    refine .inl ⟨fd, c, sock, found, same, named, kept.sound.live_busy live,
      kept.sound.carries fd c owned, ownsOne_of_live kept live, fun listens quiet => ?_⟩
    exact read_empty unstalled blocked found (same ▸ positive.ne') listens quiet
  · refine .inr ⟨fun fd own => isOpen ⟨fd, own⟩, fun c client known same => ?_⟩
    rcases pooled_or_live reads blocked client known with pooled | live
    · exact pooled
    · have own := (attributed.named _ c live (ne_of_gt client)).1
      exact absurd ⟨_, own.trans (congrArg some same)⟩ isOpen

namespace Sample

/-- One byte arrives, possibly with the end of the stream behind it, is reported and read. -/
def reporting (fd : Fd) (fin : Bool) : List Label :=
  [.arrive ⟨fd, [65], fin⟩, .wait [(fd, epollIn)], .test, .test, .sockopt (some 0),
    .read (reading [⟨[], .ok 1⟩]), .push, .post, .write []]

end Sample

/-- Of two clients that each sent a byte the first shuts down later: it is read to the end and its
object returned, and the second is read empty. -/
theorem drained_at_wait_byte : ∃ s, Drained s ∧ s.reactor = .blocked ∧
    s.srv.kernel.accepted = 2 ∧ s.srv.pool = [1] ∧ s.srv.kernel.armed 5 = true ∧
      s.srv.kernel.due 5 = false ∧ s.srv.rqueue.length = 2 := by
  have completed : (runAllowed EpollNet.step Emptying Sample.start
      (Sample.connecting 4 ++ Sample.connecting 5 ++ Sample.reporting 4 false ++
        Sample.reporting 5 false ++ [.arrive ⟨4, [], true⟩] ++ Sample.closing 4)).map
        (fun s => decide (s.reactor = .blocked ∧ s.srv.kernel.accepted = 2 ∧ s.srv.pool = [1] ∧
          s.srv.kernel.armed 5 = true ∧ s.srv.kernel.due 5 = false ∧
          s.srv.rqueue.length = 2)) = some true := by
    decide +kernel
  obtain ⟨s, reached, passed⟩ := Reach.exists_of_run Sample.started completed
  exact ⟨s, drained_at_wait reached, of_decide_eq_true passed⟩

/-- A byte and the end of the stream arrive together: the byte is read, the end of the stream is
not, and no report is due for it. -/
theorem not_drained_at_wait : ¬∀ s, Reach EpollNet.step Truthful Started s → Drained s := by
  intro drained
  have completed : (runAllowed EpollNet.step Truthful Sample.start
      (Sample.connecting 4 ++ Sample.reporting 4 true)).map
        (fun s => decide (s.reactor = .blocked ∧ s.srv.kernel.accepted = 1 ∧ s.srv.nconn = 2 ∧
          (s.srv.conns 1).fd = 4 ∧ s.srv.kernel.armed 4 = true ∧ s.srv.kernel.due 4 = false ∧
          s.srv.kernel.sock 4 = some ⟨[], true, 1⟩)) = some true := by
    decide +kernel
  obtain ⟨s, reached, passed⟩ := Reach.exists_of_run Sample.started completed
  obtain ⟨at_blocked, last, nconn, carried, isArmed, quiet, isOpen⟩ := of_decide_eq_true passed
  have careful : Reach EpollNet.step Disciplined Started s :=
    reached.weaken fun _ _ allowed => allowed.1
  have sound := (orderly careful).kept.sound
  rcases drained s reached at_blocked 1 Nat.one_pos (le_of_eq last.symm) with
    ⟨fd, _, sock, found, same, _, _, _, _, empty⟩ | ⟨gone, _⟩
  · -- the one connection is the one on descriptor 4
    have own : s.srv.kernel.clientOf fd = some 1 := by
      rw [Kernel.clientOf, found, Option.map_some, same]
    obtain ⟨c, different, owned⟩ := (attributed careful).owned fd 1 own Nat.one_ne_zero
    have known : c < s.srv.nconn := sound.live_lt (sound.owner_live owned)
    have positive : 0 < c := Nat.pos_of_ne_zero different
    obtain rfl : c = 1 := by
      rw [nconn] at known
      exact Nat.le_antisymm (Nat.lt_succ_iff.mp known) positive
    obtain rfl : (4 : Fd) = fd := carried.symm.trans (sound.carries fd 1 owned)
    obtain rfl : sock = ⟨[], true, 1⟩ := Option.some.inj (found.symm.trans isOpen)
    have open' := (empty isArmed quiet).2
    contradiction
  · exact gone 4 (by rw [Kernel.clientOf, isOpen]; rfl)

end EpollNet
