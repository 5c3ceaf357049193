import EpollNet.Verif.Orderly

/-!
# The life cycle of descriptors

The history of system calls is lawful when each call on a descriptor number is made while the
library owns the number: `socket` or `accept` returned it and no `close` has followed. Three
paths break the law. `Server_Listen` closes whatever number its fresh object holds when `socket`
fails; a callback that finds a socket error closes the descriptor, keeps the number and carries
on with it; and a refused registration leaves its pooled object in the first entry, which the
second test dispatches. Runs that avoid the three are lawful.
-/

namespace EpollNet

open EpollNet.Basis

/-! ## Lawful histories -/

/-- The number a call operates on; opening one operates on none. -/
def Call.target : Call → Option Fd
  | .opened _ => none
  | .read fd _ | .write fd _ _ | .getsockopt fd | .epollCtl fd | .close fd => some fd

/-- The number was opened and not closed since, by a history with the newest call first. -/
def owned : List Call → Fd → Bool
  | [], _ => false
  | .opened fd :: rest, x => x == fd || owned rest x
  | .close fd :: rest, x => x != fd && owned rest x
  | .read .. :: rest, x | .write .. :: rest, x | .getsockopt _ :: rest, x
  | .epollCtl _ :: rest, x => owned rest x

/-- Every call was made on a number owned at the time, or on `-1`. -/
def LifeCycle : List Call → Prop
  | [] => True
  | call :: rest => (∀ fd, call.target = some fd → fd = -1 ∨ owned rest fd = true) ∧ LifeCycle rest

/-- A number calls may be made on. -/
def Kernel.Usable (k : Kernel) (fd : Fd) : Prop := (k.sock fd).isSome = true ∨ fd = -1

/-- The history is lawful and the owned numbers are the open descriptors. -/
structure Kernel.Lawful (k : Kernel) : Prop where
  /-- Every call was made on an owned number. -/
  history : LifeCycle k.trace
  /-- Owned numbers are open. -/
  owned : ∀ fd, owned k.trace fd = (k.sock fd).isSome

namespace Kernel

variable {k k' : Kernel} {fd : Fd}

/-- A change to anything but the history and the open descriptors. -/
theorem Lawful.congr (lawful : k.Lawful) (trace : k'.trace = k.trace)
    (isOpen : ∀ fd, (k'.sock fd).isSome = (k.sock fd).isSome) : k'.Lawful where
  history := trace ▸ lawful.history
  owned := fun fd => by rw [trace, isOpen, lawful.owned]

/-- A usable number is one the history allows. -/
theorem Usable.allowed (usable : k.Usable fd) (lawful : k.Lawful) :
    fd = -1 ∨ EpollNet.owned k.trace fd = true := by
  rcases usable with isOpen | none
  · exact .inr ((lawful.owned fd).trans isOpen)
  · exact .inl none

/-- A call other than an opening or a closing, on a usable number. -/
theorem Lawful.log (lawful : k.Lawful) (call : Call)
    (usable : ∀ fd, call.target = some fd → k.Usable fd)
    (same : ∀ fd, EpollNet.owned (call :: k.trace) fd = EpollNet.owned k.trace fd) :
    (k.log call).Lawful where
  history := ⟨fun fd target => (usable fd target).allowed lawful, lawful.history⟩
  owned := fun fd => (same fd).trans (lawful.owned fd)

/-- Closing a usable number. -/
theorem Lawful.close (lawful : k.Lawful) (usable : k.Usable fd) : (k.close fd).Lawful where
  history := by
    refine ⟨fun x target => ?_, lawful.history⟩
    obtain rfl : fd = x := Option.some.inj target
    exact usable.allowed lawful
  owned := by
    intro x
    show (x != fd && EpollNet.owned k.trace x) = (Function.update k.sock fd none x).isSome
    by_cases same : x = fd
    · simp [same]
    · simp [same, lawful.owned]

/-- Accepting a number. -/
theorem Lawful.accepted {inc : Incoming} (lawful : k.Lawful) :
    (Server.acceptedKernel k inc).Lawful where
  history := ⟨nofun, lawful.history⟩
  owned := by
    intro x
    show (x == inc.fd || EpollNet.owned k.trace x) = (Function.update k.sock inc.fd _ x).isSome
    by_cases same : x = inc.fd
    · simp [same]
    · simp [same, lawful.owned]

/-- The number accepted may be used. -/
theorem usable_accepted (k : Kernel) (inc : Incoming) :
    (Server.acceptedKernel k inc).Usable inc.fd := .inl (by simp [Server.acceptedKernel])

/-- An arrival is no call. -/
theorem Lawful.arrive (lawful : k.Lawful) (a : Arrival) : (k.arrive a).Lawful :=
  lawful.congr (k.arrive_trace a) (k.sameTable_arrive a).isOpen

/-- A read of a usable number. -/
theorem Lawful.read (lawful : k.Lawful) (usable : k.Usable fd) (len : Nat)
    (answer : Except Errno Nat) : (k.read fd len answer).2.Lawful := by
  have table := k.sameTable_read fd len answer
  have logged : ∃ got, (k.read fd len answer).2.trace = .read fd got :: k.trace := by
    unfold Kernel.read
    split
    · exact ⟨_, rfl⟩
    · exact ⟨_, rfl⟩
    · exact ⟨_, rfl⟩
  obtain ⟨got, trace⟩ := logged
  refine (lawful.log (.read fd got) ?_ fun _ => rfl).congr trace table.isOpen
  rintro x target
  exact Option.some.inj target ▸ usable

/-- A write to a usable number. -/
theorem Lawful.write (lawful : k.Lawful) (usable : k.Usable fd) (buf : Nat) (bytes : List UInt8)
    (answer : Except Errno Nat) : (k.write fd buf bytes answer).2.Lawful := by
  have logged : ∃ took, (k.write fd buf bytes answer).2.trace = .write fd buf took :: k.trace := by
    unfold Kernel.write
    split
    · exact ⟨_, rfl⟩
    · exact ⟨_, rfl⟩
    · exact ⟨_, rfl⟩
  obtain ⟨took, trace⟩ := logged
  refine (lawful.log (.write fd buf took) ?_ fun _ => rfl).congr trace fun x => by simp
  rintro x target
  exact Option.some.inj target ▸ usable

/-- An `epoll_ctl` on a usable number. -/
theorem Lawful.epollCtl (lawful : k.Lawful) (usable : k.Usable fd) :
    (k.log (.epollCtl fd)).Lawful := by
  refine lawful.log _ ?_ fun _ => rfl
  rintro x target
  exact Option.some.inj target ▸ usable

/-- A `getsockopt` on a usable number. -/
theorem Lawful.getsockopt (lawful : k.Lawful) (usable : k.Usable fd) :
    (k.log (.getsockopt fd)).Lawful := by
  refine lawful.log _ ?_ fun _ => rfl
  rintro x target
  exact Option.some.inj target ▸ usable

/-- A registration change on a usable number. -/
theorem Lawful.ctlMod (lawful : k.Lawful) (usable : k.Usable fd) (ev : EpollEvent) :
    (k.ctlMod fd ev).2.Lawful := by
  unfold Kernel.ctlMod
  split
  · exact (lawful.epollCtl usable).congr rfl fun _ => rfl
  · exact lawful.epollCtl usable

/-- A deleted registration on a usable number. -/
theorem Lawful.ctlDel (lawful : k.Lawful) (usable : k.Usable fd) : (k.ctlDel fd).2.Lawful := by
  unfold Kernel.ctlDel
  split
  · exact (lawful.epollCtl usable).congr rfl fun _ => rfl
  · exact lawful.epollCtl usable

/-- A number stays usable under a change that opens and closes nothing. -/
theorem Usable.congr (usable : k.Usable fd) (isOpen : (k'.sock fd).isSome = (k.sock fd).isSome) :
    k'.Usable fd := usable.imp_left isOpen.trans

end Kernel

/-- The receiving loop on a usable number. -/
theorem lawful_readData {c : ConnObj} {k : Kernel} (lawful : k.Lawful) (usable : k.Usable c.fd)
    (ptr : Memory) (len : Nat) (script : List ReadAnswer) :
    (readData c ptr len script k).kernel.Lawful := by
  have both : (readData c ptr len script k).kernel.Lawful ∧
      (readData c ptr len script k).kernel.Usable c.fd := by
    apply readLoop_kernel (P := fun k => k.Lawful ∧ k.Usable c.fd)
    · intro k a inv
      exact ⟨inv.1.arrive a, inv.2.congr ((k.sameTable_arrive a).isOpen _)⟩
    · intro k answer inv
      exact ⟨inv.1.read inv.2 _ _, inv.2.congr ((k.sameTable_read _ _ _).isOpen _)⟩
    · exact ⟨lawful, usable⟩
  exact both.1

/-- The sending loop on a usable number. -/
theorem lawful_sendData {c : ConnObj} {b : Buf} {k : Kernel} (lawful : k.Lawful)
    (usable : k.Usable c.fd) (script : List (Except Errno Nat)) :
    (sendData c b script k).kernel.Lawful := by
  have both :
      (sendData c b script k).kernel.Lawful ∧ (sendData c b script k).kernel.Usable c.fd := by
    apply sendLoop_kernel (P := fun k => k.Lawful ∧ k.Usable c.fd)
    · intro k bytes answer inv
      exact ⟨inv.1.write inv.2 _ _ _, inv.2.congr (by simp)⟩
    · exact ⟨lawful, usable⟩
  exact both.1

/-! ## The condition -/

namespace Server

/-- The object's number is open or marks none. -/
def Tidy (s : Server) (c : ConnPtr) : Prop := s.kernel.Usable (s.conns c).fd

/-- The rest of the callback, and of the entry, makes no call for the object: it does not read,
it has nothing to write, and the second test of its own entry does not fire. -/
def quiet (s : Server) (fr : Frame) (c : ConnPtr) : Bool :=
  !hasAny eventReadBits fr.events &&
    (!hasAny eventWriteBits fr.events || (s.conns c).sendptr.isNone || (s.conns c).sendlen == 0) &&
    (fr.test == .inp || s.targets fr.i != c ||
      !hasAny (s.event fr.i).events (epollIn ||| epollHup))

end Server

/-- No registration is refused in the first test of the first entry, and a socket error is found
only where the rest of the callback and of the entry makes no call. -/
def harmless (s : State) : Label → Bool
  | .accept input =>
    match s.reactor with
    | .accept fr => input.granted || !(fr.i == 0 && fr.test == .out)
    | _ => true
  | .sockopt (some val) =>
    match s.reactor with
    | .sockopt fr c => val == 0 || s.srv.quiet fr c
    | _ => true
  | _ => true

/-- The discipline, and no step of the two kinds that leave a closed number in use. -/
abbrev Harmless (s : State) (l : Label) : Prop := Disciplined s l ∧ harmless s l = true

/-- A server whose fresh listening object holds no positive number if `socket` fails. -/
def CleanStart (s : State) : Prop :=
  ∃ memory event workers input, s = startWith memory event workers input ∧
    ((Kernel.initial.socket input.socket).1 = none → (memory serverConn).fd ≤ 0)

/-! ## The invariant -/

/-- The object about to be served is tidy, or nothing is called for it any more. -/
def TidyPc (s : Server) : Pc → Prop
  | .test fr => fr.test = .inp → s.targets fr.i ≠ serverConn →
      s.Tidy (s.targets fr.i) ∨ hasAny (s.event fr.i).events (epollIn ||| epollHup) = false
  | .sockopt _ c => s.Tidy c
  | .read fr c | .push fr c _ | .post fr c | .write fr c => s.Tidy c ∨ s.quiet fr c = true
  | .blocked | .accept _ | .inHandler | .stopped => True

variable {s s' : State} {srv : Server} {fr : Frame} {c : ConnPtr}

/-- A live object is tidy. -/
theorem tidy_of_live (kept : Kept srv.roster) (live : srv.roster.Live c) : srv.Tidy c :=
  .inl (kept.sound.live_opened live)

/-- Returning from a callback or a test. -/
theorem tidyPc_resume
    (again : fr.test = .out → srv.targets fr.i ≠ serverConn → srv.Tidy (srv.targets fr.i) ∨
      hasAny (srv.event fr.i).events (epollIn ||| epollHup) = false) :
    TidyPc srv fr.resume := by
  unfold Frame.resume
  cases which : fr.test with
  | out => exact fun _ => again which
  | inp =>
    by_cases more : fr.i + 1 < fr.n
    · simp only [more, if_true]
      nofun
    · simp only [more, if_false]
      trivial

/-- The callback of a client returns. -/
theorem tidyPc_served {r : Roster Fd} (serving : Serving r srv.targets fr c)
    (tidy : srv.Tidy c ∨ srv.quiet fr c = true) : TidyPc srv fr.resume := by
  apply tidyPc_resume
  intro which client
  rcases serving.again which with same | ⟨_, listener, _⟩
  · rcases tidy with tidy | quiet
    · exact .inl (same ▸ tidy)
    · simp only [Server.quiet, Bool.and_eq_true] at quiet
      have once := quiet.2
      exact .inr (by simpa [which, same] using once)
  · exact absurd listener client

/-- A test, dispatching or not. -/
theorem tidyPc_dispatch (kept : Kept srv.roster)
    (scheduled : Scheduled srv.roster srv.targets (.test fr)) (tidy : TidyPc srv (.test fr)) :
    TidyPc srv (fr.dispatch srv.event) := by
  obtain ⟨bound, scheduled⟩ := scheduled
  unfold Frame.dispatch
  cases which : fr.test with
  | out =>
    rw [which] at scheduled
    have own := tidy_of_live kept (scheduled.live fr.i (le_refl _) bound)
    dsimp only
    split
    · unfold Frame.enter
      split
      · trivial
      · exact own
    · exact tidyPc_resume fun _ _ => .inl own
  | inp =>
    dsimp only
    split
    · rename_i fires
      unfold Frame.enter
      split
      · trivial
      · rename_i client
        have own := (tidy which client).resolve_right (by rw [fires]; decide)
        exact own
    · exact tidyPc_resume nofun

/-- The history is lawful and the reactor is where no closed number will be used. -/
structure Tidied (s : State) : Prop where
  /-- The history is lawful. -/
  lawful : s.srv.kernel.Lawful
  /-- What is served is tidy. -/
  tidy : TidyPc s.srv s.reactor

/-- A refused registration outside the first test of the first entry. -/
theorem tidyPc_refused {inc : Kernel.Incoming} {rest : List ConnPtr} {nconn : ConnPtr}
    {r : Roster Fd} (listening : Listening r srv.targets fr) (nonzero : inc.fd ≠ 0)
    (later : fr.test = .out → fr.i ≠ 0) :
    TidyPc (srv.refused inc c rest nconn) fr.resume := by
  apply tidyPc_resume
  intro which client
  rw [Server.targets_refused nonzero, Function.update_of_ne (later which)] at client
  exact absurd (listening.again which) client

/-- An object with a call to come is tidy. -/
theorem tidy_of_reads (tidy : srv.Tidy c ∨ srv.quiet fr c = true)
    (reads : hasAny eventReadBits fr.events = true) : srv.Tidy c := by
  rcases tidy with tidy | quiet
  · exact tidy
  · simp [Server.quiet, reads] at quiet

/-- So is one with data to write. -/
theorem tidy_of_writes {b : Buf} (tidy : srv.Tidy c ∨ srv.quiet fr c = true)
    (writes : hasAny eventWriteBits fr.events = true) (pending : (srv.conns c).sendptr = some b)
    (positive : 0 < (srv.conns c).sendlen) : srv.Tidy c := by
  rcases tidy with tidy | quiet
  · exact tidy
  · have nonzero : (srv.conns c).sendlen ≠ 0 := Nat.ne_of_gt positive
    simp [Server.quiet, writes, pending, nonzero] at quiet

/-- A change to neither objects nor events. -/
theorem TidyPc.congr {srv' : Server} {pc : Pc} (tidy : TidyPc srv pc)
    (conns : srv'.conns = srv.conns) (event : srv'.event = srv.event)
    (isOpen : ∀ fd, (srv'.kernel.sock fd).isSome = (srv.kernel.sock fd).isSome) :
    TidyPc srv' pc := by
  have keep : ∀ p, srv.Tidy p → srv'.Tidy p := by
    intro p own
    unfold Server.Tidy at own ⊢
    rw [conns]
    exact own.congr (isOpen _)
  have quiet : ∀ fr p, srv'.quiet fr p = srv.quiet fr p := by
    intro fr p
    simp only [Server.quiet, Server.targets, conns, event]
  have targets : srv'.targets = srv.targets := by
    funext j
    simp only [Server.targets, event]
  cases pc with
  | test fr =>
    intro which client
    rw [targets] at client ⊢
    rw [event]
    exact (tidy which client).imp_left (keep _)
  | sockopt fr p => exact keep p tidy
  | read fr p => exact tidy.imp (keep p) (quiet fr p).trans
  | push fr p item => exact tidy.imp (keep p) (quiet fr p).trans
  | post fr p => exact tidy.imp (keep p) (quiet fr p).trans
  | write fr p => exact tidy.imp (keep p) (quiet fr p).trans
  | blocked | accept | inHandler | stopped => trivial

/-- A change to one tidy object and to the first entry, when the entry will not be loaded. -/
theorem TidyPc.store {srv' : Server} {pc : Pc} (tidy : TidyPc srv pc)
    (keep : ∀ p, srv.Tidy p → srv'.Tidy p) (own : srv'.Tidy c)
    (others : ∀ p, p ≠ c → srv'.conns p = srv.conns p)
    (event : ∀ j, j ≠ 0 → srv'.event j = srv.event j) (quiet : pc.entryZeroLive = false) :
    TidyPc srv' pc := by
  have targets : ∀ j, j ≠ 0 → srv'.targets j = srv.targets j := fun j later =>
    congrArg EpollEvent.ptr (event j later)
  have serve : ∀ fr p, (fr.i == 0 && fr.test == .out) = false →
      srv.Tidy p ∨ srv.quiet fr p = true → srv'.Tidy p ∨ srv'.quiet fr p = true := by
    intro fr p unloaded tidy
    by_cases same : p = c
    · exact .inl (same ▸ own)
    · refine tidy.imp (keep p) fun quiet => ?_
      unfold Server.quiet at quiet ⊢
      rw [others p same]
      by_cases first : fr.i = 0
      · have once : (fr.test == .inp) = true := by
          cases which : fr.test with
          | out => simp [first, which] at unloaded
          | inp => rfl
        rw [once, Bool.true_or, Bool.true_or, Bool.and_true] at quiet ⊢
        exact quiet
      · rw [targets fr.i first, event fr.i first]
        exact quiet
  cases pc with
  | test fr =>
    have later : fr.i ≠ 0 := by simpa [Pc.entryZeroLive] using quiet
    intro which client
    rw [targets fr.i later] at client ⊢
    rw [event fr.i later]
    exact (tidy which client).imp_left (keep _)
  | sockopt fr p => exact keep p tidy
  | read fr p => exact serve fr p quiet tidy
  | push fr p item => exact serve fr p quiet tidy
  | post fr p => exact serve fr p quiet tidy
  | write fr p => exact serve fr p quiet tidy
  | blocked | accept | inHandler | stopped => trivial

/-- The receiving loop leaves a lawful history lawful and a tidy object tidy. -/
theorem tidy_received (lawful : srv.kernel.Lawful) (tidy : srv.Tidy c) (input : Server.ReadInput) :
    (srv.received c input).kernel.Lawful ∧ (srv.received c input).Tidy c :=
  ⟨lawful_readData lawful tidy _ _ _,
    Kernel.Usable.congr tidy ((srv.sameTable_received c input).isOpen _)⟩

/-- The end of a tidy connection is lawful, and its object is tidy without a descriptor. -/
theorem tidy_hangUp (lawful : srv.kernel.Lawful) (tidy : srv.Tidy c)
    (positive : 0 < (srv.conns c).fd) :
    (srv.hangUp c).kernel.Lawful ∧ (srv.hangUp c).Tidy c := by
  have still : (srv.kernel.ctlDel (srv.conns c).fd).2.Usable (srv.conns c).fd :=
    Kernel.Usable.congr tidy (by rw [Server.ctlDel_sock])
  rw [Server.hangUp_eq positive]
  exact ⟨(lawful.ctlDel tidy).close still, .inr (by simp)⟩

/-- Registering an interest for a tidy object, whatever else of it is stored, is lawful. -/
theorem tidy_modify (lawful : srv.kernel.Lawful) (tidy : srv.Tidy c) (flags : BitVec 32) :
    (srv.epollEventModifyConn c flags).2.kernel.Lawful ∧
      (srv.epollEventModifyConn c flags).2.Tidy c :=
  ⟨lawful.ctlMod tidy _, Kernel.Usable.congr tidy (by simp [Server.epollEventModifyConn])⟩

/-- Every harmless step makes its calls on usable numbers and leaves what is served tidy. -/
theorem Tidied.step {l : Label} (tidied : Tidied s) (orderly : Orderly s)
    (allowed : Harmless s l) (stepped : Step s l s') : Tidied s' := by
  obtain ⟨disciplined, harmless⟩ := allowed
  obtain ⟨lawful, tidy⟩ := tidied
  have scheduled := orderly.scheduled
  cases stepped with
  | waited at_blocked _ =>
    refine ⟨lawful.congr rfl fun _ => rfl, ?_⟩
    unfold Pc.begin
    split
    · nofun
    · trivial
  | tested at_test =>
    rw [at_test] at scheduled tidy
    exact ⟨lawful, tidyPc_dispatch orderly.kept scheduled tidy⟩
  | acceptLooping _ => exact ⟨lawful, trivial⟩
  | acceptNone at_accept =>
    rw [at_accept] at scheduled
    exact ⟨lawful,
      tidyPc_resume fun which client => absurd (Listening.again scheduled which) client⟩
  | acceptDropped at_accept offered free =>
    rw [at_accept] at scheduled
    rw [Server.dropped, Server.acceptErr_of_ne (disciplined (.ok _) offered)]
    exact ⟨lawful.accepted.close (Kernel.usable_accepted ..),
      tidyPc_resume fun which client => absurd (Listening.again scheduled which) client⟩
  | @acceptRefused fr input inc c rest nconn at_accept offered free next refused =>
    rw [at_accept] at scheduled
    have nonzero := disciplined (.ok _) offered
    obtain ⟨_, _, unregistered⟩ := accepted_number orderly.kept free nonzero
    have isOpen := Kernel.usable_accepted s.srv.kernel inc
    refine ⟨?_, tidyPc_refused scheduled nonzero ?_⟩
    · rw [Server.refused, Server.acceptErr_of_ne nonzero]
      exact (lawful.accepted.epollCtl isOpen).close isOpen
    · intro which first
      simp [EpollNet.harmless, at_accept, refused unregistered, which, first] at harmless
  | @acceptAdmitted fr input inc c rest nconn at_accept offered free next =>
    have isOpen := Kernel.usable_accepted s.srv.kernel inc
    refine ⟨(lawful.accepted.epollCtl isOpen).congr rfl fun _ => rfl, .inl ?_⟩
    simp [Server.admitted, Server.acceptedConn, Kernel.register, Server.acceptedKernel]
  | @sockoptFailed fr c answer at_sockopt _ =>
    rw [at_sockopt] at scheduled tidy
    have served : s.srv.Tidy c ∨ s.srv.quiet fr c = true := .inl tidy
    exact ⟨lawful.getsockopt tidy, tidyPc_served scheduled served⟩
  | sockoptConnected at_sockopt isOpen =>
    refine ⟨lawful.getsockopt (.inl isOpen), .inl (.inl ?_)⟩
    simpa using isOpen
  | @sockoptSevered fr c val at_sockopt isOpen nonzero =>
    refine ⟨(lawful.getsockopt (.inl isOpen)).close (.inl isOpen), .inr ?_⟩
    have quiet : s.srv.quiet fr c = true := by
      simpa [EpollNet.harmless, at_sockopt, nonzero] using harmless
    simpa [Server.quiet, Server.severed, Server.targets] using quiet
  | readSkipped at_read _ =>
    rw [at_read] at tidy
    exact ⟨lawful, tidy⟩
  | readLooping at_read reads _ =>
    rw [at_read] at tidy
    exact ⟨(tidy_received lawful (tidy_of_reads tidy reads) _).1, trivial⟩
  | @readEnded fr c input at_read reads returned =>
    rw [at_read] at tidy
    obtain ⟨_, _, positive⟩ := orderly.reading at_read returned
    obtain ⟨lawful', tidy'⟩ := tidy_received lawful (tidy_of_reads tidy reads) input
    obtain ⟨closed, bare⟩ := tidy_hangUp lawful' tidy' positive
    exact ⟨closed, .inl bare⟩
  | @readFinished fr c input recvlen heap at_read reads _ _ _ =>
    rw [at_read] at tidy
    obtain ⟨lawful', tidy'⟩ := tidy_received lawful (tidy_of_reads tidy reads) input
    exact ⟨lawful', .inl tidy'⟩
  | @readItem fr c input recvlen item heap at_read reads _ _ _ _ _ _ =>
    rw [at_read] at tidy
    obtain ⟨lawful', tidy'⟩ := tidy_received lawful (tidy_of_reads tidy reads) input
    exact ⟨lawful', .inl tidy'⟩
  | pushed at_push =>
    rw [at_push] at tidy
    exact ⟨lawful, tidy⟩
  | posted at_post =>
    rw [at_post] at tidy
    exact ⟨lawful, tidy⟩
  | writeIdle at_write =>
    rw [at_write] at scheduled tidy
    exact ⟨lawful, tidyPc_served scheduled tidy⟩
  | writeLooping at_write writes pending positive =>
    rw [at_write] at tidy
    exact ⟨lawful_sendData lawful (tidy_of_writes tidy writes pending positive) _, trivial⟩
  | @written fr c script b heap obj flags at_write writes pending positive fd _ _ =>
    rw [at_write] at scheduled tidy
    have usable := tidy_of_writes tidy writes pending positive
    have table := sameTable_sendData (s.srv.conns c) b script s.srv.kernel
    have sent : (sendData (s.srv.conns c) b script s.srv.kernel).kernel.Lawful :=
      lawful_sendData lawful usable script
    have still : Server.Tidy { s.srv with
        kernel := (sendData (s.srv.conns c) b script s.srv.kernel).kernel
        heap
        conns := Function.update s.srv.conns c obj } c := by
      unfold Server.Tidy
      simp only [Function.update_self, fd]
      exact usable.congr (table.isOpen _)
    obtain ⟨lawful', tidy'⟩ := tidy_modify sent still flags
    have serving := Serving.store scheduled
    rw [← Server.targets_modify _ c flags] at serving
    exact ⟨lawful', tidyPc_served serving (.inl tidy')⟩
  | arrived =>
    exact ⟨lawful.arrive _, tidy.congr rfl rfl (Kernel.sameTable_arrive ..).isOpen⟩
  | sendIdle => exact ⟨lawful, tidy⟩
  | @sent c data len granted heap obj sent known _ connected fd _ =>
    have live := orderly.connected c known connected
    have stored : ∀ p, s.srv.Tidy p → Server.Tidy { s.srv with
        heap, conns := Function.update s.srv.conns c obj, sent } p := by
      intro p own
      unfold Server.Tidy at own ⊢
      rw [← Server.fd_update fd p] at own
      exact own
    have keep : ∀ p, s.srv.Tidy p → (({ s.srv with
        heap, conns := Function.update s.srv.conns c obj, sent } :
          Server).epollEventModifyConn c eventWriteBits).2.Tidy p :=
      fun p own => Kernel.Usable.congr (stored p own) (by simp [Server.epollEventModifyConn])
    have own := tidy_of_live orderly.kept live
    have lawful' : Kernel.Lawful (Server.kernel { s.srv with
        heap, conns := Function.update s.srv.conns c obj, sent }) := lawful
    refine ⟨(tidy_modify lawful' (stored c own) eventWriteBits).1, ?_⟩
    refine tidy.store keep (keep c own) ?_ ?_ disciplined
    · exact fun p distinct => Function.update_of_ne distinct _ _
    · exact fun j later => Function.update_of_ne later _ _
  | worker moved =>
    obtain ⟨reactor, rqueue, sem, heap, srv⟩ := moved.frame
    constructor
    · rw [srv]
      exact lawful
    · rw [srv, reactor]
      exact tidy.congr rfl rfl fun _ => rfl
  | interrupted _ => exact ⟨lawful, tidy⟩

/-! ## Runs -/

/-- The history of a kernel that opened its listening socket. -/
theorem lawful_listening (memory : ConnPtr → ConnObj) (event : Nat → EpollEvent) (sock : Fd) :
    (Server.listening memory event sock).kernel.Lawful where
  history := ⟨nofun, trivial⟩
  owned := by
    intro fd
    show (fd == sock || false) = (Function.update Kernel.initial.sock sock _ fd).isSome
    by_cases same : fd = sock
    · simp [same]
    · simp [same, Kernel.initial]

/-- A clean start is lawful. -/
theorem CleanStart.tidied (started : CleanStart s) : Tidied s := by
  obtain ⟨memory, event, workers, input, rfl, clean⟩ := started
  rcases startWith_cases memory event workers input with
    ⟨unopened, failed⟩ | ⟨sock, nonnegative, small, failed | ⟨granted, running⟩⟩
  · rw [failed]
    have untouched :
        (Server.serverCreate memory event).listenErr = Server.serverCreate memory event := by
      rcases listenErr_cases (Server.serverCreate memory event) with same | ⟨positive, _⟩
      · exact same
      · have garbage : ((Server.serverCreate memory event).conns serverConn).fd =
            (memory serverConn).fd := by
          simp [Server.serverCreate, connobjReset, createNewConnObj]
        rw [garbage] at positive
        exact absurd positive (not_lt.mpr (clean unopened))
    rw [untouched]
    exact ⟨⟨trivial, fun _ => rfl⟩, trivial⟩
  · rw [failed]
    refine ⟨?_, trivial⟩
    rcases listenErr_cases (Server.listening memory event sock) with same | ⟨_, closed⟩
    · rw [same]
      exact lawful_listening memory event sock
    · rw [closed]
      apply (lawful_listening memory event sock).close
      exact .inl (by simp [Server.listening])
  · rw [running]
    refine ⟨?_, trivial⟩
    have isOpen : (Server.listening memory event sock).kernel.Usable
        ((Server.listening memory event sock).conns serverConn).fd := by
      exact .inl (by simp [Server.listening])
    unfold Server.epollEventAddConn Kernel.ctlAdd
    dsimp only
    split
    · exact ((lawful_listening memory event sock).epollCtl isOpen).congr rfl fun _ => rfl
    · exact (lawful_listening memory event sock).epollCtl isOpen

/-- A clean start is a start. -/
theorem CleanStart.started (clean : CleanStart s) : Started s := by
  obtain ⟨memory, event, workers, input, same, _⟩ := clean
  exact ⟨memory, event, workers, input, same⟩

/-- From a clean start, in every run of harmless steps, every call on a descriptor number is made
on a number the library owns. -/
theorem descriptors_lawful (reached : Reach EpollNet.step Harmless CleanStart s) :
    LifeCycle s.srv.kernel.trace := by
  have both : Orderly s ∧ Tidied s := by
    apply reached.invariant
    · exact fun _ clean => ⟨clean.started.orderly, clean.tidied⟩
    · intro s l s' inv allowed stepped
      have cases := step_cases stepped
      exact ⟨inv.1.step allowed.1 cases, inv.2.step inv.1 allowed cases⟩
  exact both.2.lawful.history

/-- The sample server starts clean. -/
theorem Sample.clean : CleanStart Sample.start :=
  ⟨fun _ => ⟨0, .connclosed, none, 0⟩, fun _ => ⟨0, 0⟩, maxWorkThread,
    ⟨some 3, true, true, true, true⟩, rfl, fun _ => Int.le_refl 0⟩

/-- A connection that came and went has a lawful history of ten calls. -/
theorem descriptors_lawful_recycled : ∃ s : State, s.srv.kernel.trace.length = 10 ∧
    LifeCycle s.srv.kernel.trace := by
  have completed : (runAllowed EpollNet.step Harmless Sample.start
      (Sample.connecting 4 ++ Sample.closing 4)).map
        (fun s => decide (s.srv.kernel.trace.length = 10)) = some true := by
    decide +kernel
  obtain ⟨s, reached, length⟩ := Reach.exists_of_run Sample.clean completed
  exact ⟨s, of_decide_eq_true length, descriptors_lawful reached⟩

/-- The newest call reads descriptor 4, which the library does not own. -/
def readsClosed (s : State) : Bool :=
  match s.srv.kernel.trace with
  | .read 4 _ :: rest => !owned rest 4
  | _ => false

/-- A callback finds a socket error with its input, closes the descriptor and reads it. -/
theorem descriptors_unlawful :
    ¬∀ s, Reach EpollNet.step Disciplined Started s → LifeCycle s.srv.kernel.trace := by
  intro lawful
  have completed : (runAllowed EpollNet.step Disciplined Sample.start (Sample.connecting 4 ++
      [.wait [(4, epollIn ||| epollErr)], .test, .test, .sockopt (some 104),
        .read (Sample.reading [⟨[], .error .other⟩])])).map readsClosed = some true := by
    decide +kernel
  obtain ⟨s, reached, closed⟩ := Reach.exists_of_run Sample.started completed
  have history := lawful s reached
  unfold readsClosed at closed
  split at closed
  · rename_i got rest trace
    rw [trace] at history
    rcases history.1 4 rfl with negative | owns
    · exact absurd negative (by decide)
    · rw [owns] at closed
      contradiction
  · contradiction

end EpollNet
