import EpollNet.Verif.Turns

/-!
# Registrations name their owners, if the first entry is not shared

In every run in which the first entry is used by one call at a time, every interest names the
object its descriptor was stored in and carries the mask its caller asked for, and every entry is
dispatched to the connection it was reported for. With two senders at once neither need hold.
-/

namespace EpollNet

open EpollNet.Basis

namespace Regs

variable {s s' : Regs} {r : Roster Fd} {c : ConnPtr} {sock : Fd}

/-! ## Steps -/

/-- The registration of `Server_Accept` is stored, or refused and the descriptor closed. -/
theorem ctlAdd_cases {call : RegCall} (fr : Frame) (kept : Kept r)
    (accepting : s.Accepting r call.conn sock) (entry : s.srv.event 0 = ⟨call.mask, call.conn⟩)
    (granted : Bool) :
    (granted = true ∧ s.ctlAdd fr call sock granted = { s with
      srv := { s.srv with
        kernel := (s.srv.kernel.log (.epollCtl sock)).register sock ⟨call.mask, call.conn⟩ }
      asked := Function.update s.asked sock call.mask
      reactor := .sockopt fr call.conn }) ∨
    (granted = false ∧ s.ctlAdd fr call sock granted = { s with
      srv := (({ s.srv with kernel := s.srv.kernel.log (.epollCtl sock) } :
        Server).setConn call.conn).acceptErr sock
      reactor := fr.back }) := by
  obtain ⟨fd, isOpen, unregistered⟩ := accepting.kernel kept
  unfold ctlAdd Kernel.ctlAdd
  rw [fd, entry, isOpen, unregistered]
  cases granted with
  | true => exact .inl ⟨rfl, rfl⟩
  | false => exact .inr ⟨rfl, rfl⟩

/-- The registration call of `Server_Accept` steps. -/
theorem Regular.adding {fr : Frame} {call : RegCall} {granted : Bool} (regular : s.Regular r)
    (at_adding : s.reactor = .adding fr call sock) (stores : exclusive s (.reg granted) = true)
    (stepped : s.reg granted = some s') : ∃ r', s'.Regular r' := by
  have accepting : s.Accepting r call.conn sock := by
    have behind := regular.behind
    rwa [Behind, at_adding] at behind
  have member : call ∈ s.call none := by
    rw [Regs.call, at_adding]
    rfl
  simp only [exclusive, at_adding, Bool.and_eq_true, decide_eq_true_eq] at stores
  obtain ⟨spares, stores⟩ := stores
  simp only [Regs.reg, at_adding] at stepped
  cases ops : call.ops with
  | nil =>
    simp only [ops] at stepped
    obtain rfl := Option.some.inj stepped
    have entry := (regular.ready none call member).entry ops
    rcases ctlAdd_cases fr regular.kept accepting entry granted with
      ⟨_, added⟩ | ⟨refusal, refused⟩
    · rw [added]
      exact ⟨_, regular.lent at_adding accepting spares⟩
    · rw [refused]
      refine ⟨_, regular.bounced at_adding accepting ?_⟩
      simpa [ops, refusal] using stores
  | cons op rest =>
    simp only [ops] at stepped
    obtain rfl := Option.some.inj stepped
    have alone : s.Alone none := by simpa [ops] using stores
    refine ⟨r, regular.access member ops alone (fun loaded => ?_) rfl ?_ ?_ rfl rfl rfl rfl ?_⟩
    · exact spares.resolve_left fun quiet => not_loads_zero quiet loaded
    · rw [at_adding]
      rfl
    · rw [at_adding]
      rfl
    · intro other call' member'
      cases other with
      | none => exact .inl ⟨rfl, (Option.some.inj member').symm⟩
      | some t => exact .inr ⟨Option.some_ne_none t, member'⟩

/-- The registration call of `event_write` steps. -/
theorem Regular.modifying {fr : Frame} {call : RegCall} {granted : Bool} (regular : s.Regular r)
    (at_modifying : s.reactor = .modifying fr call) (stores : exclusive s (.reg granted) = true)
    (stepped : s.reg granted = some s') : s'.Regular r := by
  have scheduled := regular.scheduled
  rw [at_modifying] at scheduled
  have settled : s.reactor.pending = none := by rw [at_modifying]; rfl
  have member : call ∈ s.call none := by
    rw [Regs.call, at_modifying]
    rfl
  simp only [exclusive, at_modifying, Bool.or_eq_true, decide_eq_true_eq] at stores
  simp only [Regs.reg, at_modifying] at stepped
  cases ops : call.ops with
  | nil =>
    simp only [ops] at stepped
    have owns : s.Owns call.conn :=
      owns_of_settled (regular.behind.roster settled ▸ scheduled.settled)
    obtain ⟨kernel, asked, changed, table, intact⟩ := regular.ctlModify member ops owns
    rw [changed] at stepped
    obtain rfl := Option.some.inj stepped
    refine regular.congr (Server.roster_kernel table) ?_ rfl (fun _ => id) rfl rfl ?_ ?_ ?_
      (intact.congr rfl rfl rfl rfl)
    · exact (back_pending fr).trans settled.symm
    · dsimp only
      rw [back_pc]
      exact scheduled.resume
    · dsimp only
      rw [back_pc, at_modifying]
      exact fun j loaded => loads_resume loaded
    · exact fun thread call' member' => .inl (call_kept (by rfl) (back_call fr) member')
  | cons op rest =>
    simp only [ops] at stepped
    obtain rfl := Option.some.inj stepped
    have alone : s.Alone none := by simpa [ops] using stores
    refine regular.access member ops alone (fun loaded => ?_) rfl ?_ ?_ rfl rfl rfl rfl ?_
    · rw [at_modifying] at loaded
      obtain ⟨later | ⟨first, which⟩, _⟩ := loaded
      · exact absurd later (Nat.not_lt_zero _)
      · rcases scheduled.again which with own | ⟨positive, _⟩
        · rw [← own, first]
        · exact absurd first positive
    · rw [at_modifying]
      rfl
    · rw [at_modifying]
      rfl
    · intro other call' member'
      cases other with
      | none => exact .inl ⟨rfl, (Option.some.inj member').symm⟩
      | some t => exact .inr ⟨Option.some_ne_none t, member'⟩

/-- A sender's registration call steps. -/
theorem Regular.sendReg {t : Nat} (regular : s.Regular r)
    (stores : exclusive s (.sendReg t) = true) (stepped : s.sendReg t = some s') :
    s'.Regular r := by
  simp only [Regs.sendReg] at stepped
  split at stepped
  · rename_i call sending
    have member : s.call (some t) = some call := by rw [Regs.call, sending]; rfl
    simp only [exclusive, member, Bool.or_eq_true, decide_eq_true_eq] at stores
    cases ops : call.ops with
    | nil =>
      simp only [ops] at stepped
      have owns : s.Owns call.conn :=
        regular.behind.owns regular.kept (regular.flying t call member)
      obtain ⟨kernel, asked, changed, table, intact⟩ := regular.ctlModify member ops owns
      rw [changed] at stepped
      obtain rfl := Option.some.inj stepped
      refine regular.congr (Server.roster_kernel table) rfl rfl (fun _ => id) rfl rfl
        regular.scheduled (fun _ => id) (fun other call' member' => .inl ?_)
        (intact.congr rfl rfl rfl rfl)
      cases other with
      | none => exact member'
      | some u =>
        rcases call_set member' with ⟨_, ended⟩ | ⟨_, old⟩
        · contradiction
        · exact old
    | cons op rest =>
      simp only [ops] at stepped
      obtain rfl := Option.some.inj stepped
      obtain ⟨alone, spares⟩ : s.Alone (some t) ∧ s.Spares call.conn := by simpa [ops] using stores
      refine regular.access member ops alone (fun loaded => ?_) rfl rfl rfl rfl rfl rfl rfl ?_
      · exact spares.resolve_left fun quiet => not_loads_zero quiet loaded
      · intro other call' member'
        cases other with
        | none => exact .inr ⟨(Option.some_ne_none t).symm, member'⟩
        | some u =>
          rcases call_set member' with ⟨same, own⟩ | ⟨distinct, old⟩
          · exact .inl ⟨congrArg some same, (Option.some.inj own).symm⟩
          · exact .inr ⟨fun same => distinct (Option.some.inj same), old⟩
  · contradiction

/-- A thread calls `ServerSend`. -/
theorem Regular.send {t : Nat} {data : Option Memory} {len : Int} {granted : Bool}
    (regular : s.Regular r) (stepped : Regs.step s (.send t c data len granted) = some s') :
    s'.Regular r := by
  simp only [Regs.step] at stepped
  split at stepped
  · split at stepped
    · rename_i known
      rcases s.srv.serverSendStore_cases c data len granted with
        idle | ⟨_, connected, heap, obj, sent, fd, activity, _, stored⟩
      · rw [idle] at stepped
        obtain rfl := Option.some.inj stepped
        exact regular
      · rw [stored] at stepped
        obtain rfl := Option.some.inj stepped
        have live := regular.connected c known connected
        refine regular.congr (Server.roster_congr (.refl _) (Server.fd_update fd) rfl rfl) rfl rfl
          (fun p => activity_update (activity.trans connected.symm) p) rfl rfl regular.scheduled
          (fun _ => id) (fun other call member => ?_) (regular.intact.congr rfl rfl rfl rfl)
        cases other with
        | none => exact .inl member
        | some u =>
          rcases call_set member with ⟨_, own⟩ | ⟨_, old⟩
          · obtain rfl := Option.some.inj own
            exact .inr ⟨RegCall.modify_ready .., .inr live⟩
          · exact .inl old
    · contradiction
  · contradiction

/-- Every step with exclusive stores keeps the invariant. -/
theorem Regular.step {l : RegLabel} (regular : s.Regular r) (allowed : ExclusiveStores s l)
    (stepped : Regs.step s l = some s') : ∃ r', s'.Regular r' := by
  obtain ⟨nonzero, stores⟩ := allowed
  cases l with
  | wait batch =>
    simp only [Regs.step] at stepped
    split at stepped
    · split at stepped
      · rename_i at_blocked reports
        obtain rfl := Option.some.inj stepped
        refine ⟨r, regular.wait at_blocked reports ?_⟩
        simpa [exclusive] using stores
      · contradiction
    · contradiction
  | load => exact ⟨r, regular.load stepped⟩
  | accept input =>
    simp only [Regs.step] at stepped
    split at stepped
    · rename_i fr at_accept
      obtain rfl := Option.some.inj stepped
      exact ⟨r, regular.accept at_accept nonzero⟩
    · contradiction
  | sockopt answer =>
    cases place : s.reactor with
    | sockopt fr c =>
      refine regular.sockopt place ?_ stepped
      simpa [exclusive, place, or_assoc] using stores
    | _ =>
      simp only [Regs.step, place] at stepped
      contradiction
  | read input =>
    cases place : s.reactor with
    | read fr c => exact regular.read place stepped
    | _ =>
      simp only [Regs.step, place] at stepped
      contradiction
  | write script =>
    cases place : s.reactor with
    | write fr c => exact ⟨r, regular.write place stepped⟩
    | _ =>
      simp only [Regs.step, place] at stepped
      contradiction
  | reg granted =>
    cases place : s.reactor with
    | adding fr call sock => exact regular.adding place stores stepped
    | modifying fr call => exact ⟨r, regular.modifying place stores stepped⟩
    | _ =>
      simp only [Regs.step, Regs.reg, place] at stepped
      contradiction
  | arrive a =>
    obtain rfl := Option.some.inj stepped
    exact ⟨r, regular.congr (Server.roster_kernel (Kernel.sameTable_arrive ..)) rfl rfl
      (fun _ => id) rfl rfl regular.scheduled (fun _ => id) (fun _ _ member => .inl member)
      (regular.intact.congr (Kernel.arrive_reg ..) rfl rfl rfl)⟩
  | send t c data len granted => exact ⟨r, regular.send stepped⟩
  | sendReg t => exact ⟨r, regular.sendReg stores stepped⟩

/-! ## Runs -/

/-- A server whose reactor is in no call and that has no call in progress. -/
theorem regular_quiet (kept : Kept s.srv.roster)
    (connected : ∀ c < s.srv.nconn, (s.srv.conns c).activity = .connected → s.srv.roster.Live c)
    (at_rest : s.reactor = .blocked ∨ s.reactor = .stopped)
    (threads : ∃ n, s.senders = List.replicate n none) (intact : Intact s) :
    s.Regular s.srv.roster := by
  have calls : ∀ thread, s.call thread = none := by
    intro thread
    cases thread with
    | none => rcases at_rest with rest | rest <;> rw [Regs.call, rest] <;> rfl
    | some t =>
      obtain ⟨n, replicated⟩ := threads
      rw [Regs.call, replicated, List.getElem?_replicate]
      split <;> rfl
  constructor
  · exact kept
  · rcases at_rest with rest | rest <;> rw [Behind, rest] <;> rfl
  · exact connected
  · rcases at_rest with rest | rest <;> rw [rest] <;> trivial
  · rcases at_rest with rest | rest <;> rw [rest] <;> exact fun _ loaded => loaded.elim
  · intro t call member
    rw [calls] at member
    contradiction
  · intro thread call member
    rw [calls] at member
    contradiction
  · exact intact

/-- A started server has at most the listener's interest, which is for input. -/
theorem intact_start {srv : Server} {reactor : Place} {senders : List (Option RegCall)}
    (listener : ∀ fd ev, srv.kernel.reg fd = some ev → ev = ⟨epollIn, serverConn⟩) :
    Intact ⟨srv, reactor, senders, fun _ => serverConn, fun _ => epollIn, fun _ => serverConn,
      []⟩ where
  owner := by
    intro fd ev registered
    rw [listener fd ev registered]
  mask := by
    intro fd ev registered
    rw [listener fd ev registered]
  dispatched := fun _ member => absurd member List.not_mem_nil

/-- Every server starts regular. -/
theorem Started.regular (started : Started s) : s.Regular s.srv.roster := by
  obtain ⟨memory, event, threads, input, rfl⟩ := started
  have begun : EpollNet.Started (startWith memory event 0 input) := ⟨memory, event, 0, input, rfl⟩
  refine regular_quiet begun.orderly.kept begun.orderly.connected ?_ ⟨threads, rfl⟩
    (intact_start begun.listener)
  rcases startWith_cases memory event 0 input with
    ⟨_, failed⟩ | ⟨_, _, _, failed | ⟨_, running⟩⟩
  · exact .inr (by rw [startRegs, failed])
  · exact .inr (by rw [startRegs, failed])
  · exact .inl (by rw [startRegs, running])

end Regs

/-- In every run in which the first entry is used by one call at a time, every interest names the
object its descriptor was stored in, with the mask its caller asked for, and every entry is
dispatched to the connection it was reported for. -/
theorem registrations_intact {s : Regs} (reached : Reach Regs.step ExclusiveStores Regs.Started s) :
    Intact s := by
  have initial : ∀ s : Regs, s.Started → ∃ r, s.Regular r := fun s started =>
    ⟨s.srv.roster, started.regular⟩
  have kept : ∀ s l s', (∃ r, s.Regular r) → ExclusiveStores s l → Regs.step s l = some s' →
      ∃ r, s'.Regular r := by
    rintro s l s' ⟨r, regular⟩ allowed stepped
    exact regular.step allowed stepped
  obtain ⟨r, regular⟩ := reached.invariant initial kept
  exact regular.intact

/-! ## Sample runs -/

namespace Sample

/-- A server listening on descriptor 3, with two threads that may send. -/
def twoSenders : Regs :=
  Regs.startRegs (fun _ => ⟨0, .connclosed, none, 0⟩) (fun _ => ⟨0, 0⟩) 2
    ⟨some 3, true, true, true, true⟩

/-- A connection is accepted, with nothing to read yet. -/
def admitting (fd : Fd) : List RegLabel :=
  [.wait [(3, epollIn)], .load, .load, .load, .load, .accept ⟨[.ok ⟨fd, [], false⟩], true, true⟩,
    .reg true, .reg true, .reg true, .sockopt (some 0), .read (reading [⟨[], .error .eagain⟩]),
    .write []]

/-- A thread sends a byte on a connection, up to its registration call. -/
def sending (t : Nat) (c : ConnPtr) : RegLabel := .send t c (some fun _ => 65) 1 true

/-- The stores of its registration call. -/
def storing (t : Nat) : List RegLabel := [.sendReg t, .sendReg t, .sendReg t, .sendReg t]

/-- The sample server is one that may start. -/
theorem twoSenders_started : Regs.Started twoSenders := ⟨_, _, _, _, rfl⟩

end Sample

/-- One sender after the other: both interests and the dispatch that follows are right. -/
theorem registrations_intact_twice : ∃ s : Regs,
    s.dispatches.head? = some (1, 1) ∧ s.srv.kernel.reg 5 = some ⟨epollEt ||| epollOut, 2⟩ ∧
      Intact s := by
  have completed : (runAllowed Regs.step ExclusiveStores Sample.twoSenders
      (Sample.admitting 4 ++ Sample.admitting 5 ++ [Sample.sending 0 1, Sample.sending 1 2] ++
        Sample.storing 0 ++ [.sendReg 0] ++ Sample.storing 1 ++
        [.sendReg 1, .wait [(4, epollOut)], .load, .load])).map
        (fun s => s.dispatches.head? == some (1, 1) &&
          s.srv.kernel.reg 5 == some ⟨epollEt ||| epollOut, 2⟩) = some true := by
    decide +kernel
  obtain ⟨s, reached, passed⟩ := Reach.exists_of_run Sample.twoSenders_started completed
  rw [Bool.and_eq_true, beq_iff_eq, beq_iff_eq] at passed
  exact ⟨s, passed.1, passed.2, registrations_intact reached⟩

/-- Two senders at once: the first one's `epoll_ctl` registers the second one's connection for
the first one's descriptor. -/
theorem registrations_not_intact :
    ¬∀ s, Reach Regs.step (fun _ l => NonzeroAccept l) Regs.Started s → Intact s := by
  intro all
  have completed : (runAllowed Regs.step (fun _ l => NonzeroAccept l) Sample.twoSenders
      (Sample.admitting 4 ++ Sample.admitting 5 ++ [Sample.sending 0 1, Sample.sending 1 2] ++
        Sample.storing 0 ++ Sample.storing 1 ++ [.sendReg 0])).map
        (fun s => s.holder 4 == 1 && s.srv.kernel.reg 4 == some ⟨epollEt ||| epollOut, 2⟩) =
      some true := by
    decide +kernel
  obtain ⟨s, reached, passed⟩ := Reach.exists_of_run Sample.twoSenders_started completed
  rw [Bool.and_eq_true, beq_iff_eq, beq_iff_eq] at passed
  have owner := (all s reached).owner 4 _ passed.2
  rw [passed.1] at owner
  exact absurd owner (by decide)

end EpollNet
