import EpollNet.Basis.Boxes
import EpollNet.Basis.Simulation
import EpollNet.Net.Replies
import EpollNet.Verif.Clients
import EpollNet.Verif.Leaks
import EpollNet.Verif.Stale

/-!
# The server carries replies

What the server is for on its sending side: one box for each client, which holds the newest reply
to it. In every run in which `accept` never answers zero and nobody sends while the first entry of a
batch is still to be loaded, what `ServerSend` takes and what the clients' sockets accept is a run
of such boxes: a client is sent nothing but its own replies, in order, each of them any number of
times over and perhaps cut short, and never a byte of another client's.
-/

namespace EpollNet

open EpollNet.Basis

variable {s s' : State} {l : Label}

/-! ## Accepts that hold objects -/

/-- No accept holds two objects, and those that hold one have been counted. -/
structure Assigned (s : State) : Prop where
  /-- Counted. -/
  counted : ∀ c, c < s.srv.nconn → s.srv.client c ≤ s.srv.kernel.accepted
  /-- One object each. -/
  apart : ∀ c p, c < s.srv.nconn → p < s.srv.nconn → s.srv.client c = s.srv.client p → c = p

/-- A step gives the next object to a new accept, or changes nothing about who holds what. -/
def ClientStep (s s' : State) : Prop :=
  (s'.srv.client = s.srv.client ∧ s'.srv.nconn = s.srv.nconn ∧
    s.srv.kernel.accepted ≤ s'.srv.kernel.accepted) ∨
  ∃ c rest, s.srv.roster.Next c rest s'.srv.nconn ∧
    s'.srv.client = Function.update s.srv.client c (s.srv.kernel.accepted + 1) ∧
    s'.srv.kernel.accepted = s.srv.kernel.accepted + 1

/-- The accepts and the objects they hold are the same. -/
def Server.SameHolders (s s' : Server) : Prop :=
  s'.client = s.client ∧ s'.nconn = s.nconn ∧ s'.kernel.accepted = s.kernel.accepted

/-- Two steps that change no holder. -/
theorem Server.SameHolders.trans {s s' s'' : Server} (first : s.SameHolders s')
    (second : s'.SameHolders s'') : s.SameHolders s'' :=
  ⟨second.1.trans first.1, second.2.1.trans first.2.1, second.2.2.trans first.2.2⟩

/-- `sock_err` of `Server_Accept` gives no object away. -/
theorem sameHolders_acceptErr (srv : Server) (fd : Fd) : srv.SameHolders (srv.acceptErr fd) := by
  unfold Server.acceptErr
  split <;> exact ⟨rfl, rfl, rfl⟩

/-- Neither does a change of interest. -/
theorem sameHolders_modify (srv : Server) (c : ConnPtr) (flags : BitVec 32) :
    srv.SameHolders (srv.epollEventModifyConn c flags).2 := by
  refine ⟨rfl, rfl, ?_⟩
  simp only [Server.epollEventModifyConn, Kernel.ctlMod]
  split <;> rfl

/-- Neither does hanging up. -/
theorem sameHolders_hangUp (srv : Server) (c : ConnPtr) : srv.SameHolders (srv.hangUp c) := by
  have deleted : srv.SameHolders (srv.epollEventDelConn c).2 := by
    refine ⟨rfl, rfl, ?_⟩
    simp only [Server.epollEventDelConn, Kernel.ctlDel]
    split <;> rfl
  unfold Server.hangUp Server.closeConnObj
  split <;> exact deleted.trans ⟨rfl, rfl, rfl⟩

/-- Arrivals are not accepts. -/
theorem accepted_arrive (k : Kernel) (a : Kernel.Arrival) :
    (k.arrive a).accepted = k.accepted := by
  unfold Kernel.arrive
  split
  · rfl
  · split <;> rfl

/-- `readData` accepts nothing. -/
theorem sameHolders_received (srv : Server) (c : ConnPtr) (input : Server.ReadInput) :
    srv.SameHolders (srv.received c input) := by
  refine ⟨rfl, rfl, ?_⟩
  apply readLoop_kernel (P := fun k => k.accepted = srv.kernel.accepted) _ _ input.script 0 _ _ rfl
  · intro k a same
    exact (accepted_arrive k a).trans same
  · intro k answer same
    rw [← same]
    unfold Kernel.read
    split <;> rfl

/-- `sendData` accepts nothing. -/
theorem sameHolders_sending (srv : Server) (c : ConnPtr) (b : Buf) (script : WriteScript) :
    srv.SameHolders (srv.sending c b script) := by
  refine ⟨rfl, rfl, ?_⟩
  apply sendLoop_kernel (P := fun k => k.accepted = srv.kernel.accepted) _ script _ rfl
  intro k bytes answer same
  rw [← same]
  unfold Kernel.write
  split <;> rfl

/-- Nothing about who holds what changes. -/
theorem ClientStep.same (holders : s.srv.SameHolders s'.srv) : ClientStep s s' :=
  .inl ⟨holders.1, holders.2.1, Nat.le_of_eq holders.2.2.symm⟩

/-- Every step is one of the two. -/
theorem clients_step (stepped : Step s l s') : ClientStep s s' := by
  cases stepped with
  | acceptDropped _ _ _ =>
    obtain ⟨client, nconn, accepted⟩ := sameHolders_acceptErr { s.srv with
      kernel := Server.acceptedKernel s.srv.kernel _ } _
    exact .inl ⟨client, nconn, Nat.le_of_lt (Nat.lt_of_lt_of_eq (Nat.lt_succ_self _) accepted.symm)⟩
  | @acceptRefused fr input inc c rest nconn _ _ _ next _ =>
    obtain ⟨client, size, accepted⟩ := sameHolders_acceptErr
      (({ s.srv.acceptedConn inc c rest nconn with
        kernel := (Server.acceptedKernel s.srv.kernel inc).log (.epollCtl inc.fd)
        event := Function.update s.srv.event 0 ⟨Server.acceptMask, c⟩ } : Server).setConn c) inc.fd
    exact .inr ⟨c, rest, size ▸ next, client, accepted⟩
  | acceptAdmitted _ _ _ next => exact .inr ⟨_, _, next, rfl, rfl⟩
  | readLooping _ _ _ => exact .same (sameHolders_received ..)
  | readEnded _ _ _ => exact .same ((sameHolders_received ..).trans (sameHolders_hangUp ..))
  | @readFinished fr c input recvlen heap _ _ _ _ _ =>
    exact .same ((sameHolders_received s.srv c input).trans ⟨rfl, rfl, rfl⟩)
  | @readItem fr c input recvlen item made _ _ _ _ _ _ _ _ =>
    exact .same ((sameHolders_received s.srv c input).trans ⟨rfl, rfl, rfl⟩)
  | writeLooping _ _ _ _ => exact .same (sameHolders_sending ..)
  | @written fr c script b heap obj flags _ _ _ _ _ _ _ =>
    have sent := sameHolders_sending s.srv c b script
    exact .same (sent.trans (sameHolders_modify { s.srv.sending c b script with
      heap, conns := Function.update s.srv.conns c obj } c flags))
  | arrived => exact .same ⟨rfl, rfl, accepted_arrive _ _⟩
  | @sent c _ _ _ heap obj sent _ _ _ _ _ _ =>
    exact .same (sameHolders_modify { s.srv with
      heap, conns := Function.update s.srv.conns c obj, sent } c eventWriteBits)
  | worker moved =>
    obtain ⟨_, rqueue, sem, heap, srv⟩ := moved.frame
    apply ClientStep.same
    rw [srv]
    exact ⟨rfl, rfl, rfl⟩
  | _ => exact .same ⟨rfl, rfl, rfl⟩

/-- Every step keeps objects and accepts apart. -/
theorem Assigned.step (assigned : Assigned s) (stepped : Step s l s') : Assigned s' := by
  obtain ⟨counted, apart⟩ := assigned
  rcases clients_step stepped with ⟨client, nconn, grown⟩ | ⟨c, rest, next, client, accepted⟩
  · constructor
    · intro p known
      rw [client]
      exact Nat.le_trans (counted p (nconn ▸ known)) grown
    · intro p q known known' same
      rw [client] at same
      exact apart p q (nconn ▸ known) (nconn ▸ known') same
  · -- the number of the accept is above those of the others
    have older : ∀ p, p < s'.srv.nconn → p ≠ c →
        s'.srv.client p = s.srv.client p ∧ s.srv.client p ≤ s.srv.kernel.accepted := by
      intro p known distinct
      rw [client, Function.update_of_ne distinct]
      exact ⟨rfl, counted p (next.lt_of_ne known distinct)⟩
    have own : s'.srv.client c = s.srv.kernel.accepted + 1 := by
      rw [client, Function.update_self]
    constructor
    · intro p known
      by_cases same : p = c
      · rw [same, own, accepted]
      · have before := older p known same
        omega
    · intro p q known known' same
      by_cases first : p = c
      · by_cases second : q = c
        · rw [first, second]
        · have before := older q known' second
          rw [first, own] at same
          omega
      · have before := older p known first
        by_cases second : q = c
        · rw [second, own] at same
          omega
        · have before' := older q known' second
          rw [before.1, before'.1] at same
          exact apart p q (next.lt_of_ne known first) (next.lt_of_ne known' second) same

/-! ## One call of `event_write` -/

variable {box box' : Boxes Nat UInt8}

/-- Calls, what they make of the boxes, and that they end a message only as the given outcome. -/
def GivesUntil (k k' : Kernel) (fd : Fd) (box : Boxes Nat UInt8) (ended : Prop) : Prop :=
  ∃ (calls : List Call) (box' : Boxes Nat UInt8), k'.trace = calls.reverse ++ k.trace ∧
    run Boxes.step box (calls.flatMap (Call.given k.sock)) = some box' ∧
    (box' = box ∨ ended ∧ ∃ sock, k.sock fd = some sock ∧
      box' = Function.update box sock.client [])

/-- No calls. -/
theorem GivesUntil.none (k : Kernel) (fd : Fd) (box : Boxes Nat UInt8) (ended : Prop) :
    GivesUntil k k fd box ended := ⟨[], box, rfl, rfl, .inl rfl⟩

/-- The same calls, said to end a message in another way. -/
theorem GivesUntil.mono {k k' : Kernel} {fd : Fd} {ended ended' : Prop}
    (gives : GivesUntil k k' fd box ended) (weaker : ended → ended') :
    GivesUntil k k' fd box ended' := by
  obtain ⟨calls, box', trace, ran, left⟩ := gives
  exact ⟨calls, box', trace, ran, left.imp id fun last => ⟨weaker last.1, last.2⟩⟩

/-- A call that leaves the boxes as they are, and the calls behind it. -/
theorem GivesUntil.after {k k' : Kernel} {fd : Fd} {ended : Prop} {call : Call}
    (gives : GivesUntil (k.log call) k' fd box ended)
    (first : run Boxes.step box (call.given k.sock) = some box) :
    GivesUntil k k' fd box ended := by
  obtain ⟨calls, box', trace, ran, left⟩ := gives
  refine ⟨call :: calls, box', ?_, ?_, left⟩
  · rw [trace, Kernel.log_trace, List.reverse_cons, List.append_assoc, List.singleton_append]
  · rw [List.flatMap_cons, run_append, first]
    exact ran

/-- Calls that give nothing. -/
theorem GivesUntil.before {k k' k'' : Kernel} {fd : Fd} {ended : Prop} {call : Call}
    (gives : GivesUntil k k' fd box ended) (trace : k''.trace = call :: k'.trace)
    (silent : call.given k.sock = []) : GivesUntil k k'' fd box ended := by
  obtain ⟨calls, box', trace', ran, left⟩ := gives
  refine ⟨calls ++ [call], box', ?_, ?_, left⟩
  · rw [trace, trace', List.reverse_append, List.reverse_singleton, List.singleton_append,
      List.cons_append]
  · rw [List.flatMap_append, List.flatMap_singleton, silent, List.append_nil]
    exact ran

/-- A box lets the message in it be taken whole, or not at all. -/
theorem run_given {k : Kernel} {fd : Fd} {buf : Nat} {message took : List UInt8}
    (holds : ∀ sock, k.sock fd = some sock → box sock.client = message)
    (whole : took = [] ∨ took = message) :
    run Boxes.step box (Call.given k.sock (.write fd buf took)) = some box := by
  simp only [Call.given]
  cases found : k.sock fd with
  | none => rfl
  | some sock =>
    have held := holds sock found
    rcases whole with rfl | rfl
    · simp [run, Boxes.step]
    · simp [run, Boxes.step, held]

/-- A box lets a part of its message be taken. -/
theorem run_given_part {k : Kernel} {fd : Fd} (buf : Nat) {message took : List UInt8}
    {sock : Socket} (found : k.sock fd = some sock) (held : box sock.client = message)
    (front : took <+: message) : ∃ box',
      run Boxes.step box (Call.given k.sock (.write fd buf took)) = some box' ∧
        (box' = box ∨ box' = Function.update box sock.client []) := by
  subst held
  simp only [Call.given, found, run, Boxes.step, if_pos front]
  by_cases whole : took = [] ∨ took = box sock.client
  · exact ⟨box, by simp [whole], .inl rfl⟩
  · exact ⟨_, by simp [whole], .inr rfl⟩

/-- The loop of `sendData` takes the message in the box whole a number of times, and a part of it
only where it returns zero. -/
theorem sendLoop_gives {fd : Fd} {b : Buf} (sized : b.Sized) (script : WriteScript) (k : Kernel)
    (holds : ∀ sock, k.sock fd = some sock → box sock.client = b.payload) :
    GivesUntil k (sendLoop fd b b.str.len b.str.len script k).kernel fd box
      ((sendLoop fd b b.str.len b.str.len script k).ret = some 0) := by
  have positive := sized.positive
  induction script generalizing k with
  | nil =>
    have looping : sendLoop fd b b.str.len b.str.len [] k = ⟨none, k⟩ := by
      rw [sendLoop.eq_def]
      exact if_pos positive
    rw [looping]
    exact .none k fd box _
  | cons answer rest ih =>
    have refused : ∀ ended, GivesUntil k (k.log (.write fd b.addr [])) fd box ended := fun ended =>
      (GivesUntil.none _ fd box ended).after (run_given holds (.inl rfl))
    rw [sendLoop_cons positive]
    simp only [Nat.sub_self, List.drop_zero, Kernel.write]
    cases found : k.sock fd with
    | none => exact refused _
    | some socket =>
      cases answer with
      | error e =>
        cases e with
        | eintr => exact (ih (k.log _) holds).after (run_given holds (.inl rfl))
        | eagain => exact refused _
        | other => exact refused _
      | ok m =>
        have length : (b.str.buf.take b.str.len).length = b.str.len := sized.whole
        have held := holds socket found
        simp only [length]
        by_cases part : m < b.str.len
        · have fewer : min m b.str.len < b.str.len := by omega
          rw [if_pos fewer]
          obtain ⟨box', ran, left⟩ := run_given_part b.addr found held
            (List.take_prefix m b.payload)
          refine ⟨[.write fd b.addr (b.payload.take m)], box', rfl, ?_, ?_⟩
          · rw [List.flatMap_singleton]
            exact ran
          · exact left.imp id fun emptied => ⟨rfl, socket, found, emptied⟩
        · have full : ¬min m b.str.len < b.str.len := by omega
          rw [if_neg full]
          apply (ih (k.log _) holds).after
          apply run_given holds (.inr _)
          apply List.take_of_length_le
          rw [length]
          omega

/-- A change of interest is one call of `epoll_ctl`. -/
theorem trace_modify (srv : Server) (c : ConnPtr) (flags : BitVec 32) :
    (srv.epollEventModifyConn c flags).2.kernel.trace =
      .epollCtl (srv.conns c).fd :: srv.kernel.trace := by
  simp only [Server.epollEventModifyConn, Kernel.ctlMod]
  split <;> rfl

/-- One `event_write` with a message in the slot. When it takes only a part of it, the slot is
empty afterwards. -/
theorem eventWrite_gives {srv : Server} {c : ConnPtr} {b : Buf} (sized : b.Sized)
    (waits : (srv.conns c).sendptr = some b) (length : (srv.conns c).sendlen = b.str.len)
    (holds : ∀ sock, srv.kernel.sock (srv.conns c).fd = some sock →
      box sock.client = b.payload) (script : WriteScript) :
    GivesUntil srv.kernel (srv.eventWrite c script).2.kernel (srv.conns c).fd box
      (((srv.eventWrite c script).2.conns c).sendptr = none) := by
  have given : GivesUntil srv.kernel (sendData (srv.conns c) b script srv.kernel).kernel
      (srv.conns c).fd box ((sendData (srv.conns c) b script srv.kernel).ret = some 0) := by
    rw [sendData, length, asInt_toNat sized.small]
    exact sendLoop_gives sized script srv.kernel holds
  -- an attempt that keeps its buffer did not return zero
  have keeps : ∀ ended, (sendData (srv.conns c) b script srv.kernel).ret ≠ some 0 →
      GivesUntil srv.kernel (sendData (srv.conns c) b script srv.kernel).kernel
        (srv.conns c).fd box ended := by
    exact fun ended other => given.mono fun last => absurd last other
  rcases srv.eventWrite_cases c script with
    ⟨idle, _⟩ | ⟨b', waits', _, ⟨ret, called⟩ | ⟨ret, called⟩ | ⟨ret, called⟩ |
      ⟨ret', ret, blocked, failed, called⟩⟩
  · have positive := sized.positive
    rcases idle with none | empty
    · rw [none] at waits
      contradiction
    · omega
  all_goals
    obtain rfl : b' = b := Option.some.inj (waits'.symm.trans waits)
    rw [called]
  · exact keeps _ (by simp [ret])
  · exact (keeps _ (by simp [ret])).before (trace_modify _ c _) rfl
  · exact (keeps _ (by simp [ret])).before (trace_modify _ c _) rfl
  · have emptied : (((srv.unloaded c b' script).epollEventModifyConn c
        eventReadBits).2.conns c).sendptr = none := by
      simp [Server.epollEventModifyConn, Server.unloaded]
    exact (given.mono fun _ => emptied).before (trace_modify _ c _) rfl

/-! ## One step -/

/-- What waits in the slot of an object is in the box of the accept that holds the object. -/
def Boxed (s : State) (box : Boxes Nat UInt8) : Prop :=
  ∀ c, c < s.srv.nconn → ∀ b, (s.srv.conns c).sendptr = some b → 0 < (s.srv.conns c).sendlen →
    box (s.srv.client c) = b.payload

/-- In a disciplined run a callback finds no open descriptor in a pooled object. -/
theorem Orderly.servesLent (orderly : Orderly s) (l : Label) : ServesLent s l := by
  cases l with
  | sockopt answer =>
    intro c called pooled
    have scheduled := orderly.scheduled
    cases at_pc : s.reactor with
    | sockopt fr own =>
      rw [at_pc] at called scheduled
      obtain rfl : own = c := Option.some.inj called
      have idle : ¬s.srv.roster.Live own := fun live => orderly.kept.sound.live_busy live pooled
      have closed := scheduled.settled.resolve_left idle
      exact Option.not_isSome_iff_eq_none.mp closed
    | _ =>
      rw [at_pc] at called
      contradiction
  | _ => trivial

/-- A step that leaves one object with nothing to send, the others as they were. -/
theorem Boxed.emptied {c : ConnPtr} {obj : ConnObj} (boxed : Boxed s box)
    (conns : s'.srv.conns = Function.update s.srv.conns c obj)
    (empty : obj.sendptr = none ∨ obj.sendlen = 0)
    (others : ∀ p, p ≠ c → p < s'.srv.nconn → p < s.srv.nconn ∧
      s'.srv.client p = s.srv.client p) : Boxed s' box := by
  intro p known b waits positive
  by_cases same : p = c
  · rw [same, conns, Function.update_self] at waits positive
    rcases empty with none | zero
    · rw [none] at waits
      contradiction
    · omega
  · obtain ⟨before, client⟩ := others p same known
    rw [conns, Function.update_of_ne same] at waits positive
    rw [client]
    exact boxed p before b waits positive

/-- Every step but `ServerSend` leaves the messages of the slots where they are, or drops them. -/
theorem Boxed.quiet (boxed : Boxed s box) (current : Current s) (slots : SlotStep s l s')
    (other : ∀ c data len granted, l ≠ .send c data len granted) : Boxed s' box := by
  cases slots with
  | kept slots books _ _ =>
    intro c known b waits positive
    rw [(slots c).len] at positive
    rw [books.client]
    exact boxed c (books.nconn ▸ known) b ((slots c).ptr.symm.trans waits) positive
  | @connected fr c _ _ _ conns books _ =>
    intro p known b waits positive
    rw [books.client]
    rw [books.nconn] at known
    by_cases same : p = c
    · rw [same, conns, Function.update_self] at waits positive
      rw [same]
      exact boxed c (same ▸ known) b waits positive
    · rw [conns, Function.update_of_ne same] at waits positive
      exact boxed p known b waits positive
  | retired conns _ empty _ nconn _ client _ _ =>
    exact boxed.emptied conns (.inr empty) fun p _ known => ⟨nconn ▸ known, by rw [client]⟩
  | @lent c rest size obj next conns _ length _ nconn _ client _ _ =>
    have empty : obj.sendlen = 0 := length.elim (fun same => same.trans (current.taken next)) id
    refine boxed.emptied conns (.inr empty) fun p distinct known => ⟨?_, ?_⟩
    · exact next.lt_of_ne (nconn ▸ known) distinct
    · rw [client, Function.update_of_ne distinct]
  | unloaded _ _ conns none _ _ books _ =>
    exact boxed.emptied conns (.inl none) fun p _ known =>
      ⟨books.nconn ▸ known, by rw [books.client]⟩
  | stored called _ _ _ _ _ _ _ _ _ _ _ => exact absurd called (other _ _ _ _)

/-- A message put into the slot of an object and into the box of the accept that holds it. -/
theorem Boxed.stored {c : ConnPtr} {obj : ConnObj} {message : List UInt8} (boxed : Boxed s box)
    (assigned : Assigned s) (known : c < s.srv.nconn)
    (conns : s'.srv.conns = Function.update s.srv.conns c obj)
    (nconn : s'.srv.nconn = s.srv.nconn) (client : s'.srv.client = s.srv.client)
    (filled : ∀ b, obj.sendptr = some b → b.payload = message) :
    Boxed s' (Function.update box (s.srv.client c) message) := by
  intro p inside b waits positive
  rw [nconn] at inside
  rw [client]
  by_cases same : p = c
  · rw [same, conns, Function.update_self] at waits
    rw [same, Function.update_self]
    exact (filled b waits).symm
  · have distinct : s.srv.client p ≠ s.srv.client c := fun equal =>
      same (assigned.apart p c inside known equal)
    rw [conns, Function.update_of_ne same] at waits positive
    rw [Function.update_of_ne distinct]
    exact boxed p inside b waits positive

/-- `ServerSend` puts its message into the box of the accept that holds the object. -/
theorem Boxed.send {c : ConnPtr} {data : Option Memory} {len : Int} {granted : Bool}
    (boxed : Boxed s box) (assigned : Assigned s) (small : len < 2 ^ 31)
    (stepped : EpollNet.step s (.send c data len granted) = some s') :
    ∃ box', run Boxes.step box (sendTaken s.srv c data len granted) = some box' ∧
      Boxed s' box' := by
  simp only [EpollNet.step] at stepped
  split at stepped
  · rename_i known
    obtain rfl := Option.some.inj stepped
    by_cases goes : len > 0 ∧ (s.srv.conns c).activity = .connected
    · obtain ⟨sent, called⟩ := serverSend_connected data granted goes
      have nothing : (cStrMalloc s.srv.heap granted data len).1 = none →
          Boxed { s with srv := s.srv.serverSend c data len granted } box := by
        intro none
        rw [called]
        exact boxed.emptied rfl (.inl none) fun p _ inside => ⟨inside, rfl⟩
      cases data with
      | none => exact ⟨box, rfl, nothing rfl⟩
      | some m =>
        have made := cStrMalloc_some s.srv.heap granted m goes.1 (by omega)
        cases granted with
        | false => exact ⟨box, by simp [sendTaken, run], nothing (congrArg Prod.fst made)⟩
        | true =>
          refine ⟨Function.update box (s.srv.client c) (m.copy len.toNat), ?_, ?_⟩
          · simp [sendTaken, goes, run, Boxes.step]
          · rw [called]
            refine boxed.stored assigned known rfl rfl rfl fun b waits => ?_
            have copied := waits.symm.trans (congrArg Prod.fst made)
            simp only [if_true, Option.some.injEq] at copied
            simp [copied, Buf.payload, Memory.copy]
    · have idle : s.srv.serverSend c data len granted = s.srv := by
        simp [Server.serverSend, Server.serverSendStore, goes]
      have silent : sendTaken s.srv c data len granted = [] := by
        cases data with
        | none => rfl
        | some m => exact if_neg fun all => goes ⟨all.1, all.2.1⟩
      rw [silent, idle]
      exact ⟨box, rfl, boxed⟩
  · contradiction

/-- The calls between two states are those the history has more of. -/
theorem callsUntil_eq {calls : List Call}
    (trace : s'.srv.kernel.trace = calls.reverse ++ s.srv.kernel.trace) :
    s.callsUntil s' = calls := by
  simp [State.callsUntil, trace]

/-- Who holds what is the same after `event_write`. -/
theorem sameHolders_eventWrite (srv : Server) (c : ConnPtr) (script : WriteScript) :
    srv.SameHolders (srv.eventWrite c script).2 := by
  rcases srv.eventWrite_cases c script with ⟨_, called⟩ | ⟨b, _, _, ⟨_, called⟩ | ⟨_, called⟩ |
      ⟨_, called⟩ | ⟨_, _, _, _, called⟩⟩
  all_goals rw [called]
  · exact ⟨rfl, rfl, rfl⟩
  · exact sameHolders_sending srv c b script
  · exact (sameHolders_sending srv c b script).trans (sameHolders_modify _ c _)
  · exact (sameHolders_sending srv c b script).trans (sameHolders_modify _ c _)
  · have sent := sameHolders_sending srv c b script
    exact sent.trans (Server.SameHolders.trans ⟨rfl, rfl, rfl⟩ (sameHolders_modify _ c _))

/-- `event_write` takes its bytes from the box of the client it serves. -/
theorem Boxed.write {script : WriteScript} (boxed : Boxed s box) (orderly : Orderly s)
    (attributed : Attributed s) (assigned : Assigned s) (current : Current s) (posted : Posted s)
    (stepped : EpollNet.step s (.write script) = some s') :
    ∃ box', run Boxes.step box (replied s (.write script)) = some box' ∧ Boxed s' box' := by
  have quiet : Boxed s' box := boxed.quiet current (step_slots stepped) nofun
  have scheduled := orderly.scheduled
  have shown : replied s (.write script) =
      (s.callsUntil s').flatMap (Call.given s.srv.kernel.sock) := by
    rw [replied, stepped]
  have silent : s'.srv.kernel = s.srv.kernel →
      run Boxes.step box (replied s (.write script)) = some box := by
    intro same
    have none : s.callsUntil s' = [] := callsUntil_eq (congrArg Kernel.trace same)
    rw [shown, none]
    rfl
  simp only [EpollNet.step] at stepped
  split at stepped
  · rename_i fr c at_write
    rw [at_write] at scheduled
    have serving : Serving s.srv.roster s.srv.targets fr c := scheduled
    have known : c < s.srv.nconn := serving.known
    split at stepped
    · obtain rfl := Option.some.inj stepped
      have srv := afterWrite_srv (s := s) fr (s.srv.eventWrite c script)
      rcases s.srv.eventWrite_cases c script with ⟨_, called⟩ | ⟨b, waits, positive, _⟩
      · exact ⟨box, silent (by rw [srv, called]), quiet⟩
      · obtain ⟨⟨client, older, newest⟩, length⟩ := posted.newest c known b waits
        have full : (s.srv.conns c).sendlen = b.str.len := length.resolve_left (by omega)
        have member : (c, client, b) ∈ s.srv.sent :=
          List.mem_of_mem_filter (newest ▸ List.mem_cons_self)
        -- an open descriptor belongs to the client that holds the object
        have own : ∀ sock, s.srv.kernel.sock (s.srv.conns c).fd = some sock →
            sock.client = s.srv.client c := by
          intro sock found
          have live : s.srv.roster.Live c :=
            serving.settled.live (Option.isSome_iff_exists.mpr ⟨sock, found⟩)
          have named := (attributed.named _ _ live serving.client).1
          rw [Kernel.clientOf] at named
          simp only [Server.roster, found, Option.map_some, Option.some.injEq] at named
          exact named
        have holds : ∀ sock, s.srv.kernel.sock (s.srv.conns c).fd = some sock →
            box sock.client = b.payload := by
          intro sock found
          rw [own sock found]
          exact boxed c known b waits positive
        obtain ⟨calls, box', trace, ran, left⟩ :=
          eventWrite_gives (posted.sized _ member) waits full holds script
        obtain ⟨holders, size, _⟩ := sameHolders_eventWrite s.srv c script
        rw [← srv] at trace left holders size
        refine ⟨box', ?_, ?_⟩
        · rw [shown, callsUntil_eq trace]
          exact ran
        · rcases left with rfl | ⟨empty, sock, found, rfl⟩
          · exact quiet
          · intro p inside b' waits' positive'
            have different : p ≠ c := by
              rintro rfl
              rw [empty] at waits'
              contradiction
            have distinct : s.srv.client p ≠ s.srv.client c := fun equal =>
              different (assigned.apart p c (size ▸ inside) known equal)
            have held := quiet p inside b' waits' positive'
            rw [holders] at held ⊢
            rw [own sock found, Function.update_of_ne distinct]
            exact held
    · obtain rfl := Option.some.inj stepped
      exact ⟨box, silent rfl, quiet⟩
  · contradiction

/-! ## Runs -/

/-- Accept never answers zero, nobody sends while the first entry is still to be loaded, and
`ServerSend` is called with an `int`. -/
def Replying (s : State) (l : Label) : Prop := Disciplined s l ∧ IntLengths s l

instance (s : State) (l : Label) : Decidable (Replying s l) :=
  inferInstanceAs (Decidable (Disciplined s l ∧ IntLengths s l))

/-- What is known of the objects and of what they have to send. -/
structure Ready (s : State) : Prop where
  /-- What the server works with was created. -/
  known : Known s
  /-- Registrations, descriptors and pool agree. -/
  orderly : Orderly s
  /-- So do descriptors, objects and accepts. -/
  attributed : Attributed s
  /-- No accept holds two objects. -/
  assigned : Assigned s
  /-- Pooled objects have nothing to send. -/
  current : Current s
  /-- Messages are what was stored. -/
  posted : Posted s

/-- Every step keeps it. -/
theorem Ready.step (ready : Ready s) (allowed : Replying s l)
    (stepped : EpollNet.step s l = some s') : Ready s' := by
  have cases' := step_cases stepped
  have lent := ready.orderly.servesLent l
  exact ⟨ready.known.step cases', ready.orderly.step allowed.1 cases',
    ready.attributed.step ready.orderly allowed.1 cases', ready.assigned.step cases',
    ready.current.step lent (step_slots stepped), ready.posted.step ready.known allowed.2 stepped⟩

/-- A server starts with one object, which no accept holds. -/
theorem Started.assigned (started : Started s) : Assigned s := by
  have nconn := started.nconn
  have only : ∀ c, c < s.srv.nconn → c = serverConn := by
    intro c known
    rw [nconn] at known
    exact Nat.lt_one_iff.mp known
  have client : s.srv.client serverConn = 0 := by
    have listenErr : ∀ srv : Server, srv.client serverConn = 0 →
        srv.listenErr.client serverConn = 0 := by
      intro srv zero
      rcases listenErr_cases srv with same | ⟨_, closed⟩
      · rw [same, zero]
      · rw [closed]
        exact zero
    obtain ⟨memory, event, failed | ⟨fd, _, _, failed | ⟨granted, workers, running⟩⟩⟩ :=
      started.cases
    · rw [failed]
      exact listenErr _ rfl
    · rw [failed]
      exact listenErr _ rfl
    · rw [running]
      rfl
  constructor
  · intro c known
    rw [only c known, client]
    exact Nat.zero_le _
  · intro c p known known' _
    rw [only c known, only p known']

/-- So it starts ready. -/
theorem Started.ready (started : Started s) : Ready s :=
  ⟨started.known, started.orderly, started.attributed, started.assigned, started.current,
    started.posted⟩

/-- Every step shows events of the boxes. -/
theorem replied_simulates : Simulates step Replying Boxes.step replied Ready Boxed := by
  intro s l s' box ready boxed allowed stepped
  have quiet : (∀ c data len granted, l ≠ .send c data len granted) → Boxed s' box :=
    boxed.quiet ready.current (step_slots stepped)
  cases l with
  | send c data len granted => exact boxed.send ready.assigned allowed.2 stepped
  | write script =>
    exact boxed.write ready.orderly ready.attributed ready.assigned ready.current ready.posted
      stepped
  | _ => exact ⟨box, rfl, quiet nofun⟩

/-- In every run of this kind what `ServerSend` takes and what the clients' sockets accept is a run
of one box for each client. So what a client's sockets accept is its own messages in the order in
which `ServerSend` took them, each any number of times over and then perhaps in part; and what waits
in the slot of an object is in the box of the client that holds it, and has gone out whole each
time so far. -/
theorem server_refines_boxes {labels : List Label} (started : Started s)
    (path : Path step Replying s labels s') :
    ∃ box, run Boxes.step (fun _ => []) (collect step replied s labels) = some box ∧
      (∀ client, ∃ blocks,
        List.Forall₂ Repeated (messages client (collect step replied s labels)) blocks ∧
          takes client (collect step replied s labels) = blocks.flatten) ∧
      ∀ c, c < s'.srv.nconn → ∀ b, (s'.srv.conns c).sendptr = some b →
        0 < (s'.srv.conns c).sendlen → box (s'.srv.client c) = b.payload ∧
          ∃ before blocks copies,
            messages (s'.srv.client c) (collect step replied s labels) = before ++ [b.payload] ∧
              List.Forall₂ Repeated before blocks ∧
                takes (s'.srv.client c) (collect step replied s labels) =
                  blocks.flatten ++ (List.replicate copies b.payload).flatten := by
  have empty : Boxed s fun _ => [] := by
    intro c known b waits _
    rw [started.nconn] at known
    obtain rfl : c = serverConn := Nat.lt_one_iff.mp known
    rw [started.blank.sendptr] at waits
    contradiction
  have kept : ∀ s l s', Ready s → Replying s l → step s l = some s' → Ready s' :=
    fun _ _ _ ready allowed stepped => ready.step allowed stepped
  obtain ⟨box, shown, boxed⟩ := replied_simulates.path kept path started.ready empty
  have ready := path.keeps _ kept started.ready
  refine ⟨box, shown, fun client => (Boxes.run_blocks shown client).taken, ?_⟩
  intro c known b waits positive
  have held := boxed c known b waits positive
  obtain ⟨⟨client, older, newest⟩, length⟩ := ready.posted.newest c known b waits
  have sized := ready.posted.sized (c, client, b)
    (List.mem_of_mem_filter (newest ▸ List.mem_cons_self))
  have full : b.payload ≠ [] := by
    intro none
    have whole := sized.whole
    have more := sized.positive
    rw [none, List.length_nil] at whole
    omega
  have account := (Boxes.run_blocks shown (s'.srv.client c)).newest (held ▸ full)
  rw [held] at account
  exact ⟨held, account⟩

/-- Two clients with a reply each. The first one's goes out twice and the second one's in part. -/
theorem server_refines_boxes_two : ∃ labels t box, Path step Replying Sample.start labels t ∧
    run Boxes.step (fun _ => []) (collect step replied Sample.start labels) = some box ∧
      messages 1 (collect step replied Sample.start labels) = [[65, 65]] ∧
      takes 1 (collect step replied Sample.start labels) = [65, 65, 65, 65] ∧
      takes 2 (collect step replied Sample.start labels) = [66] := by
  let labels := Sample.connecting 4 ++ Sample.connecting 5 ++
    [.send 1 (some fun _ => 65) 2 true, .send 2 (some fun _ => 66) 2 true,
      .wait [(4, epollOut), (5, epollOut)], .test, .sockopt (some 0), .read (Sample.reading []),
      .write [.ok 2, .ok 2, .error .eagain], .test, .test, .sockopt (some 0),
      .read (Sample.reading []), .write [.ok 1]]
  have completed : (runAllowed step Replying Sample.start labels).isSome = true ∧
      messages 1 (collect step replied Sample.start labels) = [[65, 65]] ∧
      takes 1 (collect step replied Sample.start labels) = [65, 65, 65, 65] ∧
      takes 2 (collect step replied Sample.start labels) = [66] := by
    decide +kernel
  obtain ⟨ran, first, taken, other⟩ := completed
  obtain ⟨t, ran⟩ := Option.isSome_iff_exists.mp ran
  have path := Path.of_runAllowed ran
  obtain ⟨box, shown, _⟩ := server_refines_boxes Sample.started path
  exact ⟨labels, t, box, path, shown, first, taken, other⟩

end EpollNet
