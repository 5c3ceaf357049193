import EpollNet.Verif.Slots
import EpollNet.Verif.Written

/-!
# Replies and the accepts they belong to

`connobjReset` keeps the send pointer, so an object leaves the pool with the buffer of the
connection it served before. What protects the next connection is the length: it is zero in the
pool, and a positive length is always that of a buffer stored in the accept that still holds the
object. The one way around it is a callback that finds an open descriptor in a pooled object,
connects it there and lets `ServerSend` fill its slot.
-/

namespace EpollNet

open EpollNet.Basis

/-- The object whose pending error the callback is about to read. -/
def Pc.called : Pc → Option ConnPtr
  | .sockopt _ c => some c
  | _ => none

/-- No callback finds an open descriptor in a pooled object. -/
def ServesLent (s : State) : Label → Prop
  | .sockopt _ => ∀ c ∈ s.reactor.called, c ∈ s.srv.pool →
      s.srv.kernel.sock (s.srv.conns c).fd = none
  | _ => True

instance (s : State) (l : Label) : Decidable (ServesLent s l) :=
  match l with
  | .sockopt _ => inferInstanceAs (Decidable (∀ c ∈ s.reactor.called, c ∈ s.srv.pool →
      s.srv.kernel.sock (s.srv.conns c).fd = none))
  | .wait _ | .test | .accept _ | .read _ | .push | .post | .write _ | .arrive _ | .send _ _ _ _
  | .worker _ | .interrupt _ => inferInstanceAs (Decidable True)

variable {s s' : State} {l : Label}

/-! ## The invariant -/

/-- Pooled objects have nothing to send, and what the others have to send was stored in the accept
that holds them. -/
structure Current (s : State) : Prop where
  /-- A pooled object is not connected and its length is zero. -/
  pooled : ∀ c ∈ s.srv.pool, (s.srv.conns c).activity ≠ .connected ∧ (s.srv.conns c).sendlen = 0
  /-- A positive length is that of a buffer stored in the current accept. -/
  stored : ∀ c, c < s.srv.nconn → ∀ b, (s.srv.conns c).sendptr = some b →
    0 < (s.srv.conns c).sendlen → (c, s.srv.client c, b) ∈ s.srv.sent
  /-- Buffers were allocated in the order they were stored. -/
  descending : (s.srv.sent.map fun entry => entry.2.2.addr).Pairwise (· > ·)
  /-- They were allocated. -/
  below : ∀ entry ∈ s.srv.sent, entry.2.2.addr < s.srv.heap.next

/-- The object an accept takes has nothing to send. -/
theorem Current.taken {c nconn : ConnPtr} {rest : List ConnPtr} (current : Current s)
    (next : s.srv.roster.Next c rest nconn) : (s.srv.takenConn c).sendlen = 0 := by
  cases next with
  | pooled queue =>
    have member : c ∈ s.srv.pool := by
      rw [Server.roster_pool] at queue
      exact queue ▸ List.mem_cons_self
    rw [Server.takenConn, if_neg (List.ne_nil_of_mem member)]
    exact (current.pooled c member).2
  | fresh queue =>
    exact congrArg ConnObj.sendlen (if_pos queue)

/-- A step that stores no buffer, with the objects that have something to send accounted for. -/
theorem Current.congr (current : Current s) (sent : s'.srv.sent = s.srv.sent)
    (next : s.srv.heap.next ≤ s'.srv.heap.next)
    (pooled : ∀ c ∈ s'.srv.pool,
      (s'.srv.conns c).activity ≠ .connected ∧ (s'.srv.conns c).sendlen = 0)
    (slots : ∀ c, c < s'.srv.nconn → 0 < (s'.srv.conns c).sendlen →
      (s'.srv.conns c).sendptr = none ∨
      c < s.srv.nconn ∧ s'.srv.client c = s.srv.client c ∧
        (s'.srv.conns c).sendptr = (s.srv.conns c).sendptr ∧ 0 < (s.srv.conns c).sendlen) :
    Current s' := by
  refine ⟨pooled, fun c known b waits positive => ?_, sent ▸ current.descending, ?_⟩
  · rcases slots c known positive with none | ⟨before, client, ptr, length⟩
    · rw [none] at waits
      contradiction
    · rw [sent, client]
      exact current.stored c before b (ptr ▸ waits) length
  · intro entry member
    exact lt_of_lt_of_le (current.below entry (sent ▸ member)) next

/-- A step that leaves an object with nothing to send, the others as they were. -/
theorem Current.emptied {c : ConnPtr} {obj : ConnObj} (current : Current s)
    (conns : s'.srv.conns = Function.update s.srv.conns c obj) (empty : obj.sendlen = 0)
    (sent : s'.srv.sent = s.srv.sent) (next : s.srv.heap.next ≤ s'.srv.heap.next)
    (idle : c ∈ s'.srv.pool → obj.activity ≠ .connected)
    (pool : ∀ p ∈ s'.srv.pool, p ≠ c → p ∈ s.srv.pool)
    (others : ∀ p, p ≠ c → p < s'.srv.nconn → p < s.srv.nconn ∧
      s'.srv.client p = s.srv.client p) : Current s' := by
  have other : ∀ p, p ≠ c → s'.srv.conns p = s.srv.conns p := fun p distinct => by
    rw [conns, Function.update_of_ne distinct]
  have self : s'.srv.conns c = obj := by
    rw [conns, Function.update_self]
  refine current.congr sent next (fun p member => ?_) fun p known positive => ?_
  · by_cases same : p = c
    · subst same
      rw [self]
      exact ⟨idle member, empty⟩
    · rw [other p same]
      exact current.pooled p (pool p member same)
  · have distinct : p ≠ c := by
      rintro rfl
      rw [self, empty] at positive
      contradiction
    obtain ⟨before, client⟩ := others p distinct known
    rw [other p distinct] at positive ⊢
    exact .inr ⟨before, client, rfl, positive⟩

/-- An object outside the pool is connected. -/
theorem Current.connect {c : ConnPtr} (current : Current s) (outside : c ∉ s.srv.pool)
    (conns : s'.srv.conns =
      Function.update s.srv.conns c { s.srv.conns c with activity := .connected })
    (books : s.srv.SameBooks s'.srv) (next : s.srv.heap.next ≤ s'.srv.heap.next) : Current s' := by
  have slot : ∀ p, (s'.srv.conns p).sendlen = (s.srv.conns p).sendlen ∧
      (s'.srv.conns p).sendptr = (s.srv.conns p).sendptr := by
    intro p
    rw [conns]
    by_cases same : p = c
    · rw [same, Function.update_self]
      exact ⟨rfl, rfl⟩
    · rw [Function.update_of_ne same]
      exact ⟨rfl, rfl⟩
  refine current.congr books.sent next (fun p member => ?_) fun p known positive => ?_
  · rw [books.pool] at member
    have distinct : p ≠ c := by
      rintro rfl
      exact outside member
    rw [conns, Function.update_of_ne distinct]
    exact current.pooled p member
  · rw [(slot p).1] at positive
    exact .inr ⟨books.nconn ▸ known, by rw [books.client], (slot p).2, positive⟩

/-- `ServerSend` fills the slot of a connected object. -/
theorem Current.store {c : ConnPtr} {obj : ConnObj} (current : Current s)
    (connected : (s.srv.conns c).activity = .connected)
    (conns : s'.srv.conns = Function.update s.srv.conns c obj)
    (grown : s.srv.heap.Grown s'.srv.heap obj.sendptr) (nconn : s'.srv.nconn = s.srv.nconn)
    (pool : s'.srv.pool = s.srv.pool) (client : s'.srv.client = s.srv.client)
    (sent : s'.srv.sent = (match obj.sendptr with
      | some b => (c, s.srv.client c, b) :: s.srv.sent
      | none => s.srv.sent)) : Current s' := by
  have outside : c ∉ s.srv.pool := fun member => (current.pooled c member).1 connected
  have other : ∀ p, p ≠ c → s'.srv.conns p = s.srv.conns p := fun p distinct => by
    rw [conns, Function.update_of_ne distinct]
  have older : ∀ entry ∈ s.srv.sent, entry ∈ s'.srv.sent := by
    intro entry member
    rw [sent]
    cases obj.sendptr with
    | none => exact member
    | some b => exact List.mem_cons_of_mem _ member
  refine ⟨fun p member => ?_, fun p inside b waits positive => ?_, ?_, ?_⟩
  · rw [pool] at member
    have distinct : p ≠ c := by
      rintro rfl
      exact outside member
    rw [other p distinct]
    exact current.pooled p member
  · by_cases same : p = c
    · subst same
      rw [conns, Function.update_self] at waits
      rw [sent, client, waits]
      exact List.mem_cons_self
    · rw [other p same] at waits positive
      rw [client]
      exact older _ (current.stored p (nconn ▸ inside) b waits positive)
  · rw [sent]
    cases made : obj.sendptr with
    | none => exact current.descending
    | some b =>
      refine List.pairwise_cons.mpr ⟨fun a member => ?_, current.descending⟩
      obtain ⟨entry, old, rfl⟩ := List.mem_map.mp member
      exact lt_of_lt_of_le (current.below entry old) (grown.fresh b made).1
  · intro entry member
    rw [sent] at member
    cases made : obj.sendptr with
    | none =>
      rw [made] at member
      exact lt_of_lt_of_le (current.below entry member) grown.le
    | some b =>
      rw [made] at member
      rcases List.mem_cons.mp member with rfl | old
      · exact (grown.fresh b made).2
      · exact lt_of_lt_of_le (current.below entry old) grown.le

/-- Every step that serves no pooled object's open descriptor keeps the buffers current. -/
theorem Current.step (current : Current s) (lent : ServesLent s l) (stepped : SlotStep s l s') :
    Current s' := by
  cases stepped with
  | kept slots books _ next =>
    refine current.congr books.sent next (fun c member => ?_) fun c known positive => ?_
    · obtain ⟨idle, empty⟩ := current.pooled c (books.pool ▸ member)
      exact ⟨fun connected => idle ((slots c).activity connected), (slots c).len.trans empty⟩
    · rw [(slots c).len] at positive
      exact .inr ⟨books.nconn ▸ known, by rw [books.client], (slots c).ptr, positive⟩
  | @connected fr c at_sockopt called isOpen conns books heap =>
    -- the object served has an open descriptor, so it is not in the pool
    have outside : c ∉ s.srv.pool := by
      intro member
      subst called
      rw [lent c (by rw [at_sockopt]; rfl) member] at isOpen
      contradiction
    exact current.connect outside conns books (by rw [heap])
  | @retired c obj conns ptr empty idle nconn pool client sent heap =>
    refine current.emptied conns empty sent (by rw [heap]) (fun _ => idle)
      (fun p member distinct => ?_) fun p _ known => ⟨nconn ▸ known, by rw [client]⟩
    rw [pool] at member
    exact (List.mem_append.mp member).resolve_right (by simpa using distinct)
  | @lent c rest size obj next conns ptr length idle nconn pool client sent heap =>
    have empty : obj.sendlen = 0 := by
      rcases length with same | zero
      · exact same.trans (current.taken next)
      · exact zero
    refine current.emptied conns empty sent (by rw [heap]) (fun _ => idle)
      (fun p member distinct => ?_) fun p distinct known => ⟨?_, ?_⟩
    · rcases pool with taken | ⟨returned, _⟩
      · exact next.mem_rest (taken ▸ member)
      · rw [returned] at member
        exact next.mem_rest ((List.mem_append.mp member).resolve_right (by simpa using distinct))
    · exact next.lt_of_ne (nconn ▸ known) distinct
    · rw [client, Function.update_of_ne distinct]
  | @unloaded fr c b obj _ _ conns none empty activity books heap =>
    refine current.emptied conns empty books.sent (by rw [heap]; rfl) (fun member => ?_)
      (fun p member _ => books.pool ▸ member) fun p _ known => ⟨books.nconn ▸ known, ?_⟩
    · rw [activity]
      exact (current.pooled c (books.pool ▸ member)).1
    · rw [books.client]
  | stored _ _ _ connected conns _ _ grown nconn pool client sent =>
    exact current.store connected conns grown nconn pool client sent

/-- Two buffers at one address were stored once. -/
theorem Current.entry_unique (current : Current s) {e f : ConnPtr × Nat × Buf}
    (first : e ∈ s.srv.sent) (second : f ∈ s.srv.sent) (same : e.2.2.addr = f.2.2.addr) :
    e = f := by
  have distinct : (s.srv.sent.map fun entry => entry.2.2.addr).Nodup :=
    current.descending.imp fun less => ne_of_gt less
  exact List.inj_on_of_nodup_map distinct first second same

/-! ## Runs -/

/-- A server starts with nothing sent. -/
theorem Started.current (started : Started s) : Current s := by
  have sent := started.sent
  have nconn := started.nconn
  have blank := started.blank
  refine ⟨fun c member => ?_, fun c known b waits _ => ?_, ?_, ?_⟩
  · rw [started.pool] at member
    contradiction
  · rw [nconn] at known
    obtain rfl : c = serverConn := Nat.lt_one_iff.mp known
    rw [blank.sendptr] at waits
    contradiction
  · rw [sent]
    exact .nil
  · rw [sent]
    exact fun _ member => absurd member List.not_mem_nil

/-- In the step, the descriptor accepted bytes of a payload that `ServerSend` took for the object
in the given accept. -/
structure Wrote (s s' : State) (fd : Fd) (c : ConnPtr) (client : Nat) (b : Buf) : Prop where
  /-- `ServerSend` took the payload. -/
  sent : (c, client, b) ∈ s.srv.sent
  /-- The descriptor accepted more bytes out of its buffer. -/
  more : bytesAt (fun x buf => x == fd && buf == b.addr) s'.srv.kernel.trace ≠
    bytesAt (fun x buf => x == fd && buf == b.addr) s.srv.kernel.trace

/-- In every run in which no callback finds an open descriptor in a pooled object, the bytes of a
payload are written only while its object is held by the accept in which `ServerSend` took the
payload, and on the descriptor the object has from it. -/
theorem no_stale_reply (reached : Reach EpollNet.step ServesLent Started s)
    (stepped : EpollNet.step s l = some s') {fd : Fd} {c : ConnPtr} {client : Nat} {b : Buf}
    (wrote : Wrote s s' fd c client b) :
    s.srv.client c = client ∧ fd = (s.srv.conns c).fd := by
  have both : Known s ∧ Current s := by
    apply reached.invariant
    · exact fun _ started => ⟨started.known, started.current⟩
    · intro s l s' inv lent stepped
      exact ⟨inv.1.step (step_cases stepped), inv.2.step lent (step_slots stepped)⟩
  obtain ⟨⟨_, within⟩, current⟩ := both
  obtain ⟨fr, p, b', at_write, waits, positive, named⟩ :=
    (step_writes (step_cases stepped)).resolve_left wrote.more
  rw [at_write] at within
  simp only [Bool.and_eq_true, beq_iff_eq] at named
  have entry := current.stored p within.1 b' waits positive
  have same := current.entry_unique entry wrote.sent named.2
  simp only [Prod.mk.injEq] at same
  obtain ⟨rfl, held, _⟩ := same
  exact ⟨held, named.1.symm⟩

/-- The payload, with its object and accept, out of whose buffer one `event_write` makes the
descriptor accept bytes. -/
def State.writing (s : State) (fd : Fd) (script : List (Except Errno Nat)) :
    Option (ConnPtr × Nat × Buf) :=
  (step s (.write script)).bind fun s' => s.srv.sent.find? fun entry =>
    bytesAt (fun x buf => x == fd && buf == entry.2.2.addr) s'.srv.kernel.trace !=
      bytesAt (fun x buf => x == fd && buf == entry.2.2.addr) s.srv.kernel.trace

/-- Such a payload is written in the step. -/
theorem wrote_of_writing {fd : Fd} {script : List (Except Errno Nat)} {c : ConnPtr} {client : Nat}
    {b : Buf} (writing : s.writing fd script = some (c, client, b)) :
    ∃ s', step s (.write script) = some s' ∧ Wrote s s' fd c client b := by
  obtain ⟨s', stepped, found⟩ := Option.bind_eq_some_iff.mp writing
  have more := List.find?_some found
  exact ⟨s', stepped, List.mem_of_find?_eq_some found, by simpa using more⟩

/-- A payload goes out in the accept in which it was taken. -/
theorem no_stale_reply_own : ∃ (s s' : State) (b : Buf), Wrote s s' 4 1 1 b ∧
    s.srv.client 1 = 1 ∧ (4 : Fd) = (s.srv.conns 1).fd := by
  have completed : (runAllowed EpollNet.step ServesLent Sample.start
      (Sample.connecting 4 ++ [.send 1 (some fun _ => 65) 3 true, .wait [(4, epollOut)], .test,
        .sockopt (some 0), .read (Sample.reading [])])).map
        (fun s => (s.writing 4 [.ok 3, .ok 0]).any fun entry =>
          entry.1 == 1 && entry.2.1 == 1) = some true := by
    decide +kernel
  obtain ⟨s, reached, passed⟩ := Reach.exists_of_run Sample.started completed
  obtain ⟨⟨c, client, b⟩, writing, own⟩ := Option.any_eq_true _ _ |>.mp passed
  simp only [Bool.and_eq_true, beq_iff_eq] at own
  obtain ⟨rfl, rfl⟩ := own
  obtain ⟨s', stepped, wrote⟩ := wrote_of_writing writing
  exact ⟨s, s', b, wrote, no_stale_reply reached stepped wrote⟩

/-- Descriptor zero is accepted and never closed. A write has taken the error of its reset, and
the entry before it has set `EVENT_READ`, so both callbacks of the hang-up read the end of the
stream and its object goes to the pool twice. The next two clients are given it, and the second
receives what was sent to the first. -/
theorem stale_reply : ¬∀ s, Reach EpollNet.step (fun _ _ => True) Started s → ∀ l s',
    EpollNet.step s l = some s' → ∀ fd c client b sock, Wrote s s' fd c client b →
      s.srv.kernel.sock fd = some sock → sock.client = s.srv.client c → ¬client < sock.client := by
  intro fresh
  have completed : (runAllowed EpollNet.step (fun _ _ => True) Sample.start
      (Sample.connecting 0 ++ Sample.connecting 5 ++
        -- the first client resets after it was read and before its reply is written
        [.send 1 (some fun _ => 65) 2 true, .arrive ⟨5, [66], false⟩,
          .wait [(5, epollIn), (0, epollOut)], .test, .test, .sockopt (some 0),
          .read (Sample.reading [⟨[], .ok 1⟩]), .push, .post, .write [],
          .test, .sockopt (some 0), .read (Sample.reading [⟨[], .error .eagain⟩]),
          .arrive ⟨0, [], true⟩, .write [.error .other], .test,
          -- its hang-up is served twice, each time with `EVENT_READ`
          .arrive ⟨5, [66], false⟩,
          .wait [(5, epollIn), (0, epollIn ||| epollHup)], .test, .test, .sockopt (some 0),
          .read (Sample.reading [⟨[], .ok 1⟩]), .push, .post, .write [],
          .test, .sockopt (some 0), .read (Sample.reading [⟨[], .ok 0⟩]), .write [],
          .test, .sockopt (some 0), .read (Sample.reading [⟨[], .ok 0⟩]), .write []] ++
        Sample.connecting 6 ++
        -- the third client is sent a reply, and the fourth is accepted with its object
        [.wait [(3, epollIn)], .test, .test, .send 1 (some fun _ => 67) 3 true,
          .accept ⟨[.ok ⟨7, [], false⟩], true, true⟩, .sockopt (some 0),
          .read (Sample.reading [⟨[], .error .eagain⟩]), .write [],
          .wait [(6, epollOut)], .test, .sockopt (some 0), .read (Sample.reading [])])).map
        (fun s => (s.writing 7 [.ok 2]).any fun entry =>
          (s.srv.kernel.sock 7).any fun sock =>
            sock.client == s.srv.client entry.1 && entry.2.1 < sock.client) = some true := by
    decide +kernel
  obtain ⟨s, reached, passed⟩ := Reach.exists_of_run Sample.started completed
  obtain ⟨⟨c, client, b⟩, writing, open'⟩ := Option.any_eq_true _ _ |>.mp passed
  obtain ⟨sock, isOpen, later⟩ := Option.any_eq_true _ _ |>.mp open'
  simp only [Bool.and_eq_true, beq_iff_eq, decide_eq_true_eq] at later
  obtain ⟨s', stepped, wrote⟩ := wrote_of_writing writing
  exact fresh s reached _ s' stepped 7 c client b sock wrote isOpen later.1 later.2

end EpollNet
