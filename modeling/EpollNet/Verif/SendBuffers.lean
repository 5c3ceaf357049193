import EpollNet.Verif.Custody
import EpollNet.Verif.Slots

/-!
# Who owns the buffers of `ServerSend`

`ServerSend` puts a copy of its payload into the slot of a connection object, and `event_write`
frees it there. Between the two the slot is the only reference. `connobjReset` keeps the pointer
when the object goes back to the pool, with a buffer that nobody will send any more, and
`ServerSend` overwrites whatever the slot holds. As long as it only ever fills an empty slot every
buffer has its owner until it is freed.
-/

namespace EpollNet

open EpollNet.Basis

/-- `ServerSend` fills empty slots only. -/
def FillsEmpty (s : State) : Label → Prop
  | .send c _ len _ => 0 < len → (s.srv.conns c).activity = .connected →
      (s.srv.conns c).sendptr = none
  | _ => True

/-- Nobody calls `ServerSend` on a connection whose previous send is still pending. -/
def SendsWhenIdle (s : State) : Label → Prop
  | .send c _ _ _ => (s.srv.conns c).sendptr = none ∨ (s.srv.conns c).sendlen = 0
  | _ => True

instance (s : State) (l : Label) : Decidable (FillsEmpty s l) :=
  match l with
  | .send c _ len _ => inferInstanceAs (Decidable (0 < len →
      (s.srv.conns c).activity = .connected → (s.srv.conns c).sendptr = none))
  | .wait _ | .test | .accept _ | .sockopt _ | .read _ | .push | .post | .write _ | .arrive _
  | .worker _ | .interrupt _ => inferInstanceAs (Decidable True)

instance (s : State) (l : Label) : Decidable (SendsWhenIdle s l) :=
  match l with
  | .send c _ _ _ =>
    inferInstanceAs (Decidable ((s.srv.conns c).sendptr = none ∨ (s.srv.conns c).sendlen = 0))
  | .wait _ | .test | .accept _ | .sockopt _ | .read _ | .push | .post | .write _ | .arrive _
  | .worker _ | .interrupt _ => inferInstanceAs (Decidable True)

variable {s s' : State}

/-! ## The invariant -/

/-- A created object's slot holds the buffer. -/
def Server.Holds (s : Server) (c : ConnPtr) (b : Buf) : Prop :=
  c < s.nconn ∧ (s.conns c).sendptr = some b

/-- Every buffer of `ServerSend` was freed or lies in a slot. -/
def Buffered (s : State) : Prop :=
  ∀ entry ∈ s.srv.sent, entry.2.2.addr ∈ s.srv.heap.freed ∨ ∃ c, s.srv.Holds c entry.2.2

/-- A slot replaced by one with the same pointer holds what it held. -/
theorem Server.Holds.update {s s' : Server} {c p : ConnPtr} {b : Buf} {obj : ConnObj}
    (holds : s.Holds p b) (nconn : s.nconn ≤ s'.nconn)
    (conns : s'.conns = Function.update s.conns c obj)
    (ptr : p = c → obj.sendptr = (s.conns c).sendptr) : s'.Holds p b := by
  refine ⟨lt_of_lt_of_le holds.1 nconn, ?_⟩
  rw [conns]
  by_cases same : p = c
  · rw [same, Function.update_self, ptr same, ← same]
    exact holds.2
  · rw [Function.update_of_ne same]
    exact holds.2

/-- The object an accept takes from the pool keeps its pointer. -/
theorem takenConn_of_lt {s : Server} {c nconn : ConnPtr} {rest : List ConnPtr}
    (next : s.roster.Next c rest nconn) (known : c < s.nconn) : s.takenConn c = s.conns c := by
  cases next with
  | pooled queue =>
    have some : s.pool ≠ [] := by
      rw [Server.roster_pool] at queue
      simp [queue]
    exact if_neg some
  | fresh _ => exact absurd known (lt_irrefl _)

/-- Every step that fills an empty slot only keeps the buffers. -/
theorem Buffered.step {l : Label} (buffers : Buffered s) (empty : FillsEmpty s l)
    (stepped : SlotStep s l s') : Buffered s' := by
  intro entry member
  cases stepped with
  | kept slots books freed _ =>
    rcases buffers entry (books.sent ▸ member) with gone | ⟨p, known, holds⟩
    · exact .inl (freed _ gone)
    · exact .inr ⟨p, books.nconn.symm ▸ known, (slots p).ptr.trans holds⟩
  | connected _ _ _ conns books heap =>
    rw [heap]
    exact (buffers entry (books.sent ▸ member)).imp_right fun ⟨p, holds⟩ =>
      ⟨p, holds.update (le_of_eq books.nconn.symm) conns fun _ => rfl⟩
  | retired conns ptr _ _ nconn _ _ sent heap =>
    rw [heap]
    exact (buffers entry (sent ▸ member)).imp_right fun ⟨p, holds⟩ =>
      ⟨p, holds.update (le_of_eq nconn.symm) conns fun _ => ptr⟩
  | lent next conns ptr _ _ nconn _ _ sent heap =>
    rw [heap]
    refine (buffers entry (sent ▸ member)).imp_right fun ⟨p, holds⟩ => ⟨p, ?_⟩
    refine holds.update (nconn ▸ next.size_le) conns fun same => ?_
    rw [ptr, takenConn_of_lt next (same ▸ holds.1)]
  | @unloaded fr c b obj _ pending conns _ _ _ books heap =>
    rw [heap]
    rcases buffers entry (books.sent ▸ member) with gone | ⟨p, holds⟩
    · exact .inl (List.mem_cons_of_mem _ gone)
    · by_cases same : p = c
      · -- the slot that is emptied held this very buffer
        rw [same] at holds
        have equal : b = entry.2.2 := Option.some.inj (pending.symm.trans holds.2)
        exact .inl (equal ▸ List.mem_cons_self)
      · exact .inr ⟨p, holds.update (le_of_eq books.nconn.symm) conns (absurd · same)⟩
  | @stored c data len granted obj called known positive connected conns _ _ grown nconn _ _ sent =>
    subst called
    have none : (s.srv.conns c).sendptr = none := empty positive connected
    have older : entry ∈ s.srv.sent →
        entry.2.2.addr ∈ s'.srv.heap.freed ∨ ∃ p, s'.srv.Holds p entry.2.2 := by
      intro old
      rw [grown.freed]
      refine (buffers entry old).imp_right fun ⟨p, holds⟩ => ⟨p, ?_⟩
      refine holds.update (le_of_eq nconn.symm) conns fun same => ?_
      rw [same] at holds
      exact absurd (none.symm.trans holds.2) (by simp)
    rw [sent] at member
    cases made : obj.sendptr with
    | none =>
      rw [made] at member
      exact older member
    | some b =>
      rw [made] at member
      rcases List.mem_cons.mp member with rfl | old
      · refine .inr ⟨c, nconn.symm ▸ known, ?_⟩
        rw [conns, Function.update_self]
        exact made
      · exact older old

/-! ## Runs -/

/-- Every buffer of `ServerSend` is, until it is freed, the pointer of exactly one created object,
and it is freed at most once. -/
structure SolelyOwned (s : State) : Prop where
  /-- A buffer that was not freed has one owner. -/
  owner : ∀ entry ∈ s.srv.sent, entry.2.2.addr ∉ s.srv.heap.freed →
    ∃! c, s.srv.Holds c entry.2.2
  /-- A buffer that was freed has none. -/
  released : ∀ c b, s.srv.Holds c b → b.addr ∉ s.srv.heap.freed
  /-- Nothing is freed twice. -/
  freedOnce : s.srv.heap.freed.Nodup

/-- In every run in which `ServerSend` fills empty slots only, its buffers have one owner each
until they are freed, and none is lost. -/
theorem send_buffers_owned (reached : Reach EpollNet.step FillsEmpty Started s) :
    SolelyOwned s := by
  have owned := (custody reached).2
  have buffers : Buffered s := by
    apply reached.invariant
    · intro s started entry member
      rw [started.sent] at member
      contradiction
    · exact fun _ _ _ buffers empty stepped => buffers.step empty (step_slots stepped)
  have waiting : ∀ {c b}, s.srv.Holds c b → s.srv.waiting c = some b.addr := by
    intro c b holds
    rw [Server.waiting, holds.2]
    rfl
  constructor
  · intro entry member unfreed
    obtain ⟨c, holds⟩ := (buffers entry member).resolve_left unfreed
    refine ⟨c, holds, fun d other => ?_⟩
    exact owned.apart d c other.1 holds.1 _ (waiting other) (waiting holds)
  · intro c b holds freed
    exact (owned.waiting c holds.1 _ (waiting holds)).2 (List.mem_append_right _ freed)
  · exact (List.nodup_append.mp owned.nodup).2.1

/-- A payload waits for a connection that is closed and whose object waits in the pool. -/
theorem send_buffers_owned_pooled : ∃ s, SolelyOwned s ∧ s.srv.pool = [1] ∧
    s.srv.sent.length = 1 ∧ s.srv.heap.freed = [] := by
  have completed : (runAllowed EpollNet.step FillsEmpty Sample.start
      (Sample.connecting 4 ++ [.send 1 (some fun _ => 65) 3 true] ++ Sample.closing 4)).map
        (fun s => s.srv.pool == [1] && s.srv.sent.length == 1 && s.srv.heap.freed == []) =
      some true := by
    decide +kernel
  obtain ⟨s, reached, passed⟩ := Reach.exists_of_run Sample.started completed
  simp only [Bool.and_eq_true, beq_iff_eq] at passed
  exact ⟨s, send_buffers_owned reached, passed.1.1, passed.1.2, passed.2⟩

/-- The peer closes with a payload pending; the object is taken by the next accept with its
pointer, and the next `ServerSend` overwrites it: the first buffer is lost. -/
theorem send_buffer_lost :
    ¬∀ s, Reach EpollNet.step SendsWhenIdle Started s → SolelyOwned s := by
  intro owned
  have completed : (runAllowed EpollNet.step SendsWhenIdle Sample.start
      (Sample.connecting 4 ++ [.send 1 (some fun _ => 65) 3 true] ++ Sample.closing 4 ++
        Sample.connecting 5 ++ [.send 1 (some fun _ => 66) 3 true])).map
        (fun s => s.srv.nconn == 2 && s.srv.heap.freed == [] &&
          s.srv.sent.any fun entry => (s.srv.conns 0).sendptr != some entry.2.2 &&
            (s.srv.conns 1).sendptr != some entry.2.2) = some true := by
    decide +kernel
  obtain ⟨s, reached, passed⟩ := Reach.exists_of_run Sample.started completed
  simp only [Bool.and_eq_true, beq_iff_eq, List.any_eq_true, bne_iff_ne] at passed
  obtain ⟨⟨two, unfreed⟩, entry, member, first, second⟩ := passed
  obtain ⟨c, ⟨known, holds⟩, _⟩ := (owned s reached).owner entry member (by simp [unfreed])
  rw [two] at known
  rcases Nat.le_one_iff_eq_zero_or_eq_one.mp (Nat.lt_succ_iff.mp known) with rfl | rfl
  · exact first holds
  · exact second holds

end EpollNet
