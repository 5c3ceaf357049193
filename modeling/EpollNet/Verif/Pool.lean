import EpollNet.Verif.Orderly

/-!
# The connection pool

In every state of a disciplined run no object is pooled twice and no pooled object is the data
pointer of a registered descriptor. What `getConn` hands out is therefore in use by nobody, and
`ConnMgr_Destory` frees each pooled object once. The bound on the pool is what makes the last
statement hold of an `int` counter: objects are created one per simultaneous connection, so
there are never more of them than descriptors.
-/

namespace EpollNet

open EpollNet.Basis

namespace Server

/-- The object is the data pointer of a registered descriptor. -/
def Registered (s : Server) (c : ConnPtr) : Prop :=
  ∃ fd ev, s.kernel.reg fd = some ev ∧ ev.ptr = c

/-- The pool counts as an `int`. -/
theorem pool_length_lt {s : Server} (kept : Kept s.roster) : s.pool.length < 2 ^ 31 := by
  have bounded := kept.bounded
  have card : clientFds.card = 2 ^ 31 - 1 := by
    have zero : (0 : Fd) ∈ (Finset.range (2 ^ 31)).image Int.ofNat :=
      Finset.mem_image.mpr ⟨0, Finset.mem_range.mpr (by decide), rfl⟩
    have injective : Function.Injective Int.ofNat := fun _ _ => Int.ofNat.inj
    rw [clientFds, Finset.card_erase_of_mem zero, Finset.card_image_of_injective _ injective,
      Finset.card_range]
  rw [Roster.Bounded, card, roster_pool] at bounded
  omega

/-- The freeing loop with enough rounds frees the whole queue. -/
theorem freeLoop_all (queue : List ConnPtr) : freeLoop queue.length queue = queue := by
  induction queue with
  | nil => rfl
  | cons c rest ih => simp only [List.length_cons, freeLoop, dataQueuePop, ih]

/-- `ConnMgr_Destory` frees the pool, in order. -/
theorem connMgrDestory_pool {s : Server} (kept : Kept s.roster) : s.connMgrDestory = s.pool := by
  have small := pool_length_lt kept
  have size : dataQueueSize s.pool = s.pool.length := Nat.mod_eq_of_lt (by omega)
  rw [connMgrDestory, size, if_pos small]
  exact freeLoop_all s.pool

/-- A registered object is not pooled. -/
theorem not_pooled_of_registered {s : Server} (kept : Kept s.roster) {c : ConnPtr}
    (registered : s.Registered c) : c ∉ s.pool := by
  obtain ⟨fd, ev, found, rfl⟩ := registered
  exact kept.sound.busy fd ev.ptr (by simp [found])

/-- What `getConn` hands out was registered nowhere. -/
theorem not_registered_of_getConn {s s' : Server} {granted : Bool} {c : ConnPtr}
    (kept : Kept s.roster) (given : s.getConn granted = (some c, s')) : ¬s.Registered c := by
  rintro ⟨fd, ev, found, rfl⟩
  have live : s.roster.Live ev.ptr := kept.sound.owner_live (h := fd) (by simp [found])
  rcases getConn_cases s granted with ⟨failed, _⟩ | ⟨next, rest, nconn, lends, taken⟩
  · rw [failed] at given
    simp at given
  · rw [taken] at given
    obtain rfl : next = ev.ptr := by simpa using congrArg Prod.fst given
    exact lends.not_live kept.sound live

end Server

/-- The pool holds no object twice and none in use, in every state of a disciplined run: so
`getConn` hands out no object of another client, and `ConnMgr_Destory` frees each pooled object
exactly once. -/
theorem pool_unique {s : State} (reached : Reach step Disciplined Started s) :
    s.srv.pool.Nodup ∧
      (∀ c, s.srv.Registered c → c ∉ s.srv.pool) ∧
      (∀ granted c srv', s.srv.getConn granted = (some c, srv') → ¬s.srv.Registered c) ∧
      s.srv.connMgrDestory.Nodup ∧ ∀ c, c ∈ s.srv.connMgrDestory ↔ c ∈ s.srv.pool := by
  have kept := (orderly reached).kept
  have nodup : s.srv.pool.Nodup := kept.sound.nodup
  refine ⟨nodup, fun c => Server.not_pooled_of_registered kept,
    fun granted c srv' => Server.not_registered_of_getConn kept, ?_, fun c => ?_⟩
  · rw [Server.connMgrDestory_pool kept]
    exact nodup
  · rw [Server.connMgrDestory_pool kept]

/-- A connection that came and went leaves its object in the pool, once. -/
theorem pool_unique_recycled : ∃ s : State, s.srv.pool = [1] ∧ s.srv.pool.Nodup ∧
    (∀ c, s.srv.Registered c → c ∉ s.srv.pool) ∧
    (∀ granted c srv', s.srv.getConn granted = (some c, srv') → ¬s.srv.Registered c) ∧
    s.srv.connMgrDestory.Nodup ∧ ∀ c, c ∈ s.srv.connMgrDestory ↔ c ∈ s.srv.pool := by
  have completed : (runAllowed step Disciplined Sample.start
      (Sample.connecting 4 ++ Sample.closing 4)).map (fun s => decide (s.srv.pool = [1])) =
        some true := by
    decide +kernel
  obtain ⟨s, reached, recycled⟩ := Reach.exists_of_run Sample.started completed
  exact ⟨s, of_decide_eq_true recycled, pool_unique reached⟩

end EpollNet
