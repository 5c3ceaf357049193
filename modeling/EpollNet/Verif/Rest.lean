import EpollNet.Basis.Descent
import EpollNet.Verif.Delivery
import EpollNet.Verif.ReceiveQueue

/-!
# The server comes to rest

Between two returns of `epoll_wait` the server's own threads can only do so much: the reactor has
the rest of its batch, and a worker needs a token for every turn of its loop. `toDo` prices what is
left, every step of a thread costs some of it, and when nothing is left to do no item waits: each
one was handed to `procread` and its blocks were freed.
-/

namespace EpollNet

open EpollNet.Basis

variable {s s' : State}

/-! ## What is left to do -/

/-- A step of the reactor inside a batch, or of a worker that was not interrupted. The environment
takes the others: what `epoll_wait` returns, arrivals, callers of `ServerSend`. -/
def Internal (_ : State) : Label → Prop
  | .wait _ | .arrive _ | .send .. | .interrupt _ => False
  | .test | .accept _ | .sockopt _ | .read _ | .push | .post | .write _ | .worker _ => True

instance (s : State) (l : Label) : Decidable (Internal s l) :=
  match l with
  | .wait _ | .arrive _ | .send .. | .interrupt _ => inferInstanceAs (Decidable False)
  | .test | .accept _ | .sockopt _ | .read _ | .push | .post | .write _ | .worker _ =>
    inferInstanceAs (Decidable True)

/-- Steps of a worker until it waits again. -/
def Worker.toDo : Worker → Nat
  | .size => 5
  | .pop => 4
  | .call _ => 3
  | .running _ => 2
  | .free _ => 1
  | .wait | .exited => 0

/-- Tests of the batch behind the one a frame is at. -/
def Frame.left (fr : Frame) : Nat :=
  2 * (fr.n - (fr.i + 1)) + match fr.test with
    | .out => 1
    | .inp => 0

/-- Steps of the reactor until it blocks again, a post counting for the turn it allows. -/
def Pc.toDo : Pc → Nat
  | .blocked | .inHandler | .stopped => 0
  | .write fr _ => 13 * fr.left + 1
  | .post fr _ => 13 * fr.left + 8
  | .push fr _ _ => 13 * fr.left + 9
  | .read fr _ => 13 * fr.left + 10
  | .sockopt fr _ => 13 * fr.left + 11
  | .accept fr => 13 * fr.left + 12
  | .test fr => 13 * fr.left + 13

/-- Everything left to do: a token is worth a turn. -/
def State.toDo (s : State) : Nat :=
  6 * s.srv.sem + (s.workers.map Worker.toDo).sum + s.reactor.toDo

/-- Behind a callback only the later tests are left. -/
theorem toDo_resume (fr : Frame) : fr.resume.toDo ≤ 13 * fr.left := by
  unfold Frame.resume
  cases test : fr.test with
  | out =>
    have here : fr.left = 2 * (fr.n - (fr.i + 1)) + 1 := by simp [Frame.left, test]
    have there : ({ fr with test := .inp } : Frame).left = 2 * (fr.n - (fr.i + 1)) := rfl
    simp only [Pc.toDo, there]
    omega
  | inp =>
    have here : fr.left = 2 * (fr.n - (fr.i + 1)) := by simp [Frame.left, test]
    simp only
    split
    · rename_i more
      have there : ({ fr with i := fr.i + 1, test := .out } : Frame).left =
          2 * (fr.n - (fr.i + 2)) + 1 := rfl
      simp only [Pc.toDo, there]
      omega
    · exact Nat.zero_le _

/-- A test enters a callback of its own or goes on behind it. -/
theorem toDo_dispatch (fr : Frame) (event : Nat → EpollEvent) :
    (fr.dispatch event).toDo ≤ 13 * fr.left + 12 := by
  have entered : ∀ (events : BitVec 32) (ptr : ConnPtr),
      (({ fr with events } : Frame).enter ptr).toDo ≤ 13 * fr.left + 12 := by
    intro events ptr
    have same : ({ fr with events } : Frame).left = fr.left := rfl
    unfold Frame.enter
    split
    · simp only [Pc.toDo, same]
      omega
    · simp only [Pc.toDo, same]
      omega
  have resumed : ∀ events : BitVec 32,
      (({ fr with events } : Frame).resume).toDo ≤ 13 * fr.left + 12 := by
    intro events
    have behind := toDo_resume { fr with events }
    have same : ({ fr with events } : Frame).left = fr.left := rfl
    omega
  unfold Frame.dispatch
  split
  · split
    · exact entered _ _
    · exact resumed fr.events
  · dsimp only
    split
    · exact entered _ _
    · exact resumed _

/-- Behind a callback less is left than anywhere in it. -/
theorem toDo_back (fr : Frame) (k : Nat) : fr.resume.toDo < 13 * fr.left + (k + 1) := by
  have behind := toDo_resume fr
  omega

/-- A step of the reactor that leaves the semaphore alone and the reactor less to do. -/
theorem toDo_reactor {srv : Server} {old pc : Pc} {history : List QueueEvent}
    (at_old : s.reactor = old) (sem : srv.sem = s.srv.sem) (less : pc.toDo < old.toDo) :
    ({ s with srv, reactor := pc, history } : State).toDo < s.toDo := by
  show 6 * srv.sem + (s.workers.map Worker.toDo).sum + pc.toDo < s.toDo
  rw [sem, State.toDo, at_old]
  omega

/-- A worker that moves, with the tokens in the semaphore accounted for. -/
theorem toDo_turn {w : Nat} {old new : Worker} (found : s.workers[w]? = some old)
    (reactor : s'.reactor = s.reactor) (workers : s'.workers = s.workers.set w new)
    (less : 6 * s'.srv.sem + new.toDo < 6 * s.srv.sem + old.toDo) : s'.toDo < s.toDo := by
  have moved := Crew.sum_set found new Worker.toDo
  rw [State.toDo, State.toDo, reactor, workers]
  omega

/-- A worker's step costs. -/
theorem toDo_worker {w : Nat} (moved : WorkerStep s w s') : s'.toDo < s.toDo := by
  cases moved with
  | taken at_wait positive =>
    refine toDo_turn at_wait rfl rfl ?_
    show 6 * (s.srv.sem - 1) + 5 < 6 * s.srv.sem + 0
    omega
  | sized at_size _ => exact toDo_turn at_size rfl rfl (Nat.add_lt_add_left (by decide) _)
  | sizedEmpty at_size _ => exact toDo_turn at_size rfl rfl (Nat.add_lt_add_left (by decide) _)
  | poppedEmpty at_pop _ => exact toDo_turn at_pop rfl rfl (Nat.add_lt_add_left (by decide) _)
  | popped at_pop _ =>
    exact toDo_turn at_pop rfl rfl (Nat.add_lt_add_left (show 3 < 4 by decide) _)
  | called at_call =>
    exact toDo_turn at_call rfl rfl (Nat.add_lt_add_left (show 2 < 3 by decide) _)
  | returned at_running =>
    exact toDo_turn at_running rfl rfl (Nat.add_lt_add_left (show 1 < 2 by decide) _)
  | freed at_free =>
    exact toDo_turn at_free rfl rfl (Nat.add_lt_add_left (show 0 < 1 by decide) _)

/-- Every step of the server's own threads costs. -/
theorem toDo_descends : Descends step Internal State.toDo := by
  intro s l s' internal stepped
  have next : ∀ (fr : Frame) {j k : Nat}, j < k → 13 * fr.left + j < 13 * fr.left + k :=
    fun _ _ _ less => Nat.add_lt_add_left less _
  cases step_cases stepped with
  | waited _ _ => exact internal.elim
  | arrived => exact internal.elim
  | sendIdle => exact internal.elim
  | sent _ _ _ _ _ _ => exact internal.elim
  | interrupted _ => exact internal.elim
  | worker moved => exact toDo_worker moved
  | @tested fr at_test =>
    exact toDo_reactor at_test rfl (Nat.lt_succ_of_le (toDo_dispatch fr s.srv.event))
  | acceptLooping at_accept => exact toDo_reactor at_accept rfl (Nat.succ_pos _)
  | @acceptNone fr input at_accept => exact toDo_reactor at_accept rfl (toDo_back fr 11)
  | @acceptDropped fr input inc at_accept _ _ =>
    obtain ⟨kernel, _, dropped⟩ := s.srv.dropped_frame inc
    rw [dropped]
    exact toDo_reactor at_accept rfl (toDo_back fr 11)
  | @acceptRefused fr input inc c rest nconn at_accept _ _ _ _ =>
    obtain ⟨kernel, obj, _, _, refused⟩ := s.srv.refused_frame inc c rest nconn
    rw [refused]
    exact toDo_reactor at_accept rfl (toDo_back fr 11)
  | @acceptAdmitted fr input inc c rest nconn at_accept _ _ _ =>
    exact toDo_reactor at_accept rfl (next fr (show 11 < 12 by decide))
  | @sockoptFailed fr c answer at_sockopt _ => exact toDo_reactor at_sockopt rfl (toDo_back fr 10)
  | @sockoptConnected fr c at_sockopt _ =>
    exact toDo_reactor at_sockopt rfl (next fr (show 10 < 11 by decide))
  | @sockoptSevered fr c val at_sockopt _ _ =>
    exact toDo_reactor at_sockopt rfl (next fr (show 10 < 11 by decide))
  | @readSkipped fr c input at_read _ =>
    exact toDo_reactor at_read rfl (next fr (show 1 < 10 by decide))
  | readLooping at_read _ _ => exact toDo_reactor at_read rfl (Nat.succ_pos _)
  | @readEnded fr c input at_read _ _ =>
    obtain ⟨kernel, obj, _, _, ended⟩ := (s.srv.received c input).hangUp_frame c
    rw [ended]
    exact toDo_reactor at_read rfl (next fr (show 1 < 10 by decide))
  | @readFinished fr c input recvlen heap at_read _ _ _ _ =>
    exact toDo_reactor at_read rfl (next fr (show 1 < 10 by decide))
  | @readItem fr c input recvlen item made at_read _ _ _ _ _ _ _ =>
    exact toDo_reactor at_read rfl (next fr (show 9 < 10 by decide))
  | @pushed fr c item at_push =>
    exact toDo_reactor at_push rfl (next fr (show 8 < 9 by decide))
  | @posted fr c at_post =>
    have raised : lockerPost s.srv.sem ≤ s.srv.sem + 1 := by
      unfold lockerPost
      split <;> omega
    show 6 * lockerPost s.srv.sem + (s.workers.map Worker.toDo).sum + (13 * fr.left + 1) < s.toDo
    rw [State.toDo, at_post]
    show _ < 6 * s.srv.sem + (s.workers.map Worker.toDo).sum + (13 * fr.left + 8)
    omega
  | @writeIdle fr c script at_write => exact toDo_reactor at_write rfl (toDo_back fr 0)
  | writeLooping at_write _ _ _ => exact toDo_reactor at_write rfl (Nat.succ_pos _)
  | @written fr c script b heap obj flags at_write _ _ _ _ _ _ =>
    exact toDo_reactor at_write rfl (toDo_back fr 0)

/-! ## Items that are gone -/

/-- What a step does to the items: it moves them, adds one it built, or frees one. -/
inductive ItemStep (s s' : State) : Prop
  /-- They stay or move. -/
  | moved : chunks s'.history = chunks s.history → s'.items.Perm s.items →
      s.srv.heap.freed ⊆ s'.srv.heap.freed → ItemStep s s'
  /-- `event_read` built one. -/
  | built (item : Item) : chunks s'.history = chunks s.history ++ [item] →
      s'.items.Perm (item :: s.items) → s'.srv.heap.freed = s.srv.heap.freed → ItemStep s s'
  /-- A worker freed one. -/
  | freed (item : Item) : chunks s'.history = chunks s.history →
      s.items.Perm (item :: s'.items) →
      s'.srv.heap.freed = item.blocks ++ s.srv.heap.freed → ItemStep s s'

/-- A step of the reactor that moves no item. -/
theorem ItemStep.reactor {srv : Server} {old pc : Pc} (at_old : s.reactor = old)
    (before : old.pushing = []) (after : pc.pushing = []) (rqueue : srv.rqueue = s.srv.rqueue)
    (freed : s.srv.heap.freed ⊆ srv.heap.freed) :
    ItemStep s { s with srv, reactor := pc } := by
  refine .moved rfl (.of_eq (items_congr ?_ rqueue rfl)) freed
  rw [at_old, before]
  exact after

/-- A worker's step. -/
theorem ItemStep.worker {w : Nat} (moved : WorkerStep s w s') : ItemStep s s' := by
  have reads : chunks s'.history = chunks s.history := by cases moved <;> rfl
  rcases items_worker moved with ⟨items, heap⟩ | ⟨item, items, heap⟩
  · exact .moved reads items (heap ▸ List.Subset.refl _)
  · refine .freed item reads items ?_
    rw [heap, freed_item]

/-- No step does anything else. -/
theorem itemStep {l : Label} (stepped : Step s l s') : ItemStep s s' := by
  have kept : s.srv.heap.freed ⊆ s.srv.heap.freed := List.Subset.refl _
  cases stepped with
  | waited at_blocked _ =>
    refine .reactor at_blocked rfl ?_ rfl kept
    unfold Pc.begin
    split <;> rfl
  | tested at_test => exact .reactor at_test rfl (pushing_dispatch _ _) rfl kept
  | acceptLooping at_accept => exact .reactor at_accept rfl rfl rfl kept
  | acceptNone at_accept => exact .reactor at_accept rfl (pushing_resume _) rfl kept
  | @acceptDropped fr input inc at_accept _ _ =>
    obtain ⟨kernel, _, dropped⟩ := s.srv.dropped_frame inc
    rw [dropped]
    exact .reactor at_accept rfl (pushing_resume _) rfl kept
  | @acceptRefused fr input inc c rest nconn at_accept _ _ _ _ =>
    obtain ⟨kernel, obj, _, _, refused⟩ := s.srv.refused_frame inc c rest nconn
    rw [refused]
    exact .reactor at_accept rfl (pushing_resume _) rfl kept
  | acceptAdmitted at_accept _ _ _ => exact .reactor at_accept rfl rfl rfl kept
  | sockoptFailed at_sockopt _ => exact .reactor at_sockopt rfl (pushing_resume _) rfl kept
  | sockoptConnected at_sockopt _ => exact .reactor at_sockopt rfl rfl rfl kept
  | sockoptSevered at_sockopt _ _ => exact .reactor at_sockopt rfl rfl rfl kept
  | readSkipped at_read _ => exact .reactor at_read rfl rfl rfl kept
  | readLooping at_read _ _ => exact .reactor at_read rfl rfl rfl kept
  | @readEnded fr c input at_read _ _ =>
    obtain ⟨kernel, obj, _, _, ended⟩ := (s.srv.received c input).hangUp_frame c
    rw [ended]
    exact .reactor at_read rfl rfl rfl kept
  | readFinished at_read _ _ _ grown =>
    refine .reactor at_read rfl rfl rfl ?_
    show s.srv.heap.freed ⊆ Heap.freed _
    rw [grown.freed]
    exact kept
  | @readItem fr c input recvlen item made at_read _ _ _ _ _ grown _ =>
    refine .built item rfl (.of_eq ?_) grown.freed
    rw [State.items, State.items, at_read]
    rfl
  | @pushed fr c item at_push =>
    refine .moved rfl (.append_right _ ?_) kept
    rw [at_push]
    show (s.srv.rqueue ++ [item]).Perm ([item] ++ s.srv.rqueue)
    exact List.perm_append_comm
  | posted at_post => exact .reactor at_post rfl rfl rfl kept
  | writeIdle at_write => exact .reactor at_write rfl (pushing_resume _) rfl kept
  | writeLooping at_write _ _ _ => exact .reactor at_write rfl rfl rfl kept
  | @written fr c script b heap obj flags at_write _ _ _ _ _ done =>
    refine .reactor at_write rfl (pushing_resume _) rfl ?_
    show s.srv.heap.freed ⊆ heap.freed
    rcases done with ⟨rfl, _⟩ | ⟨rfl, _⟩
    · exact kept
    · exact List.subset_cons_self _ _
  | arrived => exact .moved rfl (.refl _) kept
  | sendIdle => exact .moved rfl (.refl _) kept
  | @sent c data len granted heap obj sent _ _ _ _ _ grown =>
    refine .moved rfl (.refl _) ?_
    show s.srv.heap.freed ⊆ heap.freed
    rw [grown.freed]
    exact kept
  | worker moved => exact .worker moved
  | interrupted at_wait => exact .moved rfl (items_turn at_wait rfl rfl rfl rfl) kept

/-- Every item that was built is somewhere, or its blocks were freed. -/
def Recycled (s : State) : Prop :=
  ∀ item ∈ chunks s.history, item ∈ s.items ∨ item.blocks ⊆ s.srv.heap.freed

/-- Every step keeps account of the items. -/
theorem Recycled.step {l : Label} (recycled : Recycled s) (stepped : Step s l s') :
    Recycled s' := by
  intro item member
  cases itemStep stepped with
  | moved reads items grown =>
    rw [reads] at member
    apply (recycled item member).imp
    · exact items.mem_iff.mpr
    · exact fun freed => List.Subset.trans freed grown
  | built new reads items same =>
    rw [reads] at member
    rw [same, items.mem_iff, List.mem_cons]
    rcases List.mem_append.mp member with old | own
    · exact (recycled item old).imp .inr id
    · exact .inl (.inl (List.mem_singleton.mp own))
  | freed gone reads items grown =>
    rw [reads] at member
    rw [grown]
    rcases recycled item member with held | freed
    · rcases List.mem_cons.mp (items.mem_iff.mp held) with rfl | kept
      · exact .inr (List.subset_append_left _ _)
      · exact .inl kept
    · exact .inr (List.subset_append_of_subset_right _ freed)

/-! ## Rest -/

/-- Nothing is waiting, and nothing that was read was left behind. -/
structure Served (s : State) : Prop where
  /-- The reactor blocks in `epoll_wait` or is inside a handler that does not return. -/
  reactor : s.reactor = .blocked ∨ s.reactor = .inHandler ∨ s.reactor = .stopped
  /-- Every worker waits for a token. -/
  workers : ∀ pc ∈ s.workers, pc = .wait
  /-- There is none. -/
  sem : s.srv.sem = 0
  /-- The receive queue is empty. -/
  rqueue : s.srv.rqueue = []
  /-- Every item that `event_read` built was handed to `procread`, once. -/
  handed : (handed s.history).Perm (chunks s.history)
  /-- It was freed with its buffer. -/
  freed : ∀ item ∈ chunks s.history, item.blocks ⊆ s.srv.heap.freed

/-- Where no thread of the server can step, the reactor is not inside a batch. -/
theorem reactor_of_resting (resting : Resting step Internal s) :
    s.reactor = .blocked ∨ s.reactor = .inHandler ∨ s.reactor = .stopped := by
  cases at_pc : s.reactor with
  | blocked => exact .inl rfl
  | inHandler => exact .inr (.inl rfl)
  | stopped => exact .inr (.inr rfl)
  | test fr =>
    have stuck := resting .test trivial
    simp [step, at_pc] at stuck
  | accept fr =>
    have stuck := resting (.accept ⟨[], false, false⟩) trivial
    simp [step, at_pc] at stuck
  | sockopt fr c =>
    have stuck := resting (.sockopt none) trivial
    simp [step, at_pc] at stuck
  | read fr c =>
    have stuck := resting (.read ⟨[], fun _ => 0, false, false⟩) trivial
    simp only [step, at_pc] at stuck
    split at stuck <;> contradiction
  | push fr c item =>
    have stuck := resting .push trivial
    simp [step, at_pc] at stuck
  | post fr c =>
    have stuck := resting .post trivial
    simp [step, at_pc] at stuck
  | write fr c =>
    have stuck := resting (.write []) trivial
    simp only [step, at_pc] at stuck
    split at stuck <;> contradiction

/-- A worker that cannot step has returned, or waits for a token that is not there. -/
theorem worker_of_resting {w : Nat} {pc : Worker} (resting : Resting step Internal s)
    (found : s.workers[w]? = some pc) : pc = .exited ∨ pc = .wait ∧ s.srv.sem = 0 := by
  have stuck : s.serverProcess w = none := resting (.worker w) trivial
  unfold State.serverProcess at stuck
  rw [found] at stuck
  cases pc with
  | exited => exact .inl rfl
  | wait =>
    right
    have none : lockerSemwait s.srv.sem = none := by simpa using stuck
    unfold lockerSemwait at none
    split at none
    · contradiction
    · exact ⟨rfl, by omega⟩
  | size =>
    simp only at stuck
    split at stuck <;> contradiction
  | pop =>
    simp only at stuck
    split at stuck <;> contradiction
  | call item => contradiction
  | running item => contradiction
  | free item => contradiction

/-- Where the reactor blocks and every worker waits for a token that is not there, no thread of the
server can step. -/
theorem resting_of_waiting (reactor : s.reactor = .blocked) (workers : ∀ pc ∈ s.workers, pc = .wait)
    (sem : s.srv.sem = 0) : Resting step Internal s := by
  intro l internal
  cases l with
  | wait _ => exact internal.elim
  | arrive _ => exact internal.elim
  | send _ _ _ _ => exact internal.elim
  | interrupt _ => exact internal.elim
  | worker w =>
    show s.serverProcess w = none
    unfold State.serverProcess
    cases found : s.workers[w]? with
    | none => rfl
    | some pc =>
      have waits := workers pc (List.mem_of_getElem? found)
      rw [waits, sem]
      rfl
  | test | accept _ | sockopt _ | read _ | push | post | write _ => simp [step, reactor]

/-- At rest a server whose tokens balance has served everything. -/
theorem served_of_resting (balanced : Balanced s) (logged : Logged s) (recycled : Recycled s)
    (crew : s.workers ≠ []) (resting : Resting step Internal s) : Served s := by
  have reactor := reactor_of_resting resting
  have idle : ∀ pc ∈ s.workers, pc = .wait ∧ s.srv.sem = 0 := by
    intro pc member
    obtain ⟨w, found⟩ := List.mem_iff_getElem?.mp member
    rcases worker_of_resting resting found with rfl | waits
    · exact absurd member balanced.working
    · exact waits
  have sem : s.srv.sem = 0 := by
    obtain ⟨pc, member⟩ := List.exists_mem_of_ne_nil _ crew
    exact (idle pc member).2
  have carries : ∀ {β : Type} (held : Worker → Option β), held .wait = none →
      s.workers.filterMap held = [] := by
    intro β held none
    apply List.filterMap_eq_nil_iff.mpr
    intro pc member
    rw [(idle pc member).1]
    exact none
  have holds : s.workers.countP Worker.holds = 0 := by
    apply List.countP_eq_zero.mpr
    intro pc member
    rw [(idle pc member).1]
    decide
  have quiet : s.reactor.unposted = 0 ∧ s.reactor.pushing = [] := by
    rcases reactor with at_pc | at_pc | at_pc <;> rw [at_pc] <;> exact ⟨rfl, rfl⟩
  have rqueue : s.srv.rqueue = [] := by
    have tokens := balanced.tokens
    rw [sem, holds, quiet.1] at tokens
    exact List.eq_nil_of_length_eq_zero tokens
  have items : s.items = [] := by
    rw [State.items, quiet.2, rqueue, carries Worker.carries rfl]
    rfl
  have all : chunks s.history = popped s.history := by
    rw [logged.read, logged.fifo, quiet.2, rqueue, List.append_nil, List.append_nil]
  have handed : (handed s.history).Perm (chunks s.history) := by
    have passed := logged.passed
    rw [carries Worker.handing rfl, List.append_nil] at passed
    rw [all]
    exact passed.symm
  refine ⟨reactor, fun pc member => (idle pc member).1, sem, rqueue, handed, ?_⟩
  intro item member
  rcases recycled item member with held | freed
  · rw [items] at held
    exact (List.not_mem_nil held).elim
  · exact freed

/-- No worker leaves. -/
theorem crew_of_path {allow : State → Label → Prop} {labels : List Label} {t : State}
    (path : Path step allow s labels t) (crew : s.workers ≠ []) : t.workers ≠ [] := by
  have same : t.workers.length = s.workers.length := by
    apply path.keeps (fun t => t.workers.length = s.workers.length) _ rfl
    exact fun s l s' same _ stepped => (workers_length (step_cases stepped)).trans same
  apply List.ne_nil_of_length_pos
  rw [same]
  exact List.length_pos_of_ne_nil crew

/-- A run whose tokens balance has served everything wherever it comes to rest. -/
theorem served_at_rest (reached : Reach EpollNet.step Unbroken Started s) (crew : s.workers ≠ [])
    (resting : Resting step Internal s) : Served s := by
  have sound : Balanced s ∧ Recycled s := by
    apply reached.invariant
    · intro s started
      refine ⟨started.blank.balanced, fun item member => ?_⟩
      rw [started.blank.history] at member
      exact (List.not_mem_nil member).elim
    · exact fun s l s' sound allowed stepped =>
        ⟨sound.1.step allowed (step_cases stepped), sound.2.step (step_cases stepped)⟩
  exact served_of_resting sound.1 (custody reached).1 sound.2 crew resting

/-- From every state of a run whose tokens balance, the server's own threads take no more steps
than `toDo` says, whatever they meet. They do come to rest, and where they have come to rest with
balanced tokens, every worker waits, the queue is empty and every item was served and freed. -/
theorem comes_to_rest (reached : Reach EpollNet.step Unbroken Started s) (crew : s.workers ≠ []) :
    (∀ labels t, Path step Internal s labels t → labels.length ≤ s.toDo) ∧
      (∃ labels t, Path step Internal s labels t ∧ Resting step Internal t) ∧
      ∀ labels t, Path step (fun s l => Internal s l ∧ Unbroken s l) s labels t →
        Resting step Internal t → Served t := by
  refine ⟨fun labels t path => ?_, exists_rest toDo_descends s, fun labels t path resting => ?_⟩
  · have paid := path.length_add_le toDo_descends
    omega
  · have later := path.reach (fun _ _ allowed => allowed.2) reached
    exact served_at_rest later (crew_of_path path crew) resting

/-- A byte that was read and pushed is presented and freed by the first worker, and then nothing is
left to do. -/
theorem comes_to_rest_byte : ∃ s t labels, labels.length ≤ s.toDo ∧
    Path step (fun s l => Internal s l ∧ Unbroken s l) s labels t ∧ Served t ∧
      (handed t.history).length = 1 := by
  have begun : ((runAllowed EpollNet.step Unbroken Sample.start
      (Sample.connecting 4 ++ Sample.delivering 4 [65])).bind fun s =>
        (runAllowed EpollNet.step (fun s l => Internal s l ∧ Unbroken s l) s
          (Sample.taking 0 ++ Sample.taking 0)).map fun t =>
            decide (s.workers ≠ [] ∧ t.reactor = .blocked ∧ (∀ pc ∈ t.workers, pc = .wait) ∧
              t.srv.sem = 0 ∧ (handed t.history).length = 1)) = some true := by
    decide +kernel
  obtain ⟨s, ran, served⟩ := Option.bind_eq_some_iff.mp begun
  obtain ⟨t, completed, passed⟩ := Option.map_eq_some_iff.mp served
  obtain ⟨crew, reactor, workers, sem, once⟩ := of_decide_eq_true passed
  have reached : Reach EpollNet.step Unbroken Started s :=
    (Reach.refl Sample.started).of_runAllowed ran
  have path := Path.of_runAllowed completed
  obtain ⟨bounded, _, served⟩ := comes_to_rest reached crew
  have calm := path.mono fun _ _ allowed => allowed.1
  exact ⟨s, t, _, bounded _ t calm, path,
    served _ t path (resting_of_waiting reactor workers sem), once⟩

end EpollNet
