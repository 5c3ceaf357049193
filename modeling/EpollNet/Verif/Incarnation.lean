import EpollNet.Verif.Clients
import EpollNet.Verif.Items

/-!
# Items name the connection they were read from

An item holds the bare address of a connection object and outlives the connection: the object
goes back to the pool at the end of the stream and the next accept may take it while the item is
still queued or being processed. As long as no accept takes an object that an outstanding item
names, every item a worker presents names the accept its bytes were read from.
-/

namespace EpollNet

open EpollNet.Basis

/-- The items read and not yet done with. -/
def State.outstanding (s : State) : List Item :=
  s.reactor.pushing ++ s.srv.rqueue ++ s.workers.filterMap Worker.presents

/-- Nothing is accepted, or the pool's next object is named by no outstanding item. -/
def takesUnnamed (s : State) : Label → Bool
  | .accept input =>
    (input.script.all fun answer =>
      match answer with
      | .ok _ => false
      | .error _ => true) ||
    match s.srv.pool with
    | c :: _ => s.outstanding.all fun item => item.connobj != c
    | [] => true
  | _ => true

/-- The discipline, and no accept takes an object an outstanding item names. -/
abbrev TakesUnnamed (s : State) (l : Label) : Prop := Disciplined s l ∧ takesUnnamed s l = true

/-- Every outstanding item names an existing object, still taken by the accept whose socket the
item was read from. -/
def Genuine (s : State) : Prop :=
  ∀ item ∈ s.outstanding,
    item.connobj < s.srv.nconn ∧ item.client = s.srv.client item.connobj

variable {s s' : State} {fr : Frame} {c : ConnPtr}

/-- An item presented after one worker moved was presented before, or is the one it presents. -/
theorem presents_set {workers : List Worker} {w : Nat} {pc : Worker} {item : Item}
    (presented : item ∈ (workers.set w pc).filterMap Worker.presents) :
    item ∈ workers.filterMap Worker.presents ∨ pc.presents = some item := by
  obtain ⟨moved, member, presents⟩ := List.mem_filterMap.mp presented
  rcases List.mem_or_eq_of_mem_set member with old | rfl
  · exact .inl (List.mem_filterMap.mpr ⟨moved, old, presents⟩)
  · exact .inr presents

/-- A worker at an index presents an outstanding item. -/
theorem mem_outstanding_of_presents {w : Nat} {pc : Worker} {item : Item}
    (found : s.workers[w]? = some pc) (presents : pc.presents = some item) :
    item ∈ s.outstanding :=
  List.mem_append_right _
    (List.mem_filterMap.mpr ⟨pc, List.mem_of_getElem? found, presents⟩)

/-- A step that adds no item, forgets no object and changes no client. -/
theorem Genuine.congr (genuine : Genuine s) (items : ∀ item ∈ s'.outstanding, item ∈ s.outstanding)
    (nconn : s'.srv.nconn = s.srv.nconn) (client : s'.srv.client = s.srv.client) : Genuine s' := by
  intro item member
  rw [nconn, client]
  exact genuine item (items item member)

/-- A step of the reactor from and to places where nothing is being pushed. -/
theorem Genuine.reactor {pc : Pc} {srv : Server} (genuine : Genuine s) (idle : pc.pushing = [])
    (rqueue : srv.rqueue = s.srv.rqueue) (nconn : srv.nconn = s.srv.nconn)
    (client : srv.client = s.srv.client) : Genuine { s with srv, reactor := pc } := by
  apply genuine.congr _ nconn client
  intro item member
  simp only [State.outstanding, idle, List.nil_append, rqueue] at member
  simp only [State.outstanding, List.append_assoc]
  exact List.mem_append_right _ member

/-- An accept that takes an object no outstanding item names. -/
theorem Genuine.taken {srv : Server} {pc : Pc} {rest : List ConnPtr} {n : Nat} (genuine : Genuine s)
    (next : s.srv.roster.Next c rest srv.nconn) (unnamed : ∀ item ∈ s.outstanding, item.connobj ≠ c)
    (idle : pc.pushing = []) (rqueue : srv.rqueue = s.srv.rqueue)
    (client : srv.client = Function.update s.srv.client c n) :
    Genuine { s with srv, reactor := pc } := by
  intro item member
  have old : item ∈ s.outstanding := by
    simp only [State.outstanding, idle, List.nil_append, rqueue] at member
    simp only [State.outstanding, List.append_assoc]
    exact List.mem_append_right _ member
  obtain ⟨known, same⟩ := genuine item old
  refine ⟨lt_of_lt_of_le known next.size_le, ?_⟩
  simp only [client, Function.update_of_ne (unnamed item old)]
  exact same

/-- The next object is named by no outstanding item, if the step takes one under the discipline. -/
theorem unnamed_of_takesUnnamed {input : Server.AcceptInput} {inc : Kernel.Incoming}
    {rest : List ConnPtr} {nconn : ConnPtr} (genuine : Genuine s)
    (takes : takesUnnamed s (.accept input) = true) (offered : .ok inc ∈ input.script)
    (next : s.srv.roster.Next c rest nconn) : ∀ item ∈ s.outstanding, item.connobj ≠ c := by
  intro item member
  cases next with
  | pooled queue =>
    rw [Server.roster_pool] at queue
    rw [takesUnnamed, Bool.or_eq_true, queue] at takes
    rcases takes with none | unnamed
    · exact absurd (List.all_eq_true.mp none _ offered) Bool.false_ne_true
    · have distinct := List.all_eq_true.mp unnamed item member
      simpa using distinct
  | fresh _ => exact ne_of_lt (genuine item member).1

/-- A worker that moves presents only what was outstanding. -/
theorem outstanding_setWorker {w : Nat} {pc : Worker} (reactor : s'.reactor = s.reactor)
    (rqueue : ∀ item ∈ s'.srv.rqueue, item ∈ s.srv.rqueue)
    (workers : s'.workers = s.workers.set w pc)
    (presents : ∀ item, pc.presents = some item → item ∈ s.outstanding) (item : Item)
    (member : item ∈ s'.outstanding) : item ∈ s.outstanding := by
  simp only [State.outstanding, reactor, workers, List.append_assoc, List.mem_append] at member
  rcases member with pushing | queued | presented
  · simp only [State.outstanding, List.append_assoc, List.mem_append]
    exact .inl pushing
  · simp only [State.outstanding, List.append_assoc, List.mem_append]
    exact .inr (.inl (rqueue item queued))
  · rcases presents_set presented with old | own
    · simp only [State.outstanding, List.append_assoc, List.mem_append]
      exact .inr (.inr old)
    · exact presents item own

/-- A worker that moves where it presents nothing adds no item. -/
theorem outstanding_idle {w : Nat} {pc : Worker} (reactor : s'.reactor = s.reactor)
    (rqueue : s'.srv.rqueue = s.srv.rqueue) (workers : s'.workers = s.workers.set w pc)
    (idle : pc.presents = none) (item : Item) (member : item ∈ s'.outstanding) :
    item ∈ s.outstanding := by
  refine outstanding_setWorker reactor (fun other => ?_) workers (fun own presents => ?_) item
    member
  · rw [rqueue]
    exact id
  · rw [idle] at presents
    contradiction

/-- A worker's step adds no item. -/
theorem outstanding_worker {w : Nat} (moved : WorkerStep s w s') :
    ∀ item ∈ s'.outstanding, item ∈ s.outstanding := by
  cases moved with
  | taken _ _ => exact outstanding_idle rfl rfl rfl rfl
  | sized _ _ => exact outstanding_idle rfl rfl rfl rfl
  | sizedEmpty _ _ => exact outstanding_idle rfl rfl rfl rfl
  | poppedEmpty _ _ => exact outstanding_idle rfl rfl rfl rfl
  | @popped own rest _ queue =>
    refine outstanding_setWorker rfl (fun later inside => ?_) rfl ?_
    · rw [queue]
      exact List.mem_cons_of_mem _ inside
    · intro first presents
      obtain rfl : own = first := Option.some.inj presents
      simp [State.outstanding, queue]
  | called found =>
    refine outstanding_setWorker rfl (fun _ => id) rfl ?_
    intro own presents
    exact mem_outstanding_of_presents found presents
  | returned _ => exact outstanding_idle rfl rfl rfl rfl
  | freed _ => exact outstanding_idle rfl rfl rfl rfl

/-- The client of a refused loan's object. -/
theorem client_refused (srv : Server) {inc : Kernel.Incoming} (c : ConnPtr) (rest : List ConnPtr)
    (nconn : ConnPtr) (nonzero : inc.fd ≠ 0) :
    (srv.refused inc c rest nconn).client =
        Function.update srv.client c (srv.kernel.accepted + 1) ∧
      (srv.refused inc c rest nconn).rqueue = srv.rqueue ∧
      (srv.refused inc c rest nconn).nconn = nconn := by
  rw [Server.refused, Server.acceptErr_of_ne nonzero]
  exact ⟨rfl, rfl, rfl⟩

/-- Every disciplined step that takes unnamed objects keeps outstanding items genuine. -/
theorem Genuine.step {l : Label} (genuine : Genuine s) (orderly : Orderly s)
    (attributed : Attributed s) (allowed : TakesUnnamed s l) (stepped : Step s l s') :
    Genuine s' := by
  obtain ⟨disciplined, takes⟩ := allowed
  have scheduled := orderly.scheduled
  cases stepped with
  | waited _ _ =>
    refine genuine.reactor ?_ rfl rfl rfl
    unfold Pc.begin
    split <;> rfl
  | tested _ => exact genuine.reactor (pushing_dispatch _ _) rfl rfl rfl
  | acceptLooping _ => exact genuine.reactor rfl rfl rfl rfl
  | acceptNone _ => exact genuine.reactor (pushing_resume _) rfl rfl rfl
  | acceptDropped _ offered _ =>
    rw [Server.dropped, Server.acceptErr_of_ne (disciplined (.ok _) offered)]
    exact genuine.reactor (pushing_resume _) rfl rfl rfl
  | @acceptRefused fr input inc c rest nconn _ offered _ next _ =>
    obtain ⟨client, rqueue, size⟩ :=
      client_refused s.srv c rest nconn (disciplined (.ok _) offered)
    exact genuine.taken (size.symm ▸ next) (unnamed_of_takesUnnamed genuine takes offered next)
      (pushing_resume _) rqueue client
  | acceptAdmitted _ offered _ next =>
    exact genuine.taken next (unnamed_of_takesUnnamed genuine takes offered next) rfl rfl rfl
  | sockoptFailed _ _ => exact genuine.reactor (pushing_resume _) rfl rfl rfl
  | sockoptConnected _ _ => exact genuine.reactor rfl rfl rfl rfl
  | sockoptSevered _ _ _ => exact genuine.reactor rfl rfl rfl rfl
  | readSkipped _ _ => exact genuine.reactor rfl rfl rfl rfl
  | readLooping _ _ _ => exact genuine.reactor rfl rfl rfl rfl
  | @readEnded fr c input at_read _ returned =>
    obtain ⟨_, _, positive⟩ := orderly.reading at_read returned
    rw [Server.hangUp_eq positive]
    exact genuine.reactor rfl rfl rfl rfl
  | readFinished _ _ _ _ _ => exact genuine.reactor rfl rfl rfl rfl
  | @readItem fr c input recvlen item heap at_read _ returned _ named read _ _ =>
    rw [at_read] at scheduled
    have live : s.srv.roster.Live c := scheduled.settled.live (Server.isOpen_of_recvlen returned)
    have own : s.srv.kernel.clientOf (s.srv.conns c).fd = some (s.srv.client c) :=
      (attributed.named _ _ live scheduled.client).1
    intro other member
    simp only [State.outstanding, Pc.pushing, List.append_assoc, List.mem_append,
      List.mem_singleton] at member
    rcases member with rfl | old
    · refine ⟨named ▸ scheduled.known, ?_⟩
      unfold Kernel.clientOf at own
      rw [read, own, named]
      rfl
    · apply genuine other
      simp only [State.outstanding, List.append_assoc, List.mem_append]
      exact .inr old
  | @pushed fr c item at_push =>
    refine genuine.congr (fun other member => ?_) rfl rfl
    simp only [State.outstanding, Pc.pushing, Server.rqueuePush, dataQueuePush, List.nil_append,
      List.mem_append, List.mem_singleton] at member
    simp only [State.outstanding, at_push, Pc.pushing, List.mem_append, List.mem_singleton]
    tauto
  | posted _ => exact genuine.reactor rfl rfl rfl rfl
  | writeIdle _ => exact genuine.reactor (pushing_resume _) rfl rfl rfl
  | writeLooping _ _ _ _ => exact genuine.reactor rfl rfl rfl rfl
  | written _ _ _ _ _ _ _ => exact genuine.reactor (pushing_resume _) rfl rfl rfl
  | arrived => exact genuine.congr (fun _ => id) rfl rfl
  | sendIdle => exact genuine
  | sent _ _ _ _ _ _ => exact genuine.congr (fun _ => id) rfl rfl
  | worker moved =>
    obtain ⟨_, rqueue, sem, heap, srv⟩ := moved.frame
    refine genuine.congr (outstanding_worker moved) ?_ ?_
    · rw [srv]
    · rw [srv]
  | interrupted _ =>
    exact genuine.congr (outstanding_idle rfl rfl rfl rfl) rfl rfl

/-! ## Runs -/

/-- A server starts with nothing queued. -/
theorem Started.genuine (started : Started s) : Genuine s := by
  have empty : s.outstanding = [] := by
    have blank := started.blank
    rw [State.outstanding, blank.pushing, blank.rqueue, blank.idle rfl]
    rfl
  intro item member
  rw [empty] at member
  contradiction

/-- In every run in which no accept takes an object an outstanding item names, whatever a worker
presents to `procread` names an object still taken by the accept its bytes were read from. -/
theorem presents_own_client (reached : Reach EpollNet.step TakesUnnamed Started s) {w : Nat}
    {pc : Worker} {item : Item} (found : s.workers[w]? = some pc)
    (presents : pc.presents = some item) : item.client = s.srv.client item.connobj := by
  have all : (Orderly s ∧ Attributed s) ∧ Genuine s := by
    apply reached.invariant
    · exact fun _ started => ⟨⟨started.orderly, started.attributed⟩, started.genuine⟩
    · intro s l s' inv allowed stepped
      have cases := step_cases stepped
      exact ⟨⟨inv.1.1.step allowed.1 cases, inv.1.2.step inv.1.1 allowed.1 cases⟩,
        inv.2.step inv.1.1 inv.1.2 allowed cases⟩
  exact (all.2 item (mem_outstanding_of_presents found presents)).2

/-- The item the first worker is about to present. -/
def presented (s : State) : Option Item := s.workers[0]?.bind Worker.presents

/-- The first client's bytes are presented under the first client's connection. -/
theorem presents_own_client_first : ∃ (s : State) (item : Item),
    presented s = some item ∧ item.client = 1 ∧ item.client = s.srv.client item.connobj := by
  have completed : (runAllowed EpollNet.step TakesUnnamed Sample.start
      (Sample.connecting 4 ++ Sample.delivering 4 [65] ++ Sample.taking 0)).map
        (fun s => (presented s).any fun item => item.client == 1) = some true := by
    decide +kernel
  obtain ⟨s, reached, first⟩ := Reach.exists_of_run Sample.started completed
  obtain ⟨item, found, client⟩ := Option.any_eq_true _ _ |>.mp first
  obtain ⟨pc, at_worker, presents⟩ := Option.bind_eq_some_iff.mp found
  exact ⟨s, item, found, by simpa using client, presents_own_client reached at_worker presents⟩

/-- The first client sends a byte and disconnects; the second client is given the same object
before a worker is scheduled, and the byte is presented under the second client's connection. -/
theorem presents_other_client : ¬∀ s, Reach EpollNet.step Disciplined Started s →
    ∀ (w : Nat) (pc : Worker) (item : Item), s.workers[w]? = some pc → pc.presents = some item →
      item.client = s.srv.client item.connobj := by
  intro own
  have completed : (runAllowed EpollNet.step Disciplined Sample.start
      (Sample.connecting 4 ++ Sample.delivering 4 [65] ++ Sample.closing 4 ++
        Sample.connecting 5 ++ Sample.taking 0)).map
        (fun s => (presented s).any fun item =>
          item.client != s.srv.client item.connobj) = some true := by
    decide +kernel
  obtain ⟨s, reached, other⟩ := Reach.exists_of_run Sample.started completed
  obtain ⟨item, found, client⟩ := Option.any_eq_true _ _ |>.mp other
  obtain ⟨pc, at_worker, presents⟩ := Option.bind_eq_some_iff.mp found
  rw [own s reached 0 pc item at_worker presents] at client
  simp at client

end EpollNet
