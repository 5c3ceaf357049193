import EpollNet.Verif.Custody
import EpollNet.Verif.Incarnation
import Mathlib.Data.List.Flatten

/-!
# The order of deliveries

The receive queue hands the chunks of a connection out in the order they were read, but the
workers call `procread` after the pop and outside the lock, so two workers may hold chunks of one
connection at once, call in either order and be inside `procread` together. Calls start in reading
order where no worker pops a chunk of a connection while another is between its pop of one and the
start of its call. Calls that overlap are of different chunks, and none overlap where a chunk is
read only after the earlier ones were dealt with.
-/

namespace EpollNet

open EpollNet.Basis

/-- The items of one connection, in order. -/
def ofClient (client : Nat) (items : List Item) : List Item :=
  items.filter fun item => item.client == client

/-- No two workers are inside `procread` for the connection. -/
def OneByOne (client : Nat) (s : State) : Prop :=
  ∀ (v w : Nat) (first second : Item), s.workers[v]? = some (.running first) →
    s.workers[w]? = some (.running second) → first.client = client → second.client = client →
    v = w

/-- Calls of `procread` start in reading order for each connection, and no two of one connection
overlap. -/
structure InOrder (s : State) : Prop where
  /-- The calls started for a connection follow the chunks read from its socket. -/
  ordered : ∀ client,
    (ofClient client (handed s.history)).Sublist (ofClient client (chunks s.history))
  /-- Two workers inside `procread` serve different connections. -/
  apart : ∀ client, OneByOne client s

/-- A worker pops a chunk of the connection only while no other is between its pop of one and the
start of its call. -/
def ExclusiveFor (client : Nat) (s : State) : Label → Prop
  | .worker w => s.workers[w]? = some .pop → ∀ item ∈ s.srv.rqueue.head?, item.client = client →
      ∀ other ∈ s.workers.filterMap Worker.handing, other.client ≠ client
  | _ => True

instance (client : Nat) (s : State) (l : Label) : Decidable (ExclusiveFor client s l) :=
  match l with
  | .worker w => inferInstanceAs (Decidable (s.workers[w]? = some .pop →
      ∀ item ∈ s.srv.rqueue.head?, item.client = client →
        ∀ other ∈ s.workers.filterMap Worker.handing, other.client ≠ client))
  | .wait _ | .test | .accept _ | .sockopt _ | .read _ | .push | .post | .write _ | .arrive _
  | .send .. | .interrupt _ => inferInstanceAs (Decidable True)

/-- A worker pops a chunk of any connection only so. -/
def Exclusive (s : State) : Label → Prop
  | .worker w => s.workers[w]? = some .pop → ∀ item ∈ s.srv.rqueue.head?,
      ∀ other ∈ s.workers.filterMap Worker.handing, other.client ≠ item.client
  | _ => True

instance (s : State) (l : Label) : Decidable (Exclusive s l) :=
  match l with
  | .worker w => inferInstanceAs (Decidable (s.workers[w]? = some .pop →
      ∀ item ∈ s.srv.rqueue.head?,
        ∀ other ∈ s.workers.filterMap Worker.handing, other.client ≠ item.client))
  | .wait _ | .test | .accept _ | .sockopt _ | .read _ | .push | .post | .write _ | .arrive _
  | .send .. | .interrupt _ => inferInstanceAs (Decidable True)

/-- The connection whose socket the callback is about to read. -/
def State.readee (s : State) : Option Nat :=
  match s.reactor with
  | .read _ c => s.srv.kernel.clientOf (s.srv.conns c).fd
  | _ => none

/-- `event_read` reads from the connection's socket only while no earlier chunk of it is queued,
popped or inside `procread`. -/
def AnsweredFor (client : Nat) (s : State) : Label → Prop
  | .read _ => s.readee = some client → ofClient client s.outstanding = []
  | _ => True

instance (client : Nat) (s : State) (l : Label) : Decidable (AnsweredFor client s l) :=
  match l with
  | .read _ => inferInstanceAs (Decidable (s.readee = some client →
      ofClient client s.outstanding = []))
  | .wait _ | .test | .accept _ | .sockopt _ | .push | .post | .write _ | .arrive _ | .worker _
  | .send .. | .interrupt _ => inferInstanceAs (Decidable True)

/-- A pop that is exclusive is so for each connection. -/
theorem Exclusive.toFor {s : State} {l : Label} (exclusive : Exclusive s l) (client : Nat) :
    ExclusiveFor client s l := by
  cases l with
  | worker w =>
    intro at_pop item head own other member
    exact own ▸ exclusive at_pop item head other member
  | _ => trivial

/-- The chunks of the connection popped whose calls are still to start. -/
def State.held (s : State) (client : Nat) : List Item :=
  ofClient client (s.workers.filterMap Worker.handing)

/-- What exclusive pops keep: of the chunks popped all but the last one were handed over, in the
same order. -/
structure Serial (client : Nat) (s : State) : Prop where
  /-- One worker at most is about to call for the connection. -/
  single : (s.held client).length ≤ 1
  /-- What it holds was popped last. -/
  last : ofClient client (popped s.history) =
    ofClient client (handed s.history) ++ s.held client

variable {s s' : State} {w client : Nat}

/-! ## The items of a connection -/

/-- One more item of the connection. -/
theorem ofClient_append_self {items : List Item} (item : Item) :
    ofClient item.client (items ++ [item]) = ofClient item.client items ++ [item] := by
  simp [ofClient]

/-- An item of another connection. -/
theorem ofClient_append_other {items : List Item} {item : Item} {client : Nat}
    (other : item.client ≠ client) : ofClient client (items ++ [item]) = ofClient client items := by
  simp [ofClient, other]

/-- An item of the connection in front. -/
theorem ofClient_cons_self {items : List Item} (item : Item) :
    ofClient item.client (item :: items) = item :: ofClient item.client items := by
  simp [ofClient]

/-- An item of another connection in front. -/
theorem ofClient_cons_other {items : List Item} {item : Item} {client : Nat}
    (other : item.client ≠ client) : ofClient client (item :: items) = ofClient client items := by
  simp [ofClient, other]

/-- Lists of one element at most that hold the same are equal. -/
theorem eq_of_perm_of_single {items others : List Item} (perm : items.Perm others)
    (single : others.length ≤ 1) : items = others := by
  cases others with
  | nil => exact List.perm_nil.mp perm
  | cons item rest =>
    have empty : rest = [] := by
      apply List.eq_nil_of_length_eq_zero
      rw [List.length_cons] at single
      omega
    rw [empty] at perm ⊢
    exact List.perm_singleton.mp perm

/-! ## The order in which calls start -/

/-- A step that moves no worker and neither pops nor calls. -/
theorem Serial.congr (serial : Serial client s) (workers : s'.workers = s.workers)
    (pops : popped s'.history = popped s.history) (hands : handed s'.history = handed s.history) :
    Serial client s' := by
  have held : s'.held client = s.held client := by rw [State.held, workers, State.held]
  refine ⟨held ▸ serial.single, ?_⟩
  rw [pops, hands, held]
  exact serial.last

/-- A worker that moves without popping or calling. -/
theorem Serial.turn {old new : Worker} (serial : Serial client s)
    (found : s.workers[w]? = some old) (workers : s'.workers = s.workers.set w new)
    (pops : popped s'.history = popped s.history) (hands : handed s'.history = handed s.history)
    (same : new.handing = old.handing) : Serial client s' := by
  have moved : (s'.held client).Perm (s.held client) := by
    rw [State.held, workers]
    exact (Crew.filterMap_set_same found Worker.handing same).filter _
  have held : s'.held client = s.held client := eq_of_perm_of_single moved serial.single
  refine ⟨held ▸ serial.single, ?_⟩
  rw [pops, hands, held]
  exact serial.last

/-- An exclusive pop. -/
theorem Serial.pop {item : Item} (serial : Serial client s) (at_pop : s.workers[w]? = some .pop)
    (free : item.client = client → s.held client = [])
    (workers : s'.workers = s.workers.set w (.call item))
    (history : s'.history = .pop w item :: s.history) : Serial client s' := by
  have pops : popped s'.history = popped s.history ++ [item] := by
    rw [history]
    rfl
  have hands : handed s'.history = handed s.history := by
    rw [history]
    rfl
  have taken : (s'.held client).Perm
      (ofClient client (item :: s.workers.filterMap Worker.handing)) := by
    rw [State.held, workers]
    exact (Crew.filterMap_set_take at_pop Worker.handing rfl rfl).filter _
  by_cases own : item.client = client
  · -- nothing of the connection was in hand, so the popped item is all that is
    have none := free own
    subst own
    rw [ofClient_cons_self, ← State.held, none] at taken
    have held := List.perm_singleton.mp taken
    refine ⟨by rw [held]; exact le_refl 1, ?_⟩
    rw [pops, hands, ofClient_append_self, serial.last, none, List.append_nil, held]
  · rw [ofClient_cons_other own, ← State.held] at taken
    have held := eq_of_perm_of_single taken serial.single
    refine ⟨held ▸ serial.single, ?_⟩
    rw [pops, hands, ofClient_append_other own, serial.last, held]

/-- A call of `procread`. -/
theorem Serial.call {item : Item} (serial : Serial client s)
    (at_call : s.workers[w]? = some (.call item))
    (workers : s'.workers = s.workers.set w (.running item))
    (history : s'.history = .start w item :: s.history) : Serial client s' := by
  have pops : popped s'.history = popped s.history := by
    rw [history]
    rfl
  have hands : handed s'.history = handed s.history ++ [item] := by
    rw [history]
    rfl
  have left : (s.held client).Perm
      (ofClient client (item :: s'.workers.filterMap Worker.handing)) := by
    rw [workers]
    exact (Crew.filterMap_set_drop at_call Worker.handing rfl rfl).filter _
  by_cases own : item.client = client
  · subst own
    rw [ofClient_cons_self, ← State.held] at left
    have count := left.length_eq
    have single := serial.single
    rw [List.length_cons] at count
    have none : s'.held item.client = [] := by
      apply List.eq_nil_of_length_eq_zero
      omega
    rw [none] at left
    have held := List.perm_singleton.mp left
    refine ⟨by rw [none]; exact Nat.zero_le 1, ?_⟩
    rw [pops, hands, ofClient_append_self, serial.last, held, none, List.append_nil]
  · rw [ofClient_cons_other own, ← State.held] at left
    have held := eq_of_perm_of_single left.symm serial.single
    refine ⟨held ▸ serial.single, ?_⟩
    rw [pops, hands, ofClient_append_other own, serial.last, held]

/-- Every step that is exclusive for the connection keeps its deliveries serial. -/
theorem Serial.step {l : Label} (serial : Serial client s) (allowed : ExclusiveFor client s l)
    (stepped : Step s l s') : Serial client s' := by
  cases stepped with
  | worker moved =>
    cases moved with
    | taken at_wait _ => exact serial.turn at_wait rfl rfl rfl rfl
    | sized at_size _ => exact serial.turn at_size rfl rfl rfl rfl
    | sizedEmpty at_size _ => exact serial.turn at_size rfl rfl rfl rfl
    | poppedEmpty at_pop _ => exact serial.turn at_pop rfl rfl rfl rfl
    | @popped item rest at_pop queue =>
      refine serial.pop at_pop (fun own => ?_) rfl rfl
      have head : item ∈ s.srv.rqueue.head? := by
        rw [queue]
        rfl
      apply List.filter_eq_nil_iff.mpr
      intro other member
      simpa using allowed at_pop item head own other member
    | called at_call => exact serial.call at_call rfl rfl
    | returned at_running => exact serial.turn at_running rfl rfl rfl rfl
    | freed at_free => exact serial.turn at_free rfl rfl rfl rfl
  | interrupted at_wait => exact serial.turn at_wait rfl rfl rfl rfl
  | waited _ _ => exact serial.congr rfl rfl rfl
  | tested _ => exact serial.congr rfl rfl rfl
  | acceptLooping _ => exact serial.congr rfl rfl rfl
  | acceptNone _ => exact serial.congr rfl rfl rfl
  | acceptDropped _ _ _ => exact serial.congr rfl rfl rfl
  | acceptRefused _ _ _ _ _ => exact serial.congr rfl rfl rfl
  | acceptAdmitted _ _ _ _ => exact serial.congr rfl rfl rfl
  | sockoptFailed _ _ => exact serial.congr rfl rfl rfl
  | sockoptConnected _ _ => exact serial.congr rfl rfl rfl
  | sockoptSevered _ _ _ => exact serial.congr rfl rfl rfl
  | readSkipped _ _ => exact serial.congr rfl rfl rfl
  | readLooping _ _ _ => exact serial.congr rfl rfl rfl
  | readEnded _ _ _ => exact serial.congr rfl rfl rfl
  | readFinished _ _ _ _ _ => exact serial.congr rfl rfl rfl
  | readItem _ _ _ _ _ _ _ _ => exact serial.congr rfl rfl rfl
  | pushed _ => exact serial.congr rfl rfl rfl
  | posted _ => exact serial.congr rfl rfl rfl
  | writeIdle _ => exact serial.congr rfl rfl rfl
  | writeLooping _ _ _ _ => exact serial.congr rfl rfl rfl
  | written _ _ _ _ _ _ _ => exact serial.congr rfl rfl rfl
  | arrived => exact serial.congr rfl rfl rfl
  | sendIdle => exact serial
  | sent _ _ _ _ _ _ => exact serial.congr rfl rfl rfl

/-- A blank server delivers nothing. -/
theorem Blank.serial (blank : Blank s) (client : Nat) : Serial client s := by
  have held : s.held client = [] := by
    rw [State.held, blank.idle rfl]
    rfl
  refine ⟨by rw [held]; exact Nat.zero_le 1, ?_⟩
  rw [blank.history, held]
  rfl

/-- The calls a serial server has started for a client are for the first of its chunks. -/
theorem Serial.handed_chunks (serial : Serial client s) (logged : Logged s) :
    ofClient client (handed s.history) <+: ofClient client (chunks s.history) := by
  have first : ofClient client (handed s.history) <+: ofClient client (popped s.history) :=
    ⟨s.held client, serial.last.symm⟩
  have queued : popped s.history <+: pushed s.history := ⟨s.srv.rqueue, logged.fifo.symm⟩
  have read : pushed s.history <+: chunks s.history := ⟨s.reactor.pushing, logged.read.symm⟩
  exact first.trans ((queued.trans read).filter _)

/-- Exclusive pops keep deliveries serial. -/
theorem serial_of_exclusive (reached : Reach EpollNet.step (ExclusiveFor client) Started s) :
    Serial client s := by
  apply reached.invariant
  · exact fun _ started => started.blank.serial client
  · exact fun _ _ _ serial allowed stepped => serial.step allowed (step_cases stepped)

/-! ## Calls that overlap -/

/-- Two workers inside `procread` have different chunks. -/
theorem running_apart {v : Nat} {first second : Item} (owned : Owned s) (distinct : v ≠ w)
    (at_first : s.workers[w]? = some (.running first))
    (at_second : s.workers[v]? = some (.running second)) : first.addr ≠ second.addr := by
  obtain ⟨rest, both⟩ := Crew.filterMap_two distinct at_first at_second Worker.carries rfl rfl
  have items : (s.workers.filterMap Worker.carries).Sublist s.items :=
    List.sublist_append_right _ _
  have addresses : (first.blocks ++ (second.blocks ++ rest.flatMap Item.blocks)).Nodup := by
    have perm := both.flatMap_right Item.blocks
    rw [List.flatMap_cons, List.flatMap_cons] at perm
    apply perm.nodup_iff.mp
    exact (owned.nodup.sublist (List.sublist_append_left _ _)).sublist (items.flatMap _)
  intro same
  have separate := List.disjoint_of_nodup_append addresses
  apply separate (List.mem_cons_self (a := first.addr))
  rw [same]
  exact List.mem_append_left _ List.mem_cons_self

/-- A worker that takes up no item leaves no more outstanding. -/
theorem outstanding_turn {old new : Worker} (found : s.workers[w]? = some old)
    (workers : s'.workers = s.workers.set w new) (reactor : s'.reactor = s.reactor)
    (rqueue : s'.srv.rqueue = s.srv.rqueue)
    (fewer : new.presents = old.presents ∨ new.presents = none) :
    s'.outstanding.Subperm s.outstanding := by
  rw [State.outstanding, State.outstanding, reactor, rqueue, workers]
  refine List.Subperm.append (List.Subperm.refl _) ?_
  obtain ⟨rest, before, after⟩ := Crew.filterMap_set found new Worker.presents
  refine after.subperm.trans (List.Subperm.trans ?_ before.symm.subperm)
  rcases fewer with same | none
  · rw [same]
  · rw [none]
    exact (List.sublist_append_right _ _).subperm

/-- A step of the reactor that pushes nothing leaves no more outstanding. -/
theorem outstanding_reactor {srv : Server} {pc : Pc} (idle : pc.pushing = [])
    (rqueue : srv.rqueue = s.srv.rqueue) :
    ({ s with srv, reactor := pc } : State).outstanding.Subperm s.outstanding := by
  rw [State.outstanding, State.outstanding, idle, rqueue, List.nil_append]
  exact ((List.sublist_append_right _ _).append_right _).subperm

/-- A step adds to what is outstanding only the item it reads, of the connection read from. -/
theorem outstanding_step {l : Label} (stepped : Step s l s') :
    s'.outstanding.Subperm s.outstanding ∨ ∃ input item, l = .read input ∧
      s.readee = some item.client ∧ s'.outstanding = item :: s.outstanding := by
  cases stepped with
  | waited _ _ =>
    refine .inl (outstanding_reactor ?_ rfl)
    unfold Pc.begin
    split <;> rfl
  | tested _ => exact .inl (outstanding_reactor (pushing_dispatch _ _) rfl)
  | acceptLooping _ => exact .inl (outstanding_reactor rfl rfl)
  | acceptNone _ => exact .inl (outstanding_reactor (pushing_resume _) rfl)
  | @acceptDropped fr input inc _ _ _ =>
    obtain ⟨kernel, _, dropped⟩ := s.srv.dropped_frame inc
    rw [dropped]
    exact .inl (outstanding_reactor (pushing_resume _) rfl)
  | @acceptRefused fr input inc c rest nconn _ _ _ _ _ =>
    obtain ⟨kernel, obj, _, _, refused⟩ := s.srv.refused_frame inc c rest nconn
    rw [refused]
    exact .inl (outstanding_reactor (pushing_resume _) rfl)
  | acceptAdmitted _ _ _ _ => exact .inl (outstanding_reactor rfl rfl)
  | sockoptFailed _ _ => exact .inl (outstanding_reactor (pushing_resume _) rfl)
  | sockoptConnected _ _ => exact .inl (outstanding_reactor rfl rfl)
  | sockoptSevered _ _ _ => exact .inl (outstanding_reactor rfl rfl)
  | readSkipped _ _ => exact .inl (outstanding_reactor rfl rfl)
  | readLooping _ _ _ => exact .inl (outstanding_reactor rfl rfl)
  | @readEnded fr c input _ _ _ =>
    obtain ⟨kernel, obj, _, _, ended⟩ := (s.srv.received c input).hangUp_frame c
    rw [ended]
    exact .inl (outstanding_reactor rfl rfl)
  | readFinished _ _ _ _ _ => exact .inl (outstanding_reactor rfl rfl)
  | @readItem fr c input recvlen item made at_read _ returned _ _ read _ _ =>
    refine .inr ⟨input, item, rfl, ?_, ?_⟩
    · obtain ⟨sock, found⟩ := Option.isSome_iff_exists.mp (Server.isOpen_of_recvlen returned)
      rw [read, found, State.readee, at_read]
      simp only [Kernel.clientOf, found, Option.map_some, Option.getD_some]
    · rw [State.outstanding, State.outstanding, at_read]
      rfl
  | @pushed fr c item at_push =>
    refine .inl (List.Perm.subperm ?_)
    rw [State.outstanding, State.outstanding, at_push]
    show ((s.srv.rqueue ++ [item]) ++ s.workers.filterMap Worker.presents).Perm
      (([item] ++ s.srv.rqueue) ++ s.workers.filterMap Worker.presents)
    exact List.perm_append_comm.append_right _
  | posted _ => exact .inl (outstanding_reactor rfl rfl)
  | writeIdle _ => exact .inl (outstanding_reactor (pushing_resume _) rfl)
  | writeLooping _ _ _ _ => exact .inl (outstanding_reactor rfl rfl)
  | written _ _ _ _ _ _ _ => exact .inl (outstanding_reactor (pushing_resume _) rfl)
  | arrived => exact .inl (List.Subperm.refl _)
  | sendIdle => exact .inl (List.Subperm.refl _)
  | sent _ _ _ _ _ _ => exact .inl (List.Subperm.refl _)
  | worker moved =>
    refine .inl ?_
    cases moved with
    | taken found _ => exact outstanding_turn found rfl rfl rfl (.inl rfl)
    | sized found _ => exact outstanding_turn found rfl rfl rfl (.inl rfl)
    | sizedEmpty found _ => exact outstanding_turn found rfl rfl rfl (.inl rfl)
    | poppedEmpty found _ => exact outstanding_turn found rfl rfl rfl (.inl rfl)
    | @popped item rest at_pop queue =>
      have taken : ((s.workers.set _ (.call item)).filterMap Worker.presents).Perm
          (item :: s.workers.filterMap Worker.presents) :=
        Crew.filterMap_set_take at_pop Worker.presents rfl rfl
      apply List.Perm.subperm
      simp only [State.outstanding, queue, List.append_assoc]
      exact ((taken.append_left rest).trans List.perm_middle).append_left _
    | called found => exact outstanding_turn found rfl rfl rfl (.inl rfl)
    | returned found => exact outstanding_turn found rfl rfl rfl (.inr rfl)
    | freed found => exact outstanding_turn found rfl rfl rfl (.inl rfl)
  | interrupted found => exact .inl (outstanding_turn found rfl rfl rfl (.inl rfl))

/-- Where chunks of a connection are read only after the earlier ones, one is outstanding at
most. -/
theorem outstanding_of_answered (reached : Reach EpollNet.step (AnsweredFor client) Started s) :
    (ofClient client s.outstanding).length ≤ 1 := by
  apply reached.invariant
  · intro s started
    have blank := started.blank
    rw [State.outstanding, blank.pushing, blank.rqueue, blank.idle rfl]
    exact Nat.zero_le 1
  · intro s l s' few allowed stepped
    rcases outstanding_step (step_cases stepped) with fewer | ⟨input, item, rfl, read, more⟩
    · exact (fewer.filter _).length_le.trans few
    · rw [more]
      by_cases own : item.client = client
      · subst own
        rw [ofClient_cons_self, allowed read]
        exact le_refl 1
      · rw [ofClient_cons_other own]
        exact few

/-- Two workers inside `procread` for a connection have two chunks of it outstanding. -/
theorem oneByOne_of_outstanding (few : (ofClient client s.outstanding).length ≤ 1) :
    OneByOne client s := by
  intro v w first second at_first at_second own own'
  by_contra distinct
  obtain ⟨rest, both⟩ := Crew.filterMap_two (Ne.symm distinct) at_first at_second
    Worker.presents rfl rfl
  have presented := (both.filter fun item => item.client == client).length_eq
  rw [List.filter_cons_of_pos (by simpa using own), List.filter_cons_of_pos (by simpa using own'),
    List.length_cons, List.length_cons] at presented
  rw [ofClient, State.outstanding, List.filter_append, List.length_append] at few
  omega

/-! ## Runs -/

/-- The number of workers stays. -/
theorem workers_length {l : Label} (stepped : Step s l s') :
    s'.workers.length = s.workers.length := by
  cases stepped with
  | worker moved => cases moved <;> exact List.length_set
  | interrupted _ => exact List.length_set
  | _ => rfl

/-- With one worker every pop is exclusive: the worker that pops holds nothing. -/
theorem exclusive_of_single (single : s.workers.length ≤ 1) (l : Label) :
    ExclusiveFor client s l := by
  cases l with
  | worker w =>
    intro at_pop item _ _ other member
    obtain ⟨pc, found, holds⟩ := List.mem_filterMap.mp member
    obtain ⟨v, inside, same⟩ := List.getElem_of_mem found
    obtain ⟨inside', popping⟩ := List.getElem?_eq_some_iff.mp at_pop
    obtain rfl : v = w := by omega
    have at_pop' : pc = .pop := same.symm.trans popping
    rw [at_pop'] at holds
    cases holds
  | _ => trivial

/-- With one worker both hold in every run. -/
theorem inOrder_of_single {allow : State → Label → Prop}
    (reached : Reach EpollNet.step allow Started s) (single : s.workers.length ≤ 1) :
    InOrder s := by
  have exclusive : ∀ client, Reach EpollNet.step (ExclusiveFor client) Started s := by
    intro client
    induction reached with
    | refl begun => exact .refl begun
    | tail _ _ stepped ih =>
      rw [workers_length (step_cases stepped)] at single
      exact (ih single).tail (exclusive_of_single single _) stepped
  refine ⟨fun client => ?_, fun client v w first second at_first at_second _ _ => ?_⟩
  · exact ((serial_of_exclusive (exclusive client)).handed_chunks (custody reached).1).sublist
  · obtain ⟨inside, _⟩ := List.getElem?_eq_some_iff.mp at_first
    obtain ⟨inside', _⟩ := List.getElem?_eq_some_iff.mp at_second
    omega

/-- For every connection: the calls of `procread` start in reading order, and skip no chunk, in
every run in which no worker pops a chunk of it while another is between its pop of one and the
start of its call; calls that overlap are of different chunks; none overlap in a run in which a
chunk is read only while no earlier one is outstanding; and with one worker both hold always. -/
theorem delivered_in_order (client : Nat) :
    (∀ s, Reach EpollNet.step (ExclusiveFor client) Started s →
      ofClient client (handed s.history) <+: ofClient client (chunks s.history)) ∧
    (∀ s, Reach EpollNet.step (fun _ _ => True) Started s →
      ∀ (v w : Nat) (first second : Item), v ≠ w → s.workers[w]? = some (.running first) →
        s.workers[v]? = some (.running second) → first.addr ≠ second.addr) ∧
    (∀ s, Reach EpollNet.step (AnsweredFor client) Started s → OneByOne client s) ∧
    ∀ s, Reach EpollNet.step (fun _ _ => True) Started s → s.workers.length ≤ 1 → InOrder s := by
  refine ⟨fun s reached => ?_, fun s reached v w first second distinct at_first at_second => ?_,
    fun s reached => ?_, fun s reached => ?_⟩
  · exact (serial_of_exclusive reached).handed_chunks (custody reached).1
  · exact running_apart (custody reached).2 distinct at_first at_second
  · exact oneByOne_of_outstanding (outstanding_of_answered reached)
  · exact inOrder_of_single reached

namespace Sample

/-- A chunk of one byte of the first client, with its copy and then itself allocated from this
address on. -/
def chunk (addr : Nat) (byte : UInt8) : Item :=
  ⟨addr + 1, 1, some ⟨addr, ⟨1, 0, [byte, 0]⟩⟩, 1, 1⟩

end Sample

/-- While a worker is inside `procread` with the first chunk of a connection another pops and starts
the second; and a second chunk is read after the first was presented, and presented too. -/
theorem delivered_in_order_overlapping :
    (∃ s : State, ofClient 1 (handed s.history) <+: ofClient 1 (chunks s.history) ∧
      s.workers[0]? = some (.running (Sample.chunk 0 65)) ∧
      s.workers[1]? = some (.running (Sample.chunk 2 66)) ∧
      (Sample.chunk 2 66).addr ≠ (Sample.chunk 0 65).addr) ∧
    ∃ s : State, OneByOne 1 s ∧ handed s.history = [Sample.chunk 0 65, Sample.chunk 2 66] := by
  have overlapping : (runAllowed EpollNet.step (ExclusiveFor 1) Sample.start
      (Sample.connecting 4 ++ Sample.delivering 4 [65] ++ Sample.delivering 4 [66] ++
        Sample.taking 0 ++ [.worker 0] ++ Sample.taking 1 ++ [.worker 1])).map
        (fun s => decide (s.workers[0]? = some (.running (Sample.chunk 0 65)) ∧
          s.workers[1]? = some (.running (Sample.chunk 2 66)))) = some true := by
    decide +kernel
  have answered : (runAllowed EpollNet.step (AnsweredFor 1) Sample.start
      (Sample.connecting 4 ++ Sample.delivering 4 [65] ++ Sample.taking 0 ++
        [.worker 0, .worker 0, .worker 0] ++ Sample.delivering 4 [66] ++ Sample.taking 1 ++
        [.worker 1])).map
        (fun s => decide (handed s.history = [Sample.chunk 0 65, Sample.chunk 2 66])) =
        some true := by
    decide +kernel
  obtain ⟨s, reached, passed⟩ := Reach.exists_of_run Sample.started overlapping
  obtain ⟨t, reached', passed'⟩ := Reach.exists_of_run Sample.started answered
  obtain ⟨first, second⟩ := of_decide_eq_true passed
  have everywhere : Reach EpollNet.step (fun _ _ => True) Started s :=
    reached.weaken fun _ _ _ => trivial
  have different := (delivered_in_order 1).2.1 s everywhere 0 1 _ _ (by decide) second first
  exact ⟨⟨s, (delivered_in_order 1).1 s reached, first, second, different⟩,
    ⟨t, (delivered_in_order 1).2.2.1 t reached', of_decide_eq_true passed'⟩⟩

/-- Two workers take a chunk each of one connection; the second is presented first, and while it
is being processed so is the other. -/
theorem delivered_out_of_order :
    (¬∀ s, Reach EpollNet.step Disciplined Started s → ∀ client,
      (ofClient client (handed s.history)).Sublist (ofClient client (chunks s.history))) ∧
    (¬∀ s, Reach EpollNet.step Disciplined Started s → ∀ client, OneByOne client s) ∧
    ¬∀ s, Reach EpollNet.step Disciplined Started s → InOrder s := by
  have completed : (runAllowed EpollNet.step Disciplined Sample.start
      (Sample.connecting 4 ++ Sample.delivering 4 [65] ++ Sample.delivering 4 [66] ++
        Sample.taking 0 ++ Sample.taking 1 ++ [.worker 1, .worker 0])).map
        (fun s => decide (
          (ofClient 1 (handed s.history)).isSublist (ofClient 1 (chunks s.history)) = false ∧
          s.workers[0]? = some (.running (Sample.chunk 0 65)) ∧
          s.workers[1]? = some (.running (Sample.chunk 2 66)))) = some true := by
    decide +kernel
  obtain ⟨s, reached, passed⟩ := Reach.exists_of_run Sample.started completed
  obtain ⟨reversed, first, second⟩ := of_decide_eq_true passed
  have unordered : ¬(ofClient 1 (handed s.history)).Sublist (ofClient 1 (chunks s.history)) := by
    intro ordered
    have inOrder := List.isSublist_iff_sublist.mpr ordered
    exact Bool.false_ne_true (reversed.symm.trans inOrder)
  have together : ¬OneByOne 1 s := fun alone =>
    absurd (alone 0 1 _ _ first second rfl rfl) (by decide)
  exact ⟨fun ordered => unordered (ordered s reached 1), fun alone => together (alone s reached 1),
    fun inOrder => unordered ((inOrder s reached).ordered 1)⟩

end EpollNet
