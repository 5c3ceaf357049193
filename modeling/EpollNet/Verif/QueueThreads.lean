import EpollNet.Net.QueueSteps
import EpollNet.Verif.Sequences

/-!
# Threads on a queue

Threads that push to and pop from a queue on the heap under its lock use it as if one after the
other, so what the server's model takes for one step is what many steps come to. The counter, which
is also read without the lock, is at every moment that of the queue before the call under way or
after it.
-/

namespace EpollNet

open EpollNet.Basis EpollNet.Basis.Cells

variable {α : Type} {malloc : Nat → Nodes α → Option Nat} {call : QueueCall α} {list : DataList}
  {m : Nodes α} {own : QueueOwn α}

/-! ## The statements one after the other -/

/-- A statement that ends, and those behind it. -/
theorem through_listStage
    {act : DataList → Nodes α → QueueOwn α → Exec (DataList × Nodes α × QueueOwn α)}
    (stages : List (QueueStage α)) (list : DataList) (m : Nodes α) (own : QueueOwn α) :
    through (listStage act :: stages) ((⟨list⟩, m), own) =
      act list m own >>= fun next => through stages ((⟨next.1⟩, next.2.1), next.2.2) := by
  rw [through_cons]
  show (act list m own >>= _) >>= _ = _
  cases act list m own <;> rfl

/-- The statements of `DataList_Addtail` are the function. -/
theorem push_whole (turn : Nat) (data : α) (list : DataList) (m : Nodes α) :
    (queueSection malloc).whole (.push turn data) (⟨list⟩, m) =
      QueueCall.whole malloc (.push turn data) (⟨list⟩, m) := by
  show through [createStage malloc turn data, tailStage, linkStage, backStage, endTailStage,
    countUpStage] ((⟨list⟩, m), ⟨none, none, none, false⟩) >>= _ = _
  unfold createStage tailStage linkStage backStage endTailStage countUpStage
  cases tail : list.tail with
  | none =>
    simp only [through_listStage, QueueCall.whole, DataQueue.push, DataList.addtail, tail, ok_bind]
    rfl
  | some t =>
    simp only [through_listStage, QueueCall.whole, DataQueue.push, DataList.addtail, tail, ok_bind]
    generalize dataNodeCreate m (malloc turn m) data = made
    obtain ⟨node, m⟩ := made
    show ((m.store (some t) _ >>= _) >>= _) >>= _ = ((m.store (some t) _ >>= _) >>= _) >>= _
    cases m.store (some t) fun n => { n with next := node } with
    | error halt => rfl
    | ok m =>
      show (((m.store node fun n => { n with prev := list.tail }) >>= _) >>= _) >>= _ =
        (((m.store node _) >>= _) >>= _) >>= _
      rw [tail]
      cases m.store node fun n => { n with prev := some t } <;> rfl

/-- A statement of a branch that is taken. -/
theorem through_unlessEmpty
    {act : DataList → Nodes α → QueueOwn α → Exec (DataList × Nodes α × QueueOwn α)}
    (stages : List (QueueStage α)) (list : DataList) (m : Nodes α) (taken : own.empty = false) :
    through (unlessEmpty act :: stages) ((⟨list⟩, m), own) =
      act list m own >>= fun next => through stages ((⟨next.1⟩, next.2.1), next.2.2) := by
  unfold unlessEmpty
  rw [through_listStage, taken]
  rfl

/-- The statements about the new head are `fixHead`. -/
theorem through_fixHead (stages : List (QueueStage α)) (list : DataList) (m : Nodes α)
    (taken : own.empty = false) :
    through (prevStage :: fixStage :: stages) ((⟨list⟩, m), own) =
      list.fixHead m >>= fun next => through stages ((⟨next.1⟩, next.2), own) := by
  unfold prevStage fixStage DataList.fixHead
  rw [through_unlessEmpty _ list m taken]
  cases head : list.head with
  | none =>
    rw [ok_bind, ok_bind, through_unlessEmpty _ _ _ taken]
    rfl
  | some h =>
    dsimp only
    cases m.store (some h) fun n => { n with prev := none } with
    | error halt => rfl
    | ok m =>
      rw [ok_bind, ok_bind, ok_bind, through_unlessEmpty _ _ _ taken, head]
      dsimp only
      cases m.load (some h) with
      | error halt => rfl
      | ok node =>
        rw [ok_bind, ok_bind]
        cases node.next with
        | none => rfl
        | some b =>
          dsimp only
          cases m.store (some b) fun n => { n with prev := some h } <;> rfl

/-- The statements of `DataList_Removehead` are the function. -/
theorem pop_whole (list : DataList) (m : Nodes α) :
    (queueSection malloc).whole .pop (⟨list⟩, m) = QueueCall.whole malloc .pop (⟨list⟩, m) := by
  show through [headTestStage, tempStage, nextStage, prevStage, fixStage, dataStage, freeStage,
    countDownStage] ((⟨list⟩, m), ⟨none, none, none, false⟩) >>= _ = _
  unfold QueueCall.whole DataQueue.pop DataList.removehead headTestStage
  rw [through_listStage, ok_bind]
  dsimp only
  cases head : list.head with
  | none => rfl
  | some t =>
    unfold tempStage nextStage
    rw [through_unlessEmpty _ _ _ rfl, ok_bind, through_unlessEmpty _ _ _ rfl]
    dsimp only
    rw [head]
    cases m.load (some t) with
    | error halt => rfl
    | ok node =>
      rw [ok_bind, ok_bind, through_fixHead _ _ _ rfl]
      dsimp only
      rw [ok_bind]
      cases ({ list with head := node.next } : DataList).fixHead m with
      | error halt => rfl
      | ok next =>
        obtain ⟨list, m⟩ := next
        unfold dataStage freeStage
        rw [ok_bind, ok_bind, through_unlessEmpty _ _ _ rfl]
        dsimp only
        cases m.load (some t) with
        | error halt => rfl
        | ok node =>
          rw [ok_bind, ok_bind, ok_bind, through_unlessEmpty _ _ _ rfl]
          dsimp only
          cases m.free (some t) <;> rfl

/-- The statements of a call, with nothing in between, are the call. -/
theorem queueSection_whole (call : QueueCall α) (object : DataQueue × Nodes α) :
    (queueSection malloc).whole call object = call.whole malloc object := by
  obtain ⟨⟨list⟩, m⟩ := object
  cases call with
  | push turn data => exact push_whole turn data list m
  | pop => exact pop_whole list m

/-! ## The counter and the heap -/

/-- Addresses from some point on are not in use. -/
def HasRoom (m : Nodes α) : Prop := ∃ bound, ∀ a, bound ≤ a → m a = none

/-- A write to one address leaves room. -/
theorem HasRoom.update (room : HasRoom m) (a : Nat) (new : Option (Node α)) :
    HasRoom (Function.update m a new) := by
  obtain ⟨bound, free⟩ := room
  refine ⟨max bound (a + 1), fun b above => ?_⟩
  have distinct : b ≠ a := by omega
  have beyond : bound ≤ b := by omega
  rw [Function.update_of_ne distinct]
  exact free b beyond

/-- A store takes no room. -/
theorem HasRoom.store {p : Option Nat} {change : Node α → Node α} {m' : Nodes α}
    (room : HasRoom m) (stored : m.store p change = .ok m') : HasRoom m' := by
  unfold Nodes.store at stored
  split at stored
  · cases stored
  · split at stored
    · cases stored
    · obtain rfl := Except.ok.inj stored
      exact room.update _ _

/-- A `free` takes no room. -/
theorem HasRoom.free {p : Option Nat} {m' : Nodes α} (room : HasRoom m)
    (freed : m.free p = .ok m') : HasRoom m' := by
  unfold Nodes.free at freed
  split at freed
  · cases freed
  · split at freed
    · cases freed
    · obtain rfl := Except.ok.inj freed
      exact room.update _ _

/-- The list counts so many nodes, and the heap has room. -/
def Counts (count : BitVec 32) (list : DataList) (m : Nodes α) : Prop :=
  list.count = count ∧ HasRoom m

/-- The action keeps the counter, and room. -/
def KeepsCount (act : DataList → Nodes α → QueueOwn α → Exec (DataList × Nodes α × QueueOwn α)) :
    Prop :=
  ∀ count list m own next, Counts count list m → act list m own = .ok next →
    Counts count next.1 next.2.1

/-- So does a statement. -/
def StageKeeps (stage : QueueStage α) : Prop :=
  ∀ count here there, Counts count here.1.1.list here.1.2 → stage here = .ok there →
    Counts count there.1.1.list there.1.2

variable {act : DataList → Nodes α → QueueOwn α → Exec (DataList × Nodes α × QueueOwn α)}

/-- A statement that keeps the count does so on the queue. -/
theorem KeepsCount.stage (keeps : KeepsCount act) : StageKeeps (listStage act) := by
  rintro count ⟨⟨⟨list⟩, m⟩, own⟩ there counts ended
  obtain ⟨next, acted, ended⟩ := bind_ends ended
  obtain rfl := Except.ok.inj ended
  exact keeps count list m own next counts acted

/-- A statement in a branch does when it is taken. -/
theorem KeepsCount.branch (keeps : KeepsCount act) : StageKeeps (unlessEmpty act) := by
  apply KeepsCount.stage
  intro count list m own next counts acted
  dsimp only at acted
  by_cases empty : own.empty = true
  · rw [if_pos empty] at acted
    obtain rfl := Except.ok.inj acted
    exact counts
  · rw [if_neg empty] at acted
    exact keeps count list m own next counts acted

/-- A store keeps them. -/
theorem Counts.store {count : BitVec 32} {p : Option Nat} {change : Node α → Node α}
    {next : DataList × Nodes α × QueueOwn α} (counts : Counts count list m)
    (acted : (m.store p change >>= fun m => .ok (list, m, own)) = .ok next) :
    Counts count next.1 next.2.1 := by
  obtain ⟨m', stored, ended⟩ := bind_ends acted
  obtain rfl := Except.ok.inj ended
  exact ⟨counts.1, counts.2.store stored⟩

/-- Every statement of `DataList_Addtail` but the last keeps them. -/
theorem push_keeps (malloc : Nat → Nodes α → Option Nat) (turn : Nat) (data : α) :
    ∀ stage ∈ (QueueCall.push turn data).stages malloc, StageKeeps stage := by
  have created : StageKeeps (createStage malloc turn data) := by
    apply KeepsCount.stage
    intro count list m own next counts acted
    dsimp only at acted
    cases given : malloc turn m with
    | none =>
      rw [given] at acted
      obtain rfl := Except.ok.inj acted
      exact counts
    | some a =>
      rw [given] at acted
      obtain rfl := Except.ok.inj acted
      exact ⟨counts.1, counts.2.update a _⟩
  simp only [QueueCall.stages, List.forall_mem_cons, List.not_mem_nil, false_imp_iff,
    implies_true, and_true]
  refine ⟨created, KeepsCount.stage ?_, KeepsCount.stage ?_, KeepsCount.stage ?_,
    KeepsCount.stage ?_⟩
  · rintro count list m own next counts ⟨⟩
    exact counts
  · intro count list m own next counts acted
    dsimp only at acted
    split at acted
    · cases acted
      exact counts
    · exact counts.store acted
  · intro count list m own next counts acted
    dsimp only at acted
    split at acted
    · cases acted
      exact counts
    · exact counts.store acted
  · rintro count list m own next counts ⟨⟩
    exact counts

/-- Every statement of `DataList_Removehead` but the last does. -/
theorem pop_keeps (malloc : Nat → Nodes α → Option Nat) :
    ∀ stage ∈ (QueueCall.pop : QueueCall α).stages malloc, StageKeeps stage := by
  simp only [QueueCall.stages, List.forall_mem_cons, List.not_mem_nil, false_imp_iff,
    implies_true, and_true]
  refine ⟨KeepsCount.stage ?_, KeepsCount.branch ?_, KeepsCount.branch ?_, KeepsCount.branch ?_,
    KeepsCount.branch ?_, KeepsCount.branch ?_, KeepsCount.branch ?_⟩
  · rintro count list m own next counts ⟨⟩
    exact counts
  · rintro count list m own next counts ⟨⟩
    exact counts
  · intro count list m own next counts acted
    obtain ⟨_, _, ended⟩ := bind_ends acted
    cases ended
    exact counts
  · intro count list m own next counts acted
    dsimp only at acted
    split at acted
    · cases acted
      exact counts
    · exact counts.store acted
  · intro count list m own next counts acted
    dsimp only at acted
    split at acted
    · cases acted
      exact counts
    · obtain ⟨node, _, acted⟩ := bind_ends acted
      split at acted
      · exact counts.store acted
      · cases acted
        exact counts
  · intro count list m own next counts acted
    obtain ⟨_, _, ended⟩ := bind_ends acted
    cases ended
    exact counts
  · intro count list m own next counts acted
    obtain ⟨m', freed, ended⟩ := bind_ends acted
    cases ended
    exact ⟨counts.1, counts.2.free freed⟩

/-- All statements ahead of the one that counts keep the count. -/
theorem stages_keep (malloc : Nat → Nodes α → Option Nat) (call : QueueCall α) :
    ∀ stage ∈ call.stages malloc, StageKeeps stage := by
  cases call with
  | push turn data => exact push_keeps malloc turn data
  | pop => exact pop_keeps malloc

/-- Any statements one after the other do. -/
theorem through_keeps {stages : List (QueueStage α)} (keep : ∀ stage ∈ stages, StageKeeps stage)
    {count : BitVec 32} {here there : (DataQueue × Nodes α) × QueueOwn α}
    (counts : Counts count here.1.1.list here.1.2) (ended : through stages here = .ok there) :
    Counts count there.1.1.list there.1.2 := by
  induction stages generalizing here with
  | nil =>
    obtain rfl := Except.ok.inj ended
    exact counts
  | cons stage stages ih =>
    rw [through_cons] at ended
    obtain ⟨next, first, ended⟩ := bind_ends ended
    exact ih (fun other member => keep other (List.mem_cons_of_mem _ member))
      (keep stage List.mem_cons_self count _ _ counts first) ended

/-- The last statement leaves the heap. -/
theorem count_heap {here there : (DataQueue × Nodes α) × QueueOwn α}
    (ended : call.count here = .ok there) : there.1.2 = here.1.2 := by
  cases call with
  | push _ data =>
    obtain rfl := Except.ok.inj ended
    rfl
  | pop =>
    obtain ⟨⟨⟨list⟩, m⟩, own⟩ := here
    obtain ⟨next, acted, ended⟩ := bind_ends ended
    obtain rfl := Except.ok.inj ended
    dsimp only at acted
    split at acted
    · cases acted
      rfl
    · cases acted
      rfl

/-- A whole call leaves room. -/
theorem whole_room {object object' : DataQueue × Nodes α} {result : Option α}
    (room : HasRoom object.2) (called : call.whole malloc object = .ok (result, object')) :
    HasRoom object'.2 := by
  rw [← queueSection_whole] at called
  obtain ⟨⟨shared, own⟩, ended, same⟩ := bind_ends called
  obtain ⟨_, rfl⟩ := Prod.mk.inj (Except.ok.inj same)
  have split : through (call.stages malloc ++ [call.count]) (object, _) = .ok (shared, own) := ended
  rw [through_append] at split
  obtain ⟨next, ahead, last⟩ := bind_ends split
  have counts := through_keeps (stages_keep malloc call)
    (show Counts object.1.list.count object.1.list object.2 from ⟨rfl, room⟩) ahead
  rw [through_cons] at last
  obtain ⟨there, counted, last⟩ := bind_ends last
  obtain rfl := Except.ok.inj last
  have heap : shared.2 = next.1.2 := count_heap counted
  rw [heap]
  exact counts.2

/-! ## Calls one after the other -/

/-- Each call of `malloc` gives an address that is not in use where there are some. -/
def Fresh (malloc : Nat → Nodes α → Option Nat) : Prop :=
  ∀ turn m, HasRoom m → ∃ a, malloc turn m = some a ∧ m a = none

/-- A call on the queue of the server's model. -/
def QueueCall.onQueue : QueueCall α → List α → Option α × List α
  | .push _ data, xs => (none, dataQueuePush xs data)
  | .pop, xs => dataQueuePop xs

/-- The queue stands for that of the server's model, and the heap has room. -/
def StandsWithRoom (object : DataQueue × Nodes α) (xs : List α) : Prop :=
  QueueStands object xs ∧ HasRoom object.2

/-- A call on the heap is one on the queue of the server's model. -/
theorem whole_stands (fresh : Fresh malloc) (call : QueueCall α) (object : DataQueue × Nodes α)
    (xs : List α) (stands : StandsWithRoom object xs) :
    ∃ object', call.whole malloc object = .ok ((call.onQueue xs).1, object') ∧
      StandsWithRoom object' (call.onQueue xs).2 := by
  obtain ⟨queue, m⟩ := object
  obtain ⟨stands, room⟩ := stands
  have called : ∃ object', call.whole malloc (queue, m) = .ok ((call.onQueue xs).1, object') ∧
      QueueStands object' (call.onQueue xs).2 := by
    cases call with
    | push turn data =>
      obtain ⟨a, given, free⟩ := fresh turn m room
      obtain ⟨object', called, stands'⟩ :=
        DataQueue.call_stands (.push a data) (queue, m) xs stands free
      refine ⟨object', Eq.trans ?_ called, stands'⟩
      show (queue.push m (malloc turn m) data >>= _) = (queue.push m (some a) data >>= _)
      rw [given]
    | pop =>
      obtain ⟨object', called, stands'⟩ := DataQueue.call_stands .pop (queue, m) xs stands trivial
      exact ⟨object', called, stands'⟩
  obtain ⟨object', called, stands'⟩ := called
  exact ⟨object', called, stands', whole_room room called⟩

/-- Calls on a new queue are calls on that of the server's model. -/
theorem calls_stand (fresh : Fresh malloc) (room : HasRoom m) (calls' : List (QueueCall α)) :
    ∃ object, calls (QueueCall.whole malloc) calls' (DataQueue.init, m) =
        .ok ((meaning QueueCall.onQueue calls' []).1, object) ∧
      StandsWithRoom object (meaning QueueCall.onQueue calls' []).2 := by
  have stands : StandsWithRoom (DataQueue.init, m) ([] : List α) :=
    ⟨⟨[], linked_create m, rfl⟩, room⟩
  have permitted : Permitted (QueueCall.whole malloc) (fun _ _ => True) calls'
      (DataQueue.init, m) := Permitted.of_all (fun _ _ => trivial) _
  exact calls_refine (fun _ => StandsWithRoom)
    (fun _ call object xs stands _ => whole_stands fresh call object xs stands) stands permitted

/-- A queue that stands for that of the server's model counts its data. -/
theorem QueueStands.size {object : DataQueue × Nodes α} {xs : List α}
    (stands : QueueStands object xs) : object.1.size.toNat = dataQueueSize xs := by
  obtain ⟨cells, linked, rfl⟩ := stands
  have counted : object.1.list.count.toNat = cells.length % 2 ^ 32 := by
    rw [linked.count, BitVec.toNat_ofNat]
  simpa [DataQueue.size, DataList.getcount, dataQueueSize, Cells.data] using counted

/-! ## Threads -/

/-- Threads that use a queue: how it, the heap and they stand. -/
abbrev QueueThreads (α : Type) :=
  Sections (QueueCall α) Halt (Option α) (DataQueue × Nodes α) (QueueOwn α)

/-- What threads find of a queue: `before` are the calls that have returned and `current` is the one
under way, if there is one. -/
structure FoundAs (s : QueueThreads α) (before current : List (Nat × QueueCall α)) : Prop where
  /-- Nothing was undefined. -/
  fine : s.failed = none
  /-- These are the calls that took the lock. -/
  entered : s.entered = before ++ current
  /-- One at most is under way. -/
  single : current.length ≤ 1
  /-- It has the lock. -/
  locked : s.locked = false ↔ current = []
  /-- The others returned to their threads. -/
  threads : s.returned.map Prod.fst = before.map Prod.fst
  /-- They returned what they do on the queue of the server's model. -/
  results : s.returned.map Prod.snd = (meaning QueueCall.onQueue (before.map Prod.snd) []).1
  /-- While none is under way the nodes hold that queue. -/
  stands : current = [] →
    QueueStands s.shared (meaning QueueCall.onQueue (before.map Prod.snd) []).2
  /-- The counter is that of the queue without the call under way or with it. -/
  counter : s.shared.1.size.toNat =
      dataQueueSize (meaning QueueCall.onQueue (before.map Prod.snd) []).2 ∨
    s.shared.1.size.toNat =
      dataQueueSize (meaning QueueCall.onQueue (s.entered.map Prod.snd) []).2

/-- Threads whose calls are one after the other find the queue of the server's model. -/
theorem foundAs_of_serialized (fresh : Fresh malloc) (room : HasRoom m) {s : QueueThreads α}
    (serial : Serialized (queueSection malloc) (DataQueue.init, m) s) :
    ∃ before current, FoundAs s before current := by
  have same : (queueSection malloc).whole = QueueCall.whole malloc :=
    funext fun call => funext fun object => queueSection_whole call object
  cases serial with
  | free fine unlocked _ threads done =>
    obtain ⟨object, called, stands⟩ := calls_stand fresh room (s.entered.map Prod.snd)
    rw [same, called] at done
    obtain ⟨results, rfl⟩ := Prod.mk.inj (Except.ok.inj done)
    refine ⟨s.entered, [], fine, (List.append_nil _).symm, Nat.zero_le _, by simp [unlocked],
      threads, results.symm, fun _ => stands.1, .inl stands.1.size⟩
  | @held t call own taken rest before shared fine locked _ _ latest threads done steps midway =>
    obtain ⟨object, called, stands⟩ := calls_stand fresh room (before.map Prod.snd)
    rw [same, called] at done
    obtain ⟨results, rfl⟩ := Prod.mk.inj (Except.ok.inj done)
    refine ⟨before, [(t, call)], fine, latest, Nat.le_refl _, by simp [locked], threads,
      results.symm, nofun, ?_⟩
    -- the statement that counts is the last one
    rcases List.eq_nil_or_concat' rest with rfl | ⟨front, last, rfl⟩
    · right
      have ended : call.whole malloc object = .ok (own.data, s.shared) := by
        rw [← queueSection_whole]
        unfold Section.whole
        rw [steps, List.append_nil, midway]
        rfl
      obtain ⟨object', called, stands'⟩ := whole_stands fresh call object _ stands
      rw [ended] at called
      obtain ⟨_, rfl⟩ := Prod.mk.inj (Except.ok.inj called)
      rw [latest, List.map_append]
      show _ = dataQueueSize (meaning _ (_ ++ [call]) []).2
      rw [meaning_concat]
      exact stands'.1.size
    · left
      have ahead : call.stages malloc = taken ++ front := by
        have split : call.stages malloc ++ [call.count] = (taken ++ front) ++ [last] := by
          rw [List.append_assoc]
          exact steps
        exact (List.append_inj' split rfl).1
      have counts : Counts object.1.list.count object.1.list object.2 := ⟨rfl, stands.2⟩
      have kept := through_keeps (fun stage member => stages_keep malloc call stage
        (ahead ▸ List.mem_append_left front member)) counts midway
      rw [← stands.1.size]
      exact congrArg BitVec.toNat kept.1
  | failed wrong done =>
    obtain ⟨object, called, _⟩ := calls_stand fresh room (s.entered.map Prod.snd)
    rw [same, called] at done
    cases done

/-- In every run of any number of threads that push to and pop from a new queue under its lock, one
statement at a time and in any order, nothing is undefined, every call returns what it does on the
queue of the server's model, in the order in which the calls took the lock, and a look at the
counter without the lock sees that queue without the call under way or with it. The threads take no
more steps than `toDo` says, and then every call has returned. -/
theorem queue_calls_serialize (fresh : Fresh malloc) (room : HasRoom m) {n : Nat}
    {s : QueueThreads α}
    (reached : Reach (Sections.step (queueSection malloc)) (fun _ _ => True)
      (fun s => s = .create (DataQueue.init, m) n) s) :
    (∃ before current, FoundAs s before current) ∧
      (∀ t, callsOf t s.made = callsOf t s.entered ++ s.pendingOf t) ∧
      (∀ labels t, Path (Sections.step (queueSection malloc)) Working s labels t →
        labels.length ≤ s.toDo (queueSection malloc)) ∧
      ∀ labels t, Path (Sections.step (queueSection malloc)) Working s labels t →
        Resting (Sections.step (queueSection malloc)) Working t → AllReturned t := by
  obtain ⟨row, paid, ended⟩ := calls_serialize queueSection_whole reached
  refine ⟨foundAs_of_serialized fresh room (serialized_of_reach reached).1, row.turns, paid, ?_⟩
  intro labels t path resting
  have later := path.reach (fun _ _ _ => trivial) reached
  obtain ⟨_, _, found⟩ :=
    foundAs_of_serialized fresh room (serialized_of_reach later).1
  exact (ended labels t path resting).resolve_left fun wrong => wrong found.fine

namespace Sample

open Classical in
/-- Every call of `malloc` gives the first address that is not in use. -/
noncomputable def firstFree (_ : Nat) (m : Nodes Nat) : Option Nat :=
  if free : ∃ a, m a = none then some (Nat.find free) else none

/-- It is not in use. -/
theorem firstFree_fresh : Fresh firstFree := by
  rintro _ m ⟨bound, above⟩
  have free : ∃ a, m a = none := ⟨bound, above bound (Nat.le_refl bound)⟩
  exact ⟨_, dif_pos free, Nat.find_spec free⟩

end Sample

/-- One thread has pushed; another has called and waits. -/
theorem queue_calls_serialize_pushed : ∃ s : QueueThreads Nat,
    (∃ before current, FoundAs s before current) ∧ s.returned = [(0, none)] ∧
      s.made.map Prod.fst = [0, 1] := by
  have ran : ∃ s, run (Sections.step (queueSection Sample.firstFree))
      (.create (DataQueue.init, fun _ => none) 2)
      ([.call 0 (.push 0 5), .call 1 .pop] ++ List.replicate 8 (.thread 0)) = some s ∧
        s.returned = [(0, none)] ∧ s.made.map Prod.fst = [0, 1] := ⟨_, rfl, rfl, rfl⟩
  obtain ⟨s, ran, returned, made⟩ := ran
  have start : Reach (Sections.step (queueSection Sample.firstFree)) (fun _ _ => True)
      (fun s => s = .create (DataQueue.init, fun _ => none) 2)
      (.create (DataQueue.init, fun _ => none) 2) := .refl rfl
  have room : HasRoom (fun _ => none : Nodes Nat) := ⟨0, fun _ _ => rfl⟩
  have reached := start.of_run (fun _ _ _ => trivial) ran
  exact ⟨s, (queue_calls_serialize Sample.firstFree_fresh room reached).1, returned, made⟩

end EpollNet
