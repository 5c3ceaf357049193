import EpollNet.Basis.Residue
import EpollNet.Net.Wait

/-!
# Which flags the callback is given

`epollEvent_wait` gathers flags in `events` and never clears them, so the calls for an entry carry
what the entries before it added. They are the calls the entry would get alone exactly if no earlier
entry of the batch adds a flag that a call for a later one does not carry itself.
-/

namespace EpollNet

/-- The calls for a batch of this one entry. -/
def callsAlone (ev : EpollEvent) : List (ConnPtr × BitVec 32) :=
  (epollEventWait (fun mem _ _ => mem) id (fun _ => ev) 1).calls

section

variable {σ : Type} (cb : σ → ConnPtr → BitVec 32 → σ) (event : σ → Nat → EpollEvent)

/-- The entries `epoll_wait` stored. -/
def entries (mem : σ) (n : Nat) : List EpollEvent := (List.range n).map (event mem)

/-- The callback is called for each entry of the batch as for that entry alone, and then with
`EVENT_WRITE` exactly for `EPOLLOUT` or `EPOLLHUP` and with `EVENT_READ` exactly for `EPOLLIN` or
`EPOLLHUP`. -/
structure PerEntry (mem : σ) (n : Nat) : Prop where
  /-- The calls are those of the entries one after another. -/
  apart : (epollEventWait cb event mem n).calls = (entries event mem n).flatMap callsAlone
  /-- A call carries `EVENT_WRITE` when the mask asks for it, and only then. -/
  write : ∀ ev ∈ entries event mem n, (∃ call ∈ callsAlone ev, hasAny call.2 eventWriteBits) ↔
    hasAny ev.events (epollOut ||| epollHup)
  /-- A call carries `EVENT_READ` when the mask asks for it, and only then. -/
  read : ∀ ev ∈ entries event mem n, (∃ call ∈ callsAlone ev, hasAny call.2 eventReadBits) ↔
    hasAny ev.events (epollIn ||| epollHup)

end

/-- The earlier entry adds no flag that a call for the later one does not carry by itself. -/
def Clear (earlier later : EpollEvent) : Prop :=
  (hasAny later.events (epollOut ||| epollHup) →
    ¬hasAny earlier.events (epollIn ||| epollHup) ∧ ¬hasAny earlier.events epollErr) ∧
  (hasAny later.events (epollIn ||| epollHup) → ¬hasAny later.events (epollOut ||| epollHup) →
    ¬hasAny earlier.events (epollOut ||| epollHup) ∧
      (hasAny earlier.events epollErr → hasAny later.events epollErr))

instance (earlier later : EpollEvent) : Decidable (Clear earlier later) := by
  unfold Clear; infer_instance

/-! ## What one entry adds -/

/-- The flags an entry adds by its first test. -/
def outFlags (ev : EpollEvent) : BitVec 32 :=
  if hasAny ev.events (epollOut ||| epollHup) then eventWriteBits else 0

/-- The flags it adds by its second. -/
def errFlags (ev : EpollEvent) : BitVec 32 :=
  if hasAny ev.events epollErr then eventErrBits else 0

/-- The flags it adds by its third. -/
def inFlags (ev : EpollEvent) : BitVec 32 :=
  if hasAny ev.events (epollIn ||| epollHup) then eventReadBits else 0

/-- The flags gathered after an entry. -/
def leave (events : BitVec 32) (ev : EpollEvent) : BitVec 32 :=
  events ||| outFlags ev ||| errFlags ev ||| inFlags ev

/-- The call of the first test, with the flags gathered before the entry. -/
def outCalls (events : BitVec 32) (ev : EpollEvent) : List (ConnPtr × BitVec 32) :=
  if hasAny ev.events (epollOut ||| epollHup) then [(ev.ptr, events ||| outFlags ev)] else []

/-- The call of the last test. -/
def inCalls (events : BitVec 32) (ev : EpollEvent) : List (ConnPtr × BitVec 32) :=
  if hasAny ev.events (epollIn ||| epollHup) then [(ev.ptr, leave events ev)] else []

/-- The calls for an entry. -/
def entryCalls (events : BitVec 32) (ev : EpollEvent) : List (ConnPtr × BitVec 32) :=
  outCalls events ev ++ inCalls events ev

section

variable {σ : Type} {cb : σ → ConnPtr → BitVec 32 → σ} {event : σ → Nat → EpollEvent}

/-- The loop body, for a callback that leaves the array as it is. -/
theorem entry_quiet (untouched : ∀ mem connobj flags, event (cb mem connobj flags) = event mem)
    (w : Waiting σ) (i : Nat) :
    event (w.entry cb event i).mem = event w.mem ∧
      (w.entry cb event i).events = leave w.events (event w.mem i) ∧
      (w.entry cb event i).calls = w.calls ++ entryCalls w.events (event w.mem i) := by
  have out : event (w.testOut cb event i).mem = event w.mem ∧
      (w.testOut cb event i).events = w.events ||| outFlags (event w.mem i) ∧
      (w.testOut cb event i).calls = w.calls ++ outCalls w.events (event w.mem i) := by
    unfold Waiting.testOut outCalls outFlags
    split
    · exact ⟨untouched _ _ _, rfl, rfl⟩
    · exact ⟨rfl, (BitVec.or_zero).symm, (List.append_nil _).symm⟩
  obtain ⟨array, flags, calls⟩ := out
  have err : ((w.testOut cb event i).testErr event i).mem = (w.testOut cb event i).mem ∧
      ((w.testOut cb event i).testErr event i).events =
        w.events ||| outFlags (event w.mem i) ||| errFlags (event w.mem i) ∧
      ((w.testOut cb event i).testErr event i).calls = (w.testOut cb event i).calls := by
    unfold Waiting.testErr errFlags
    rw [array, flags]
    split
    · exact ⟨rfl, rfl, rfl⟩
    · exact ⟨rfl, flags.trans BitVec.or_zero.symm, rfl⟩
  obtain ⟨same, gathered, none'⟩ := err
  unfold Waiting.entry Waiting.testIn entryCalls inCalls leave inFlags
  rw [same, array, gathered]
  split
  · refine ⟨(untouched _ _ _).trans array, rfl, ?_⟩
    simp only [Waiting.call, none', calls, List.append_assoc]
  · refine ⟨(congrArg event same).trans array, gathered.trans BitVec.or_zero.symm, ?_⟩
    rw [none', calls, List.append_nil]

/-- The calls for a batch. -/
theorem calls_outputs (untouched : ∀ mem connobj flags, event (cb mem connobj flags) = event mem)
    (mem : σ) (n : Nat) : (epollEventWait cb event mem n).calls =
      Residue.outputs entryCalls leave 0 (entries event mem n) := by
  refine (Residue.foldl_outputs Waiting.events Waiting.calls (fun w => event w.mem = event mem)
    (fun w i array => ?_) rfl (List.range n)).trans (List.nil_append _)
  obtain ⟨kept, flags, calls⟩ := entry_quiet untouched w i
  rw [array] at kept flags calls
  exact ⟨kept, flags, calls⟩

/-- A batch of one entry gives the entry's calls with nothing gathered before it. -/
theorem callsAlone_eq : callsAlone = entryCalls 0 := by
  funext ev
  unfold callsAlone
  rw [calls_outputs fun _ _ _ => rfl]
  exact List.append_nil _

end

/-! ## Which flags are noticed -/

/-- Flags gathered in two parts change nothing exactly if neither part does. -/
theorem or_within_iff (first second flags : BitVec 32) :
    first ||| second ||| flags = flags ↔ first ||| flags = flags ∧ second ||| flags = flags := by
  constructor
  · intro within
    constructor
    · rw [← within, ← BitVec.or_assoc, ← BitVec.or_assoc, BitVec.or_self]
    · rw [← within, BitVec.or_comm first, ← BitVec.or_assoc, ← BitVec.or_assoc, BitVec.or_self]
  · rintro ⟨left, right⟩
    rw [BitVec.or_assoc, right, left]

/-- What an entry leaves is what was there and what it leaves alone. -/
theorem leave_split (events : BitVec 32) (ev : EpollEvent) :
    leave events ev = events ||| leave 0 ev := by
  simp [leave, BitVec.or_assoc]

/-- The calls for an entry are its own exactly if each carries the gathered flags by itself. -/
theorem entryCalls_eq_iff (events : BitVec 32) (ev : EpollEvent) :
    entryCalls events ev = entryCalls 0 ev ↔
      (hasAny ev.events (epollOut ||| epollHup) →
        events ||| eventWriteBits = eventWriteBits) ∧
      (hasAny ev.events (epollIn ||| epollHup) → events ||| leave 0 ev = leave 0 ev) := by
  unfold entryCalls outCalls inCalls outFlags
  rw [leave_split events]
  split <;> split <;> simp [*]

/-- What an earlier entry leaves is noticed in the calls for a later one unless it is clear of
it. -/
theorem clear_iff (earlier later : EpollEvent) : Clear earlier later ↔
    (hasAny later.events (epollOut ||| epollHup) →
      leave 0 earlier ||| eventWriteBits = eventWriteBits) ∧
    (hasAny later.events (epollIn ||| epollHup) →
      leave 0 earlier ||| leave 0 later = leave 0 later) := by
  unfold Clear leave outFlags errFlags inFlags
  generalize hasAny earlier.events (epollOut ||| epollHup) = out
  generalize hasAny earlier.events epollErr = err
  generalize hasAny earlier.events (epollIn ||| epollHup) = inp
  generalize hasAny later.events (epollOut ||| epollHup) = out'
  generalize hasAny later.events epollErr = err'
  generalize hasAny later.events (epollIn ||| epollHup) = inp'
  cases out' <;> cases inp' <;> cases out <;> cases err <;> cases inp <;> cases err' <;> decide

/-- A later entry's calls are its own if what was gathered before the earlier one and what the
earlier one adds both go unnoticed. -/
theorem entryCalls_leave_iff (events : BitVec 32) (earlier later : EpollEvent) :
    entryCalls (leave events earlier) later = entryCalls 0 later ↔
      entryCalls events later = entryCalls 0 later ∧ Clear earlier later := by
  rw [entryCalls_eq_iff, entryCalls_eq_iff, clear_iff, leave_split events, or_within_iff,
    or_within_iff]
  grind

/-- How many calls an entry gets does not depend on the flags. -/
theorem entryCalls_length (events : BitVec 32) (ev : EpollEvent) :
    (entryCalls events ev).length = (entryCalls 0 ev).length := by
  unfold entryCalls outCalls inCalls
  split <;> split <;> rfl

/-- The calls for an entry alone carry a flag when its mask asks for it. -/
theorem callsAlone_flags (ev : EpollEvent) :
    ((∃ call ∈ callsAlone ev, hasAny call.2 eventWriteBits) ↔
      hasAny ev.events (epollOut ||| epollHup)) ∧
    ((∃ call ∈ callsAlone ev, hasAny call.2 eventReadBits) ↔
      hasAny ev.events (epollIn ||| epollHup)) := by
  rw [callsAlone_eq]
  unfold entryCalls outCalls inCalls leave outFlags errFlags inFlags
  generalize hasAny ev.events (epollOut ||| epollHup) = out
  generalize hasAny ev.events epollErr = err
  generalize hasAny ev.events (epollIn ||| epollHup) = inp
  cases out <;> cases err <;> cases inp <;> simp <;> decide

/-! ## The whole batch -/

/-- The calls are those of the entries one after another if and only if every entry is clear of all
entries before it. -/
theorem calls_apart_iff {σ : Type} {cb : σ → ConnPtr → BitVec 32 → σ}
    {event : σ → Nat → EpollEvent}
    (untouched : ∀ mem connobj flags, event (cb mem connobj flags) = event mem) (mem : σ)
    (n : Nat) : (epollEventWait cb event mem n).calls =
      (entries event mem n).flatMap callsAlone ↔ (entries event mem n).Pairwise Clear := by
  have apart := (Residue.outputs_apart_iff entryCalls_length entryCalls_leave_iff 0
    (entries event mem n)).trans (and_iff_right fun _ _ => rfl)
  rwa [← calls_outputs untouched, ← callsAlone_eq] at apart

/-- For every callback that leaves `evb->event` as it is and every batch: the callback is called for
each entry as for that entry alone if and only if every entry is clear of all entries before it. -/
theorem dispatch_per_entry_iff {σ : Type} (cb : σ → ConnPtr → BitVec 32 → σ)
    (event : σ → Nat → EpollEvent)
    (untouched : ∀ mem connobj flags, event (cb mem connobj flags) = event mem) (mem : σ)
    (n : Nat) : PerEntry cb event mem n ↔ (entries event mem n).Pairwise Clear := by
  have apart := calls_apart_iff untouched mem n
  exact ⟨fun each => apart.mp each.apart, fun clear => ⟨apart.mpr clear,
    fun ev _ => (callsAlone_flags ev).1, fun ev _ => (callsAlone_flags ev).2⟩⟩

/-- Two readable connections leave nothing the other notices. -/
theorem dispatch_per_entry_readable :
    PerEntry (fun mem _ _ => mem) id (fun i => ⟨epollIn, i + 1⟩) 2 :=
  (dispatch_per_entry_iff (fun mem _ _ => mem) id (fun _ _ _ => rfl) _ 2).mpr (by decide)

/-- After a readable connection the call for a writable one carries `EVENT_READ` too. -/
theorem dispatch_leaks : ¬∀ (σ : Type) (cb : σ → ConnPtr → BitVec 32 → σ)
    (event : σ → Nat → EpollEvent),
    (∀ mem connobj flags, event (cb mem connobj flags) = event mem) →
      ∀ (mem : σ) (n : Nat), PerEntry cb event mem n := by
  intro always
  have each := always (Nat → EpollEvent) (fun mem _ _ => mem) id (fun _ _ _ => rfl)
    (fun i => if i = 0 then ⟨epollIn, 1⟩ else ⟨epollOut, 2⟩) 2
  have clear := (calls_apart_iff (fun _ _ _ => rfl) _ 2).mp each.apart
  exact absurd clear (by decide)

/-! ## The machine's frames -/

/-- The calls from where the reactor is, if it is at a test. -/
def Pc.calls (event : Nat → EpollEvent) (tests : Nat) : Pc → List (ConnPtr × BitVec 32)
  | .test later => Frame.calls event tests later
  | _ => []

/-- The call a frame's test makes, and the calls after it. -/
theorem frame_calls_enter {event : Nat → EpollEvent} {fr entered : Frame} {connobj : ConnPtr}
    (enters : fr.dispatch event = entered.enter connobj) (tests : Nat) :
    Frame.calls event (tests + 1) fr =
      (connobj, entered.events) :: entered.resume.calls event tests := by
  rw [Frame.calls, enters, Frame.enter]
  by_cases listening : connobj = serverConn
  · rw [if_pos listening, listening]
    rfl
  · rw [if_neg listening]
    rfl

/-- The calls after a frame's test that makes none. -/
theorem frame_calls_resume {event : Nat → EpollEvent} {fr passed : Frame}
    (passes : fr.dispatch event = passed.resume) (tests : Nat) :
    Frame.calls event (tests + 1) fr = passed.resume.calls event tests := by
  have ends : (∃ later, passed.resume = .test later) ∨ passed.resume = .blocked := by
    unfold Frame.resume
    split
    · exact .inl ⟨_, rfl⟩
    · split
      · exact .inl ⟨_, rfl⟩
      · exact .inr rfl
  rw [Frame.calls, passes]
  obtain ⟨later, on⟩ | off := ends
  · rw [on]
    rfl
  · rw [off]
    rfl

/-- The first test of an entry in the machine. -/
theorem frame_calls_out (event : Nat → EpollEvent) (tests i n : Nat) (events : BitVec 32) :
    Frame.calls event (tests + 1) ⟨i, n, events, .out⟩ = outCalls events (event i) ++
      Frame.calls event tests ⟨i, n, events ||| outFlags (event i), .inp⟩ := by
  unfold outCalls outFlags
  split
  next asked =>
    have enters : (Frame.mk i n events .out).dispatch event =
        (Frame.mk i n (events ||| eventWriteBits) .out).enter (event i).ptr := by
      simp only [Frame.dispatch, asked, if_true]
    exact frame_calls_enter enters tests
  next asked =>
    have nothing : events ||| (0 : BitVec 32) = events := BitVec.or_zero
    have passes : (Frame.mk i n events .out).dispatch event =
        (Frame.mk i n events .out).resume := by
      simp only [Frame.dispatch, asked, Bool.false_eq_true, if_false]
    rw [nothing]
    exact frame_calls_resume passes tests

/-- After the second test of an entry the machine goes on with the next, if there is one. -/
theorem calls_resume_inp (event : Nat → EpollEvent) (tests i n : Nat) (events : BitVec 32) :
    (Frame.mk i n events .inp).resume.calls event tests =
      if i + 1 < n then Frame.calls event tests ⟨i + 1, n, events, .out⟩ else [] := by
  unfold Frame.resume
  by_cases more : i + 1 < n
  · simp only [more, if_true]
    rfl
  · simp only [more, if_false]
    rfl

/-- The second test of an entry in the machine. -/
theorem frame_calls_inp (event : Nat → EpollEvent) (tests i n : Nat) (events : BitVec 32) :
    Frame.calls event (tests + 1) ⟨i, n, events ||| outFlags (event i), .inp⟩ =
      inCalls events (event i) ++
        if i + 1 < n then Frame.calls event tests ⟨i + 1, n, leave events (event i), .out⟩
        else [] := by
  have flags : (if hasAny (event i).events epollErr then
      events ||| outFlags (event i) ||| eventErrBits else events ||| outFlags (event i)) =
      events ||| outFlags (event i) ||| errFlags (event i) := by
    unfold errFlags
    split
    · rfl
    · exact BitVec.or_zero.symm
  rw [← calls_resume_inp]
  unfold inCalls leave inFlags
  split
  next asked =>
    have enters : (Frame.mk i n (events ||| outFlags (event i)) .inp).dispatch event =
        (Frame.mk i n (events ||| outFlags (event i) ||| errFlags (event i) ||| eventReadBits)
          .inp).enter (event i).ptr := by
      simp only [Frame.dispatch, asked, flags, if_true]
    exact frame_calls_enter enters tests
  next asked =>
    have nothing : events ||| outFlags (event i) ||| errFlags (event i) ||| (0 : BitVec 32) =
        events ||| outFlags (event i) ||| errFlags (event i) := BitVec.or_zero
    have passes : (Frame.mk i n (events ||| outFlags (event i)) .inp).dispatch event =
        (Frame.mk i n (events ||| outFlags (event i) ||| errFlags (event i)) .inp).resume := by
      simp only [Frame.dispatch, asked, flags, Bool.false_eq_true, if_false]
    rw [nothing]
    exact frame_calls_resume passes tests

/-- Both tests of an entry in the machine. -/
theorem frame_calls_entry (event : Nat → EpollEvent) (tests i n : Nat) (events : BitVec 32) :
    Frame.calls event (tests + 2) ⟨i, n, events, .out⟩ = entryCalls events (event i) ++
      if i + 1 < n then Frame.calls event tests ⟨i + 1, n, leave events (event i), .out⟩
      else [] := by
  have first := frame_calls_out event (tests + 1) i n events
  rw [first, frame_calls_inp, ← List.append_assoc]
  rfl

/-- For a callback that leaves the array as it is, the loop makes the calls the machine's frames
make. -/
theorem epollEventWait_frames {σ : Type} {cb : σ → ConnPtr → BitVec 32 → σ}
    {event : σ → Nat → EpollEvent}
    (untouched : ∀ mem connobj flags, event (cb mem connobj flags) = event mem) (mem : σ) {n : Nat}
    (some : 0 < n) : (epollEventWait cb event mem n).calls =
      Frame.calls (event mem) (2 * n) ⟨0, n, 0, .out⟩ := by
  have frames : ∀ left i events, i + (left + 1) = n →
      Frame.calls (event mem) (2 * (left + 1)) ⟨i, n, events, .out⟩ =
        Residue.outputs entryCalls leave events ((List.range' i (left + 1)).map (event mem)) := by
    intro left
    induction left with
    | zero =>
      intro i events last
      have ended : ¬i + 1 < n := by omega
      rw [show 2 * (0 + 1) = 0 + 2 from rfl, frame_calls_entry, if_neg ended]
      rfl
    | succ left ih =>
      intro i events place
      have more : i + 1 < n := by omega
      rw [show 2 * (left + 1 + 1) = 2 * (left + 1) + 2 from rfl, frame_calls_entry, if_pos more,
        ih (i + 1) _ (by omega)]
      rfl
  obtain ⟨left, rfl⟩ := Nat.exists_eq_succ_of_ne_zero some.ne'
  rw [calls_outputs untouched, frames left 0 0 (Nat.zero_add _), ← List.range_eq_range']
  rfl

end EpollNet
