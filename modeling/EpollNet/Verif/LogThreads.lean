import EpollNet.Net.LogSteps
import EpollNet.Verif.Logged

/-!
# Threads that log

The steps of a function that logs, with nothing in between, are the function. Since they are taken
under the lock, any number of threads log as if one after the other, whatever the order of their
steps, and every one of them returns.
-/

namespace EpollNet

open EpollNet.Basis

variable {localtime : Int → Tm} {call : LogCall} {s : Logging} {own : LogvOwn} {ret : Int}

/-! ## Steps one after the other -/

/-- A step before `logv` has returned. -/
theorem unlessReturned_none {act : Logging → LogvOwn → Except LogFault (Logging × LogvOwn)}
    (going : own.ret = none) : unlessReturned act (s, own) = act s own := by
  unfold unlessReturned
  rw [going]

/-- Steps after it has returned. -/
theorem through_returned {stages : List LogStage} (returned : own.ret = some ret)
    (all : ∀ stage ∈ stages, ∃ act, stage = unlessReturned act) :
    through stages (s, own) = .ok (s, own) := by
  induction stages with
  | nil => rfl
  | cons stage stages ih =>
    obtain ⟨act, rfl⟩ := all _ List.mem_cons_self
    have nothing : unlessReturned act (s, own) = .ok (s, own) := by
      unfold unlessReturned
      rw [returned]
    rw [through_cons, nothing, ok_bind]
    exact ih fun other member => all other (List.mem_cons_of_mem _ member)

/-- The steps behind the line are not taken once it has returned. -/
theorem guarded_write (call : LogCall) :
    ∀ stage ∈ writeStages call, ∃ act, stage = unlessReturned act := by
  simp only [writeStages, List.forall_mem_cons, List.not_mem_nil, false_imp_iff, implies_true,
    and_true]
  exact ⟨⟨_, rfl⟩, ⟨_, rfl⟩, ⟨_, rfl⟩, ⟨_, rfl⟩⟩

/-- The statements of a rotation end as the function does. -/
theorem guarded_rotate (localtime : Int → Tm) (call : LogCall) :
    ∀ stage ∈ rotateStages localtime call, ∃ act, stage = unlessReturned act := by
  simp only [rotateStages, List.forall_mem_cons, List.not_mem_nil, false_imp_iff, implies_true,
    and_true]
  exact ⟨⟨_, rfl⟩, ⟨_, rfl⟩, ⟨_, rfl⟩, ⟨_, rfl⟩, ⟨_, rfl⟩, ⟨_, rfl⟩, ⟨_, rfl⟩, ⟨_, rfl⟩⟩

/-- A step that ends, and those behind it. -/
theorem through_ok {stage : LogStage} {stages : List LogStage} {here there : Logging × LogvOwn}
    (ended : stage here = .ok there) : through (stage :: stages) here = through stages there := by
  rw [through_cons, ended, ok_bind]

/-- A step that fails. -/
theorem through_error {stage : LogStage} {stages : List LogStage} {here : Logging × LogvOwn}
    {fault : LogFault} (wrong : stage here = .error fault) :
    through (stage :: stages) here = .error fault := by
  rw [through_cons, wrong, error_bind]

/-! ## The line -/

/-- What steps that put a line together end with, when this is made of it. -/
def LineMade (s : Logging) (made : Except LogFault (Option (Memory × Int)))
    (ended : Except LogFault (Logging × LogvOwn)) : Prop :=
  match made with
  | .error fault => ended = .error fault
  | .ok none => ∃ own, ended = .ok (s, own) ∧ own.ret = some (-1)
  | .ok (some line) =>
    ∃ own, ended = .ok (s, own) ∧ own.ret = none ∧ own.buf = line.1 ∧ own.len = line.2

/-- The end of the line. -/
theorem end_made (own : LogvOwn) (going : own.ret = none) :
    LineMade s (logvEnd own.buf own.ptr own.space own.len) (through [endStage] (s, own)) := by
  have step : endStage (s, own) = _ := unlessReturned_none going
  cases ended : logvEnd own.buf own.ptr own.space own.len with
  | error fault =>
    apply through_error
    rw [step, ended]
    rfl
  | ok line =>
    cases line with
    | none =>
      refine ⟨{ own with ret := some (-1) }, ?_, rfl⟩
      rw [through_cons, step, ended]
      rfl
    | some line =>
      refine ⟨{ own with buf := line.1, ptr := line.2, len := line.2 }, ?_, going, rfl, rfl⟩
      rw [through_cons, step, ended]
      rfl

/-- The text and the end of the line. -/
theorem text_made (own : LogvOwn) (going : own.ret = none) {filled : Except LogFault (Int × Memory)}
    (step : textStage call (s, own) =
      filled >>= fun text => .ok (s, { own with buf := text.2, len := text.1 })) :
    LineMade s (filled >>= fun text => logvEnd text.2 own.ptr own.space text.1)
      (through [textStage call, endStage] (s, own)) := by
  cases filled with
  | error fault => exact through_error step
  | ok text =>
    rw [ok_bind] at step
    rw [through_ok step, ok_bind]
    exact end_made { own with buf := text.2, len := text.1 } going

/-- The line from the name of the level on. -/
theorem rest_made (own : LogvOwn) (going : own.ret = none) (call : LogCall) :
    LineMade s (logvRest call.behind s.logger.level own.buf own.ptr call.msg)
      (through [nameStage call, textStage call, endStage] (s, own)) := by
  have name : nameStage call (s, own) = _ := unlessReturned_none going
  unfold logvRest
  cases named : storeAt own.buf own.ptr (levelBytes call.behind s.logger.level) with
  | error fault =>
    apply through_error
    rw [name, named]
    rfl
  | ok buf =>
    rw [named, ok_bind] at name
    let behind : LogvOwn := { own with
      buf := buf
      ptr := own.ptr + levelNameLen
      space := (logBufLen - (own.ptr + levelNameLen) - 10).bmod (2 ^ 32) }
    have text : textStage call (s, behind) = _ := unlessReturned_none going
    rw [through_ok name, ok_bind]
    dsimp only
    by_cases hex : s.logger.level = levelHex
    · rw [if_pos hex] at text ⊢
      exact text_made behind going text
    · rw [if_neg hex] at text ⊢
      exact text_made behind going text

/-- The line from the first test of the level on. -/
theorem head_made (own : LogvOwn) (going : own.ret = none) (call : LogCall) :
    LineMade s
      (if s.logger.level = levelHex then
        vsnprintf own.buf own.ptr 1024 call.msg.text >>= fun text =>
          logvRest call.behind s.logger.level text.2 (own.ptr + text.1) call.msg
      else logvRest call.behind s.logger.level own.buf own.ptr call.msg)
      (through [headStage call, nameStage call, textStage call, endStage] (s, own)) := by
  have head : headStage call (s, own) = _ := unlessReturned_none going
  by_cases hex : s.logger.level = levelHex
  · rw [if_pos hex] at head ⊢
    cases headed : vsnprintf own.buf own.ptr 1024 call.msg.text with
    | error fault =>
      apply through_error
      rw [head, headed]
      rfl
    | ok text =>
      rw [headed, ok_bind] at head
      rw [through_ok head, ok_bind]
      exact rest_made { own with buf := text.2, ptr := own.ptr + text.1 } going call
  · rw [if_neg hex] at head ⊢
    rw [through_ok head]
    exact rest_made own going call

/-- The whole line. -/
theorem line_made (blank : own.buf = fun _ => 0) (going : own.ret = none) :
    LineMade s (logvLine call.behind s.logger.level
      (timestamp (localtime call.tv_sec) call.tv_usec) call.msg)
      (through (lineStages localtime call) (s, own)) := by
  have first : stampStage localtime call (s, own) = _ := unlessReturned_none going
  unfold logvLine lineStages
  rw [blank] at first
  dsimp only at first
  generalize timestamp (localtime call.tv_sec) call.tv_usec = stamp at first ⊢
  cases stamped : storeAt (fun _ => 0) 0 (stamp ++ [0]) with
  | error fault =>
    apply through_error
    rw [first, stamped]
    rfl
  | ok buf =>
    rw [stamped, ok_bind] at first
    rw [through_ok first, ok_bind]
    exact head_made { own with buf := buf, ptr := stamp.length } going call

/-- Bytes are stored at no negative offset. -/
theorem storeAt_nonneg {area area' : Memory} {pos : Int} {bytes : List UInt8} (some' : bytes ≠ [])
    (stored : storeAt area pos bytes = .ok area') : 0 ≤ pos := by
  unfold storeAt at stored
  split at stored
  · rename_i inside
    exact (inside.resolve_left some').1
  · cases stored

/-- A line that is made has a length. -/
theorem logvEnd_length {buf buf' : Memory} {ptr space len ptr' : Int}
    (ended : logvEnd buf ptr space len = .ok (some (buf', ptr'))) : 0 ≤ ptr' := by
  unfold logvEnd at ended
  split at ended
  · cases ended
  · obtain ⟨_, _, ended⟩ := bind_ends ended
    obtain ⟨last, stored, ended⟩ := bind_ends ended
    obtain ⟨_, rfl⟩ := Prod.mk.inj (Option.some.inj (Except.ok.inj ended))
    exact storeAt_nonneg (List.cons_ne_nil _ _) stored

/-- The rest of a line ends within its buffer. -/
theorem logvRest_length {behind buf buf' : Memory} {level ptr ptr' : Int} {msg : LogMessage}
    (ended : logvRest behind level buf ptr msg = .ok (some (buf', ptr'))) : 0 ≤ ptr' := by
  unfold logvRest at ended
  obtain ⟨_, _, ended⟩ := bind_ends ended
  dsimp only at ended
  by_cases hex : level = levelHex
  · rw [if_pos hex] at ended
    obtain ⟨_, _, ended⟩ := bind_ends ended
    exact logvEnd_length ended
  · rw [if_neg hex] at ended
    obtain ⟨_, _, ended⟩ := bind_ends ended
    exact logvEnd_length ended

/-- A whole line has at most 4095 bytes. -/
theorem logvLine_length {behind buf : Memory} {level len : Int} {stamp : List UInt8}
    {msg : LogMessage} (ended : logvLine behind level stamp msg = .ok (some (buf, len))) :
    0 ≤ len := by
  unfold logvLine at ended
  obtain ⟨_, _, ended⟩ := bind_ends ended
  dsimp only at ended
  by_cases hex : level = levelHex
  · rw [if_pos hex] at ended
    obtain ⟨_, _, ended⟩ := bind_ends ended
    exact logvRest_length ended
  · rw [if_neg hex] at ended
    exact logvRest_length ended

/-! ## The file -/

/-- Nothing is written without a stream. -/
theorem write_none (going : own.ret = none) (closed : s.logger.fp = none)
    (stages : List LogStage) :
    through (writeStages call ++ stages) (s, own) = .error .nullStream := by
  have first : fwriteStage call (s, own) = _ := unlessReturned_none going
  apply through_error
  rw [first, closed]

/-- What is written and counted. -/
theorem write_some (going : own.ret = none) (nonneg : 0 ≤ own.len) {stream : FileStream}
    (live : s.logger.fp = some stream) {line : Line}
    (made : readAt own.buf 0 own.len.toNat = line) :
    through (writeStages call) (s, own) =
      .ok (s.fwrite ⟨call.toLogAnswers, line⟩ stream,
        if Fills s.logger.rotatesize s.logger.wcurr line then own
        else { own with ret := some 0 }) := by
  have first : fwriteStage call (s, own) = _ := unlessReturned_none going
  have long : own.len = line.length := by
    rw [← made, readAt_length]
    omega
  rw [live] at first
  dsimp only at first
  rw [made] at first
  have counted := fun s : Logging =>
    show wcurrStage (s, own) = _ from unlessReturned_none going
  have totalled := fun s : Logging =>
    show wtotalStage (s, own) = _ from unlessReturned_none going
  have tested := fun s : Logging =>
    show fullStage (s, own) = _ from unlessReturned_none going
  unfold writeStages
  rw [through_ok first, through_ok (counted _), through_ok (totalled _), through_cons, tested, long]
  by_cases fills : Fills s.logger.rotatesize s.logger.wcurr line
  · rw [if_pos fills]
    exact congrArg (· >>= _) (if_pos fills)
  · rw [if_neg fills]
    exact congrArg (· >>= _) (if_neg fills)

/-! ## Rotation -/

/-- The steps of `rotate` are `rotate`. -/
theorem rotate_made (going : own.ret = none) :
    (∀ fault, s.rotate localtime call.toLogAnswers = .error fault →
      through (rotateStages localtime call) (s, own) = .error fault) ∧
    ∀ s', s.rotate localtime call.toLogAnswers = .ok s' →
      ∃ own', through (rotateStages localtime call) (s, own) = .ok (s', own') ∧
        own'.ret = some 0 := by
  have later : ∀ stage ∈ [saveStage, fopenStage call, wcurrZeroStage, wtotalZeroStage, fcloseStage],
      ∃ act, stage = unlessReturned act := fun stage member =>
    guarded_rotate localtime call stage (List.mem_append_right [_, _, _] member)
  let dropped : Logging := { s with logger := { s.logger with fp := none } }
  have drop : dropStage (s, own) = .ok (dropped, own) := unlessReturned_none going
  let newpath := rotatedName s.logger.name (localtime call.now)
  have path : pathStage localtime call (dropped, own) =
      if pathMax ≤ newpath.length then .error .overrun
      else .ok (dropped, { own with newpath := newpath }) := unlessReturned_none going
  unfold rotateStages Logging.rotate
  rw [through_ok drop]
  dsimp only
  by_cases long : pathMax ≤ newpath.length
  · rw [if_pos long] at path ⊢
    rw [through_error path]
    exact ⟨fun fault same => congrArg Except.error (Except.error.inj same), nofun⟩
  rw [if_neg long] at path ⊢
  rw [through_ok path]
  have rename : renameStage call (dropped, { own with newpath := newpath }) = _ :=
    unlessReturned_none going
  by_cases refused : call.renamed = false
  · rw [if_pos refused] at rename ⊢
    rw [through_ok rename, through_returned rfl later]
    exact ⟨nofun, fun s' same => ⟨_, congrArg _ (congrArg (·, _) (Except.ok.inj same)), rfl⟩⟩
  rw [if_neg refused] at rename ⊢
  let renamed : Logging := { dropped with
    files := s.files.rename s.logger.name newpath
    rotated := s.rotated ++ [newpath] }
  let saved : LogvOwn := { own with newpath := newpath, tmp_fp := none }
  have save : saveStage (renamed, { own with newpath := newpath }) = .ok (renamed, saved) :=
    unlessReturned_none going
  have fopen : fopenStage call (renamed, saved) = _ := unlessReturned_none going
  rw [through_ok rename, through_ok save]
  by_cases denied : call.opened = false
  · rw [if_pos denied] at fopen ⊢
    rw [through_ok fopen, through_returned rfl fun stage member => later stage
      (List.mem_append_right [_, _] member)]
    exact ⟨nofun, fun s' same => ⟨_, congrArg _ (congrArg (·, _) (Except.ok.inj same)), rfl⟩⟩
  rw [if_neg denied] at fopen ⊢
  let reopened : Logging := { renamed with
    logger := { s.logger with
      fp := some (.file (renamed.files.append s.logger.name).1), wcurr := 0, wtotal := 0 }
    files := (renamed.files.append s.logger.name).2
    opened := (renamed.files.append s.logger.name).1 :: s.opened }
  have current := fun s : Logging =>
    show wcurrZeroStage (s, saved) = _ from unlessReturned_none going
  have total := fun s : Logging =>
    show wtotalZeroStage (s, saved) = _ from unlessReturned_none going
  have close : fcloseStage (reopened, saved) = .ok (reopened, { saved with ret := some 0 }) :=
    unlessReturned_none going
  have zeroed : through [wcurrZeroStage, wtotalZeroStage, fcloseStage]
      ({ reopened with logger := { s.logger with fp := reopened.logger.fp } }, saved) =
        .ok (reopened, { saved with ret := some 0 }) := by
    rw [through_ok (current _), through_ok (total _), through_ok close]
    rfl
  rw [through_ok fopen]
  refine ⟨nofun, fun s' same => ⟨{ saved with ret := some 0 }, ?_, rfl⟩⟩
  obtain rfl := Except.ok.inj same
  exact zeroed

/-! ## The function -/

/-- What a function that logs returns and leaves. -/
def returnedOf (here : Logging × LogvOwn) : Int × Logging := (here.2.ret.getD 0, here.1)

/-- The steps behind the line write it. -/
theorem written_made (going : own.ret = none) (nonneg : 0 ≤ own.len) {line : Line}
    (made : readAt own.buf 0 own.len.toNat = line) :
    (through (writeStages call ++ rotateStages localtime call) (s, own)).map returnedOf =
      s.logvWrite localtime ⟨call.toLogAnswers, line⟩ := by
  cases live : s.logger.fp with
  | none =>
    rw [write_none going live, logvWrite_none live]
    rfl
  | some stream =>
    rw [through_append, write_some going nonneg live made, ok_bind]
    by_cases fills : Fills s.logger.rotatesize s.logger.wcurr line
    · rw [if_pos fills, logvWrite_fills live fills]
      cases rotated : (s.fwrite ⟨call.toLogAnswers, line⟩ stream).rotate localtime
          call.toLogAnswers with
      | error fault =>
        rw [(rotate_made going).1 _ rotated]
        rfl
      | ok s' =>
        obtain ⟨own', ended, returned⟩ := (rotate_made going).2 _ rotated
        rw [ended]
        show Except.ok (own'.ret.getD 0, s') = _
        rw [returned]
        rfl
    · rw [if_neg fills, logvWrite_quiet live fills,
        through_returned rfl (guarded_rotate localtime call)]
      rfl

/-- The steps of a function that logs, with nothing in between, are the function. -/
theorem logSection_whole (localtime : Int → Tm) (request : Int × LogCall) (s : Logging) :
    (logSection localtime).whole request s = logRequest localtime request s := by
  obtain ⟨level, call⟩ := request
  let own : LogvOwn := ⟨fun _ => 0, 0, 0, 0, [], none, none⟩
  have whole : (logSection localtime).whole (level, call) s =
      (through (lineStages localtime call) (s.setlevel level, own) >>=
        through (writeStages call ++ rotateStages localtime call)).map returnedOf := by
    unfold Section.whole
    show through (levelStage level :: (_ ++ _)) (s, own) >>= _ = _
    have set : levelStage level (s, own) = .ok (s.setlevel level, own) := rfl
    rw [through_ok set, through_append]
    cases through (lineStages localtime call) (s.setlevel level, own) >>=
      through (writeStages call ++ rotateStages localtime call) <;> rfl
  have line := @line_made localtime call (s.setlevel level) own rfl rfl
  rw [whole]
  show _ = (s.setlevel level).logv localtime call
  unfold Logging.logv
  cases made : logvLine call.behind (s.setlevel level).logger.level
      (timestamp (localtime call.tv_sec) call.tv_usec) call.msg with
  | error fault =>
    rw [made] at line
    rw [show through (lineStages localtime call) _ = .error fault from line]
    rfl
  | ok result =>
    rw [made] at line
    cases result with
    | none =>
      obtain ⟨own', ended, returned⟩ := line
      have guarded : ∀ stage ∈ writeStages call ++ rotateStages localtime call,
          ∃ act, stage = unlessReturned act := fun stage member =>
        (List.mem_append.mp member).elim (guarded_write call stage)
          (guarded_rotate localtime call stage)
      rw [ended, ok_bind, through_returned returned guarded]
      show Except.ok (own'.ret.getD 0, _) = _
      rw [returned]
      rfl
    | some line' =>
      obtain ⟨own', ended, going, buf, len⟩ := line
      rw [ended, ok_bind]
      refine written_made going ?_ ?_
      · rw [len]
        exact logvLine_length made
      · rw [buf, len]

/-! ## Threads -/

/-- In every run of any number of threads that log, whatever their clocks and their files answer,
what they wrote, counted, rotated and returned is what the same messages logged in a row do, in the
order in which they took the lock, which is each thread's own order. They take no more steps than
`toDo` says before every one of them has returned, unless a step was undefined. -/
theorem log_calls_serialize {n : Nat} {first : Logging} {s : LogThreads}
    (reached : Reach (Sections.step (logSection localtime)) (fun _ _ => True)
      (fun s => s = .create first n) s) :
    AsInARow (logRequest localtime) first s ∧
      (∀ labels t, Path (Sections.step (logSection localtime)) Working s labels t →
        labels.length ≤ s.toDo (logSection localtime)) ∧
      ∀ labels t, Path (Sections.step (logSection localtime)) Working s labels t →
        Resting (Sections.step (logSection localtime)) Working t →
          t.failed ≠ none ∨ AllReturned t :=
  calls_serialize (logSection_whole localtime) reached

/-- A text, with a clock that stands still and a file that takes it. -/
def plainCall (text : String) : LogCall :=
  ⟨⟨true, 0, true, true⟩, ⟨ascii text, none, 0⟩, 0, 0, fun _ => 0⟩

/-- Two threads log. The second takes the lock first, and the first waits for it. -/
theorem log_calls_serialize_two : ∃ s : LogThreads,
    AsInARow (logRequest fun _ => ⟨115, 11, 11, 0, 0, 0⟩) fileLogging s ∧
      s.made.map Prod.fst = [0, 1] ∧ s.entered.map Prod.fst = [1, 0] ∧
      (s.shared.files.lines 0).map List.length = [37, 35] := by
  have begun : ((run (Sections.step (logSection fun _ => ⟨115, 11, 11, 0, 0, 0⟩))
      (Sections.create fileLogging 2)
      ([.call 0 (levelInfo, plainCall "up"), .call 1 (levelError, plainCall "down")] ++
        List.replicate 20 (.thread 1) ++ List.replicate 20 (.thread 0))).map fun s =>
          decide (s.made.map Prod.fst = [0, 1] ∧ s.entered.map Prod.fst = [1, 0] ∧
            (s.shared.files.lines 0).map List.length = [37, 35])) = some true := by
    decide +kernel
  obtain ⟨s, ran, passed⟩ := Option.map_eq_some_iff.mp begun
  obtain ⟨made, entered, written⟩ := of_decide_eq_true passed
  have start : Reach (Sections.step (logSection fun _ => ⟨115, 11, 11, 0, 0, 0⟩)) (fun _ _ => True)
      (fun s => s = .create fileLogging 2) (.create fileLogging 2) := .refl rfl
  have reached := start.of_run (fun _ _ _ => trivial) ran
  exact ⟨s, (log_calls_serialize reached).1, made, entered, written⟩

end EpollNet
