import EpollNet.Verif.LogLine
import EpollNet.Verif.Rotated

/-!
# From messages to lines

Functions that log do what is done with the lines their messages make, up to the level that the last
of them set. So what holds of lines that are written holds of messages that are logged.
-/

namespace EpollNet

open EpollNet.Basis

/-! ## Messages and their lines -/

/-- The line that a message makes at a level, unless it makes none. -/
def LogCall.entry (localtime : Int → Tm) (level : Int) (call : LogCall) :
    Except LogFault (Option LogEntry) := do
  let line ← logvLine call.behind level (timestamp (localtime call.tv_sec) call.tv_usec) call.msg
  .ok (line.map fun line => ⟨call.toLogAnswers, readAt line.1 0 line.2.toNat⟩)

/-- The lines of the calls. -/
def linesOf (localtime : Int → Tm) (requests : List (Int × LogCall)) : List LogEntry :=
  requests.filterMap fun request =>
    match request.2.entry localtime request.1 with
    | .ok entry => entry
    | .error _ => none

/-- Every message is put together. -/
def Assembled (localtime : Int → Tm) (requests : List (Int × LogCall)) : Prop :=
  ∀ request ∈ requests, ∃ entry, request.2.entry localtime request.1 = .ok entry

/-- Texts are, with a time that is as long as it should be. -/
theorem assembled_text {localtime : Int → Tm} {requests : List (Int × LogCall)}
    (texts : ∀ request ∈ requests, request.1 ≠ levelHex)
    (stamped : ∀ request ∈ requests,
      (timestamp (localtime request.2.tv_sec) request.2.tv_usec).length = 24) :
    Assembled localtime requests := by
  intro request member
  unfold LogCall.entry
  rcases logvLine_text request.2.behind (stamped request member) (texts request member)
    request.2.msg with ⟨_, returned⟩ | ⟨_, buf, ended⟩
  · rw [returned]
    exact ⟨_, rfl⟩
  · rw [ended]
    exact ⟨_, rfl⟩

/-- A call at the level it comes with. -/
def logRequest (localtime : Int → Tm) (request : Int × LogCall) (s : Logging) :
    Except LogFault (Int × Logging) :=
  s.logAt localtime request.1 request.2

variable {localtime : Int → Tm} {level : Int} {call : LogCall} {entry : LogEntry} {s : Logging}
  {entries : List LogEntry} {requests : List (Int × LogCall)}

/-- A message that makes no line sets the level. -/
theorem logAt_none (made : call.entry localtime level = .ok none) :
    s.logAt localtime level call = .ok (-1, s.setlevel level) := by
  obtain ⟨line, assembled, same⟩ := bind_ends made
  have none' : line = none := Option.map_eq_none_iff.mp (Except.ok.inj same)
  show (logvLine call.behind level _ _ >>= _) = _
  rw [assembled, none']
  rfl

/-- One that makes a line sets it, and the line is written. -/
theorem logAt_some (made : call.entry localtime level = .ok (some entry)) :
    s.logAt localtime level call = (s.setlevel level).logvWrite localtime entry := by
  obtain ⟨line, assembled, same⟩ := bind_ends made
  obtain ⟨⟨buf, len⟩, rfl, rfl⟩ := Option.map_eq_some_iff.mp (Except.ok.inj same)
  show (logvLine call.behind level _ _ >>= _) = _
  rw [assembled]
  rfl

/-! ## Levels -/

/-- A rotation keeps the level, and does not depend on it. -/
theorem rotate_setlevel (s : Logging) (level : Int) (answers : LogAnswers) :
    (s.setlevel level).rotate localtime answers =
      (s.rotate localtime answers).map (Logging.setlevel level) := by
  unfold Logging.rotate
  dsimp only
  rw [apply_ite (Except.map _), apply_ite (Except.map _), apply_ite (Except.map _)]
  rfl

/-- Nor does a line. -/
theorem logvWrite_setlevel (s : Logging) (level : Int) (entry : LogEntry) :
    (s.setlevel level).logvWrite localtime entry =
      (s.logvWrite localtime entry).map (Prod.map id (Logging.setlevel level)) := by
  cases stream : s.logger.fp with
  | none =>
    have stream' : (s.setlevel level).logger.fp = none := stream
    rw [logvWrite_none stream, logvWrite_none stream']
    rfl
  | some stream' =>
    have stream'' : (s.setlevel level).logger.fp = some stream' := stream
    by_cases fills : Fills s.logger.rotatesize s.logger.wcurr entry.line
    · have fills' : Fills (s.setlevel level).logger.rotatesize (s.setlevel level).logger.wcurr
          entry.line := fills
      have written : (s.setlevel level).fwrite entry stream' =
          (s.fwrite entry stream').setlevel level := rfl
      rw [logvWrite_fills stream fills, logvWrite_fills stream'' fills', written, rotate_setlevel]
      cases (s.fwrite entry stream').rotate localtime entry.toLogAnswers with
      | error fault => rfl
      | ok s' => rfl
    · have quiet : ¬Fills (s.setlevel level).logger.rotatesize (s.setlevel level).logger.wcurr
          entry.line := fills
      rw [logvWrite_quiet stream fills, logvWrite_quiet stream'' quiet]
      rfl

/-- Nor do several. -/
theorem calls_setlevel (s : Logging) (level : Int) (entries : List LogEntry) :
    calls (Logging.logvWrite localtime) entries (s.setlevel level) =
      (calls (Logging.logvWrite localtime) entries s).map
        (Prod.map id (Logging.setlevel level)) := by
  induction entries generalizing s with
  | nil => rfl
  | cons entry entries ih =>
    rw [calls, calls, logvWrite_setlevel]
    cases s.logvWrite localtime entry with
    | error fault => rfl
    | ok r =>
      obtain ⟨result, s'⟩ := r
      show (calls _ entries (s'.setlevel level) >>= _) = (calls _ entries s' >>= _).map _
      rw [ih]
      cases calls (Logging.logvWrite localtime) entries s' with
      | error fault => rfl
      | ok r => rfl

/-- A logger survives its lines at any level. -/
theorem survives_setlevel (s : Logging) (level : Int) (entries : List LogEntry) :
    Survives localtime entries (s.setlevel level) ↔ Survives localtime entries s := by
  refine and_congr Iff.rfl ?_
  induction entries generalizing s with
  | nil => exact Iff.rfl
  | cons entry entries ih =>
    unfold Throughout
    rw [logvWrite_setlevel]
    cases s.logvWrite localtime entry with
    | error fault =>
      constructor
      · rintro ⟨_, _, impossible, _⟩
        cases impossible
      · rintro ⟨_, _, impossible, _⟩
        cases impossible
    | ok r =>
      obtain ⟨result, s'⟩ := r
      constructor
      · rintro ⟨_, _, same, few, later⟩
        obtain ⟨rfl, rfl⟩ := Prod.mk.inj (Except.ok.inj same)
        exact ⟨_, _, rfl, few, (ih s').mp later⟩
      · rintro ⟨_, _, same, few, later⟩
        obtain ⟨rfl, rfl⟩ := Prod.mk.inj (Except.ok.inj same)
        exact ⟨_, _, rfl, few, (ih s').mpr later⟩

/-! ## Runs -/

variable {request : Int × LogCall}

/-- The first of some messages and the others are put together. -/
theorem Assembled.cons (assembled : Assembled localtime (request :: requests)) :
    (∃ entry, request.2.entry localtime request.1 = .ok entry) ∧ Assembled localtime requests :=
  List.forall_mem_cons.mp assembled

/-- The lines of a message and of others. -/
theorem linesOf_cons {made : Option LogEntry}
    (here : request.2.entry localtime request.1 = .ok made) :
    linesOf localtime (request :: requests) = made.toList ++ linesOf localtime requests := by
  unfold linesOf
  rw [List.filterMap_cons, here]
  cases made with
  | none => rfl
  | some entry => rfl

/-- A logger survives messages exactly as it does their lines. -/
theorem logged_survives_iff (assembled : Assembled localtime requests) (s : Logging) :
    (s.opened.length ≤ 1 ∧
      Throughout (logRequest localtime) (fun _ _ _ s' => s'.opened.length ≤ 1) requests s) ↔
        Survives localtime (linesOf localtime requests) s := by
  induction requests generalizing s with
  | nil => exact Iff.rfl
  | cons request requests ih =>
    obtain ⟨⟨made, here⟩, later⟩ := assembled.cons
    rw [linesOf_cons here]
    unfold Throughout logRequest
    cases made with
    | none =>
      rw [logAt_none here, Option.toList_none, List.nil_append,
        ← survives_setlevel s request.1, ← ih later]
      constructor
      · rintro ⟨few, _, _, same, _, onward⟩
        obtain ⟨_, rfl⟩ := Prod.mk.inj (Except.ok.inj same)
        exact ⟨few, onward⟩
      · rintro ⟨few, onward⟩
        exact ⟨few, _, _, rfl, few, onward⟩
    | some entry =>
      rw [logAt_some here, Option.toList_some, List.singleton_append,
        ← survives_setlevel s request.1]
      refine and_congr Iff.rfl ?_
      constructor
      · rintro ⟨result, s', called, few, onward⟩
        exact ⟨result, s', called, few, ((ih later s').mp ⟨few, onward⟩).2⟩
      · rintro ⟨result, s', called, few, onward⟩
        exact ⟨result, s', called, few, ((ih later s').mpr ⟨few, onward⟩).2⟩

/-- What calls return does not matter for what they leave. -/
theorem map_returned {β : Type} (leave : Logging → β) (result : Int)
    (called : Except LogFault (List Int × Logging)) :
    (called >>= fun r => Except.ok (result :: r.1, r.2)).map (fun r => leave r.2) =
      called.map fun r => leave r.2 := by
  cases called with
  | error fault => rfl
  | ok r => rfl

/-- Messages leave what their lines leave, but for the level. -/
theorem logged_calls (assembled : Assembled localtime requests) (s : Logging) :
    (calls (logRequest localtime) requests s).map (fun r => r.2.setlevel levelNone) =
      (calls (Logging.logvWrite localtime) (linesOf localtime requests) s).map
        (fun r => r.2.setlevel levelNone) := by
  induction requests generalizing s with
  | nil => rfl
  | cons request requests ih =>
    obtain ⟨⟨made, here⟩, later⟩ := assembled.cons
    have rest : ∀ s : Logging,
        (calls (logRequest localtime) requests (s.setlevel request.1)).map
            (fun r => r.2.setlevel levelNone) =
          (calls (Logging.logvWrite localtime) (linesOf localtime requests) s).map
            (fun r => r.2.setlevel levelNone) := by
      intro s
      rw [ih later, calls_setlevel]
      cases calls (Logging.logvWrite localtime) (linesOf localtime requests) s with
      | error fault => rfl
      | ok r => rfl
    rw [linesOf_cons here, calls]
    unfold logRequest
    cases made with
    | none =>
      rw [logAt_none here, ok_bind, Option.toList_none, List.nil_append]
      exact (map_returned _ _ _).trans (rest s)
    | some entry =>
      rw [logAt_some here, Option.toList_some, List.singleton_append, logvWrite_setlevel, calls]
      cases s.logvWrite localtime entry with
      | error fault => rfl
      | ok r => exact ((map_returned _ _ _).trans (rest r.2)).trans (map_returned _ _ _).symm

/-- Calls that end with some lines found. -/
theorem found_iff {called : Except LogFault (List Int × Logging)} {lines : Multiset Line} :
    (∃ results s', called = .ok (results, s') ∧ s'.found = lines) ↔
      (called.map fun r => r.2.setlevel levelNone).map Logging.found = .ok lines := by
  constructor
  · rintro ⟨results, s', rfl, found⟩
    exact congrArg Except.ok found
  · intro found
    cases called with
    | error fault => cases found
    | ok r => exact ⟨r.1, r.2, rfl, Except.ok.inj found⟩

/-- The lines found after messages are those found after their lines. -/
theorem logged_preserved_iff (assembled : Assembled localtime requests) (s : Logging) :
    (∃ results s', calls (logRequest localtime) requests s = .ok (results, s') ∧
      s'.found = (s.files.contents s.logger.name ++
        (linesOf localtime requests).map LogEntry.line : List Line)) ↔
      Preserved localtime (linesOf localtime requests) s := by
  unfold Preserved
  rw [found_iff, found_iff, logged_calls assembled]

end EpollNet
