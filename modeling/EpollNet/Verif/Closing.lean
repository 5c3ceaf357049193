import EpollNet.Verif.Logged

/-!
# The life of a logger

A rotation takes the stream out of the logger before it saves it, so it closes nothing. Over the
whole life of a logger one stream is left open for each rotation that opened the file anew, and a
last rotation that did not leaves nothing for `Logger_Destory` to close.
-/

namespace EpollNet

open EpollNet.Basis

variable {localtime : Int → Tm} {entry : LogEntry} {entries : List LogEntry} {s s' : Logging}
  {rotatesize wcurr : Nat}

/-! ## What the streams of a logger are -/

/-- The stream of a logger is one that it opened, or it opened none. -/
structure StreamKept (s : Logging) : Prop where
  /-- A file that it writes to was opened. -/
  file : ∀ f, s.logger.fp = some (.file f) → f ∈ s.opened
  /-- While it writes to a standard stream none was. -/
  standard : ∀ stream, s.logger.fp = some stream → (∀ f, stream ≠ .file f) → s.opened = []

/-- Closing the stream leaves the others. -/
theorem StreamKept.destory (kept : StreamKept s) {stream : FileStream}
    (live : s.logger.fp = some stream) :
    ∃ s', s.loggerDestory = .ok s' ∧ s'.opened.length = s.opened.length - 1 := by
  unfold Logging.loggerDestory Logging.logclose
  rw [live]
  cases stream with
  | stdout =>
    have none' := kept.standard _ live nofun
    exact ⟨s, rfl, by rw [none']; rfl⟩
  | stderr =>
    have none' := kept.standard _ live nofun
    refine ⟨s, rfl, ?_⟩
    rw [none']
    rfl
  | file f =>
    refine ⟨_, rfl, ?_⟩
    show (s.opened.erase f).length = _
    exact List.length_erase_of_mem (kept.file f live)

/-! ## One call -/

/-- What a line that is written, and does not fill the file, leaves. -/
theorem quiet_kept (kept : StreamKept s) (entry : LogEntry) (stream : FileStream) :
    StreamKept (s.fwrite entry stream) := ⟨kept.file, kept.standard⟩

/-- What a call that ends leaves: the file is rotated just when the line fills it, and just when it
is opened anew there is one stream more. -/
theorem logvWrite_ended {result : Int}
    (ended : s.logvWrite localtime entry = .ok (result, s')) (kept : StreamKept s) :
    StreamKept s' ∧ s'.logger.rotatesize = s.logger.rotatesize ∧
      (if Fills s.logger.rotatesize s.logger.wcurr entry.line then
        s'.opened.length = s.opened.length + entry.reopens.toNat ∧
          s'.logger.fp.isSome = entry.reopens ∧ (entry.reopens = true → s'.logger.wcurr = 0)
      else s'.opened = s.opened ∧ s'.logger.fp.isSome = true ∧
        s'.logger.wcurr = asUllong (s.logger.wcurr + entry.line.length)) := by
  cases live : s.logger.fp with
  | none =>
    rw [logvWrite_none live] at ended
    cases ended
  | some stream =>
    by_cases fills : Fills s.logger.rotatesize s.logger.wcurr entry.line
    · rw [logvWrite_fills live fills] at ended
      rw [if_pos fills]
      by_cases fits : (entry.target localtime (s.fwrite entry stream).logger.name).length < pathMax
      · cases reopens : entry.reopens with
        | false =>
          obtain ⟨s'', rotated, logger, opened⟩ := rotate_failed fits reopens
          rw [rotated, ok_bind] at ended
          obtain ⟨_, rfl⟩ := Prod.mk.inj (Except.ok.inj ended)
          refine ⟨⟨fun f impossible => ?_, fun stream impossible => ?_⟩, ?_, ?_, ?_, nofun⟩
          · rw [logger] at impossible
            cases impossible
          · rw [logger] at impossible
            cases impossible
          · rw [logger]
            rfl
          · rw [opened]
            rfl
          · rw [logger]
            rfl
        | true =>
          rw [rotate_reopened fits reopens, ok_bind] at ended
          obtain ⟨_, rfl⟩ := Prod.mk.inj (Except.ok.inj ended)
          refine ⟨⟨fun f same => ?_, fun stream same other => ?_⟩, rfl, rfl, rfl, fun _ => rfl⟩
          · obtain rfl := FileStream.file.inj (Option.some.inj same)
            exact List.mem_cons_self
          · exact (other _ (Option.some.inj same).symm).elim
      · rw [rotate_overrun fits, error_bind] at ended
        cases ended
    · rw [logvWrite_quiet live fills] at ended
      obtain ⟨_, rfl⟩ := Prod.mk.inj (Except.ok.inj ended)
      rw [if_neg fills]
      refine ⟨quiet_kept kept entry stream, rfl, rfl, ?_, rfl⟩
      show s.logger.fp.isSome = true
      rw [live]
      rfl

/-! ## Calls -/

/-- What calls that end leave. -/
theorem calls_ended {results : List Int}
    (ended : calls (Logging.logvWrite localtime) entries s = .ok (results, s'))
    (kept : StreamKept s) (live : s.logger.fp.isSome = true) :
    StreamKept s' ∧ s'.opened.length = s.opened.length +
        (rotations s.logger.rotatesize s.logger.wcurr entries).countP LogEntry.reopens ∧
      (s'.logger.fp.isSome = true ↔
        ∀ entry ∈ rotations s.logger.rotatesize s.logger.wcurr entries, entry.reopens = true) := by
  induction entries generalizing s results with
  | nil =>
    obtain ⟨_, rfl⟩ := Prod.mk.inj (Except.ok.inj ended)
    exact ⟨kept, rfl, by simp [rotations, live]⟩
  | cons entry entries ih =>
    obtain ⟨⟨result, next⟩, first, ended⟩ := bind_ends ended
    obtain ⟨⟨rest, last⟩, later, ended⟩ := bind_ends ended
    obtain ⟨_, rfl⟩ := Prod.mk.inj (Except.ok.inj ended)
    obtain ⟨kept', size, left⟩ := logvWrite_ended first kept
    by_cases fills : Fills s.logger.rotatesize s.logger.wcurr entry.line
    · rw [if_pos fills] at left
      obtain ⟨opened, lives, zero⟩ := left
      rw [rotations_fills fills]
      cases reopens : entry.reopens with
      | true =>
        rw [reopens] at opened lives
        obtain ⟨kept'', count, still⟩ := ih later kept' lives
        rw [size, zero reopens] at count still
        refine ⟨kept'', ?_, ?_⟩
        · rw [count, opened, List.countP_cons_of_pos reopens]
          show s.opened.length + 1 + _ = _
          omega
        · rw [still, List.forall_mem_cons, and_iff_right reopens]
      | false =>
        -- without a stream no call may follow
        rw [reopens] at opened lives
        have closed : next.logger.fp = none := Option.not_isSome_iff_eq_none.mp (by simp [lives])
        cases entries with
        | nil =>
          obtain ⟨_, rfl⟩ := Prod.mk.inj (Except.ok.inj later)
          refine ⟨kept', ?_, ?_⟩
          · rw [opened]
            simp [rotations, reopens]
          · simp [rotations, lives, reopens]
        | cons other entries =>
          obtain ⟨_, impossible, _⟩ := bind_ends later
          rw [logvWrite_none closed] at impossible
          cases impossible
    · rw [if_neg fills] at left
      obtain ⟨opened, lives, count'⟩ := left
      obtain ⟨kept'', count, still⟩ := ih later kept' lives
      rw [size, count', opened] at count
      rw [size, count'] at still
      rw [rotations_quiet fills]
      exact ⟨kept'', count, still⟩

/-! ## A whole life -/

/-- A logger that was created keeps its stream. -/
theorem loggerCreate_kept {level rotate_size : Int} {name : Pathname} {granted : Bool}
    {files : Files} (created : loggerCreate level rotate_size name granted files = .ok (some s)) :
    StreamKept s := by
  unfold loggerCreate at created
  split at created
  · cases created
  · cases standard : standardStream name with
    | some stream =>
      rw [standard] at created
      obtain rfl := Option.some.inj (Except.ok.inj created)
      refine ⟨fun f same => ?_, fun _ _ _ => rfl⟩
      have no : standardStream name ≠ some (.file f) := by
        unfold standardStream
        split
        · nofun
        · split <;> nofun
      exact (no (standard.trans same)).elim
    | none =>
      rw [standard] at created
      dsimp only at created
      split at created
      · obtain rfl := Option.some.inj (Except.ok.inj created)
        refine ⟨fun f same => ?_, fun stream same other => ?_⟩
        · obtain rfl := FileStream.file.inj (Option.some.inj same)
          exact List.mem_singleton_self _
        · exact (other _ (Option.some.inj same).symm).elim
      · cases Except.ok.inj created

/-- Messages whose logging ends are put together. -/
theorem assembled_of_ended {requests : List (Int × LogCall)} {results : List Int}
    (ended : calls (logRequest localtime) requests s = .ok (results, s')) :
    Assembled localtime requests := by
  induction requests generalizing s results with
  | nil => exact fun request member => (List.not_mem_nil member).elim
  | cons request requests ih =>
    obtain ⟨⟨result, next⟩, first, ended⟩ := bind_ends ended
    obtain ⟨⟨rest, last⟩, later, ended⟩ := bind_ends ended
    obtain ⟨_, rfl⟩ := Prod.mk.inj (Except.ok.inj ended)
    obtain ⟨line, made, _⟩ := bind_ends first
    have here : ∃ entry, request.2.entry localtime request.1 = .ok entry := by
      unfold LogCall.entry
      rw [show logvLine _ request.1 _ _ = .ok line from made]
      exact ⟨_, rfl⟩
    exact List.forall_mem_cons.mpr ⟨here, ih later⟩

/-- A text that is cut, with a clock that stands still and a file that takes it. -/
def longCall : LogCall :=
  ⟨⟨true, 0, true, true⟩, ⟨List.replicate 5000 0x61, none, 0⟩, 0, 0, fun _ => 0⟩

/-- Its line is as long as one may be. -/
theorem longCall_entry : ∃ entry : LogEntry,
    longCall.entry (fun _ => ⟨126, 0, 1, 12, 0, 0⟩) levelInfo = .ok (some entry) ∧
      entry.toLogAnswers = longCall.toLogAnswers ∧ entry.line.length = 4087 := by
  have noon : (timestamp ⟨126, 0, 1, 12, 0, 0⟩ 0).length = 24 := by decide
  have long : formattedLen longCall.msg.text = 5000 := by
    have length : longCall.msg.text.length = 5000 := List.length_replicate
    unfold formattedLen
    rw [length]
    rfl
  rcases logvLine_text longCall.behind noon (by decide : levelInfo ≠ levelHex) longCall.msg with
    ⟨negative, _⟩ | ⟨_, buf, ended⟩
  · omega
  · rw [long] at ended
    have total : (33 + min (5000 : Int) 4054).toNat = 4087 := by decide
    refine ⟨⟨longCall.toLogAnswers, readAt buf 0 (33 + min (5000 : Int) 4054).toNat⟩, ?_, rfl, ?_⟩
    · unfold LogCall.entry
      rw [show logvLine _ levelInfo (timestamp _ longCall.tv_usec) _ = _ from ended]
      rfl
    · rw [readAt_length, total]

/-- A message that is logged again and again makes the same line. -/
theorem linesOf_replicate {request : Int × LogCall} (n : Nat)
    (made : request.2.entry localtime request.1 = .ok (some entry)) :
    linesOf localtime (List.replicate n request) = List.replicate n entry := by
  induction n with
  | zero => rfl
  | succ n ih =>
    rw [List.replicate_succ, linesOf_cons made, ih, List.replicate_succ]
    rfl

/-- So many lines of that length, and one more, fill a file of one megabyte. -/
theorem long_rotations {entry : LogEntry} (long : entry.line.length = 4087) :
    rotations 1048576 0 (List.replicate 257 entry) = [entry] := by
  have sum : ((List.replicate 256 entry).map fun entry => entry.line.length).sum = 1046272 := by
    rw [List.map_replicate, List.sum_replicate_nat, long]
  have small : 0 + ((List.replicate 256 entry).map fun entry => entry.line.length).sum ≤
      1048576 := by
    rw [sum]
    decide
  have fills : Fills 1048576 1046272 entry.line := by
    unfold Fills
    rw [long]
    decide
  rw [List.replicate_succ', rotations_short _ (by decide) small, sum, Nat.zero_add,
    rotations_fills fills]
  rfl

end EpollNet
