import EpollNet.Basis.Calls
import EpollNet.Net.Log
import Mathlib.Tactic.Common

/-!
# A logger that outlives its rotations

`rotate` clears the stream before it saves it. So the stream it replaces is closed at no time, and
the logger has none left if `rename` or `fopen` fails.
-/

namespace EpollNet

open EpollNet.Basis

/-! ## What is demanded -/

/-- Every call finds a stream, and at most one stream that the logger opened is open. -/
def Survives (localtime : Int → Tm) (entries : List LogEntry) (s : Logging) : Prop :=
  s.opened.length ≤ 1 ∧
    Throughout (Logging.logvWrite localtime) (fun _ _ _ s' => s'.opened.length ≤ 1) entries s

/-- A line that fills the file, so that it is rotated. -/
def Fills (rotatesize wcurr : Nat) (line : Line) : Prop :=
  rotatesize > 0 ∧ asUllong (wcurr + line.length) > rotatesize

instance (rotatesize wcurr : Nat) (line : Line) : Decidable (Fills rotatesize wcurr line) :=
  inferInstanceAs (Decidable (_ ∧ _))

/-- The calls that rotate the file, if so much was written to it since it was opened. -/
def rotations (rotatesize : Nat) : Nat → List LogEntry → List LogEntry
  | _, [] => []
  | wcurr, entry :: entries =>
    if Fills rotatesize wcurr entry.line then entry :: rotations rotatesize 0 entries
    else rotations rotatesize (asUllong (wcurr + entry.line.length)) entries

/-- The path that a call renames the file to, if it does. -/
def LogEntry.target (localtime : Int → Tm) (name : Pathname) (entry : LogEntry) : Pathname :=
  rotatedName name (localtime entry.now)

/-- The file is renamed, and opened anew. -/
def LogEntry.reopens (entry : LogEntry) : Bool := entry.renamed && entry.opened

/-- Every path that the file is renamed to fits into its array, only the last call fails to open the
file anew, and no more calls do so than there is room for streams. -/
def Survivable (localtime : Int → Tm) (name : Pathname) (rotatesize room wcurr : Nat)
    (entries : List LogEntry) : Prop :=
  (∀ entry ∈ rotations rotatesize wcurr entries, (entry.target localtime name).length < pathMax) ∧
    (∀ entry ∈ rotations rotatesize wcurr entries.dropLast, entry.reopens) ∧
      (rotations rotatesize wcurr entries).countP LogEntry.reopens ≤ room

instance (localtime : Int → Tm) (name : Pathname) (rotatesize room wcurr : Nat)
    (entries : List LogEntry) :
    Decidable (Survivable localtime name rotatesize room wcurr entries) :=
  inferInstanceAs (Decidable (_ ∧ _ ∧ _))

/-! ## One call -/

variable {localtime : Int → Tm} {entry : LogEntry} {s : Logging}

/-- A path that is too long. -/
theorem rotate_overrun (long : ¬(entry.target localtime s.logger.name).length < pathMax) :
    s.rotate localtime entry.toLogAnswers = .error .overrun :=
  if_pos (not_lt.mp long)

/-- A rotation that fails leaves the logger without a stream. -/
theorem rotate_failed (fits : (entry.target localtime s.logger.name).length < pathMax)
    (failed : entry.reopens = false) :
    ∃ s', s.rotate localtime entry.toLogAnswers = .ok s' ∧
      s'.logger = { s.logger with fp := none } ∧ s'.opened = s.opened := by
  have fits' : ¬pathMax ≤ (rotatedName s.logger.name (localtime entry.now)).length :=
    not_le.mpr fits
  unfold Logging.rotate
  dsimp only
  rw [if_neg fits']
  by_cases renamed : entry.renamed = false
  · rw [if_pos renamed]
    exact ⟨_, rfl, rfl, rfl⟩
  · have opened : entry.opened = false := by
      rw [LogEntry.reopens, Bool.eq_true_of_not_eq_false renamed] at failed
      exact failed
    rw [if_neg renamed, if_pos opened]
    exact ⟨_, rfl, rfl, rfl⟩

/-- The logger with its file renamed and opened anew. -/
def Logging.reopened (new : Pathname) (s : Logging) : Logging :=
  let made := (s.files.rename s.logger.name new).append s.logger.name
  { logger := { s.logger with fp := some (.file made.1), wcurr := 0, wtotal := 0 }
    files := made.2
    opened := made.1 :: s.opened
    rotated := s.rotated ++ [new] }

/-- A rotation that succeeds closes nothing. -/
theorem rotate_reopened (fits : (entry.target localtime s.logger.name).length < pathMax)
    (reopens : entry.reopens = true) :
    s.rotate localtime entry.toLogAnswers =
      .ok (s.reopened (entry.target localtime s.logger.name)) := by
  have fits' : ¬pathMax ≤ (rotatedName s.logger.name (localtime entry.now)).length :=
    not_le.mpr fits
  obtain ⟨renamed, opened⟩ := Bool.and_eq_true_iff.mp reopens
  have renamed' : ¬entry.renamed = false := by rw [renamed]; decide
  have opened' : ¬entry.opened = false := by rw [opened]; decide
  unfold Logging.rotate
  dsimp only
  rw [if_neg fits', if_neg renamed', if_neg opened']
  rfl

/-- Writing keeps the name. -/
theorem fwrite_name (entry : LogEntry) (stream : FileStream) (s : Logging) :
    (s.fwrite entry stream).logger.name = s.logger.name := rfl

/-- A call without a stream. -/
theorem logvWrite_none (closed : s.logger.fp = none) :
    s.logvWrite localtime entry = .error .nullStream := by
  unfold Logging.logvWrite
  rw [closed]

/-- A call that does not fill the file. -/
theorem logvWrite_quiet {stream : FileStream} (live : s.logger.fp = some stream)
    (quiet : ¬Fills s.logger.rotatesize s.logger.wcurr entry.line) :
    s.logvWrite localtime entry = .ok (0, s.fwrite entry stream) := by
  unfold Logging.logvWrite
  rw [live]
  exact if_neg quiet

/-- One that does. -/
theorem logvWrite_fills {stream : FileStream} (live : s.logger.fp = some stream)
    (fills : Fills s.logger.rotatesize s.logger.wcurr entry.line) :
    s.logvWrite localtime entry =
      ((s.fwrite entry stream).rotate localtime entry.toLogAnswers >>= fun s => .ok (0, s)) := by
  unfold Logging.logvWrite
  rw [live]
  exact if_pos fills

/-! ## What calls leave -/

/-- What the calls so far leave: whether there is a stream, room for streams, and the count. -/
structure Allowance where
  /-- There is a stream. -/
  live : Bool
  /-- How many streams may still be opened. -/
  room : Nat
  /-- How much was written since the last one was. -/
  wcurr : Nat

/-- What a call leaves. -/
def Allowance.next (rotatesize : Nat) (entry : LogEntry) (v : Allowance) : Allowance :=
  if Fills rotatesize v.wcurr entry.line then ⟨entry.reopens, v.room - 1, 0⟩
  else ⟨v.live, v.room, asUllong (v.wcurr + entry.line.length)⟩

/-- A call finds a stream, and leaves no more streams than there may be. -/
def Allowance.suits (localtime : Int → Tm) (name : Pathname) (rotatesize : Nat) (entry : LogEntry)
    (v : Allowance) : Prop :=
  v.live = true ∧ (Fills rotatesize v.wcurr entry.line →
    (entry.target localtime name).length < pathMax ∧ (entry.reopens = true → 0 < v.room))

/-- A logger as the calls left it. -/
structure Allowed (name : Pathname) (rotatesize : Nat) (s : Logging) (v : Allowance) : Prop where
  name : s.logger.name = name
  rotatesize : s.logger.rotatesize = rotatesize
  live : s.logger.fp.isSome = v.live
  wcurr : v.live = true → s.logger.wcurr = v.wcurr
  room : v.live = true → s.opened.length + v.room = 1

variable {name : Pathname} {rotatesize room wcurr : Nat} {v : Allowance} {entries : List LogEntry}

/-- The stream of a logger that has one. -/
theorem Allowed.stream (allowed : Allowed name rotatesize s v) (live : v.live = true) :
    ∃ stream, s.logger.fp = some stream :=
  Option.isSome_iff_exists.mp (allowed.live.trans live)

/-- Whether a line fills the file is told by what the calls before it left. -/
theorem Allowed.fills (allowed : Allowed name rotatesize s v) (live : v.live = true) (line : Line) :
    Fills s.logger.rotatesize s.logger.wcurr line ↔ Fills rotatesize v.wcurr line := by
  rw [allowed.rotatesize, allowed.wcurr live]

/-- A call that suits what the calls before it left. -/
theorem Allowed.call (allowed : Allowed name rotatesize s v)
    (suits : v.suits localtime name rotatesize entry) :
    ∃ result s', s.logvWrite localtime entry = .ok (result, s') ∧ s'.opened.length ≤ 1 ∧
      Allowed name rotatesize s' (v.next rotatesize entry) := by
  obtain ⟨live, filling⟩ := suits
  obtain ⟨stream, found⟩ := allowed.stream live
  have few := allowed.room live
  have filled := allowed.fills live entry.line
  unfold Allowance.next
  by_cases fills : Fills rotatesize v.wcurr entry.line
  · obtain ⟨fits, spare⟩ := filling fills
    have fits' : (entry.target localtime (s.fwrite entry stream).logger.name).length < pathMax := by
      rw [fwrite_name, allowed.name]
      exact fits
    rw [logvWrite_fills found (filled.mpr fills), if_pos fills]
    cases reopens : entry.reopens with
    | false =>
      obtain ⟨s', rotated, logger, opened⟩ := rotate_failed fits' reopens
      rw [rotated, ok_bind]
      refine ⟨_, s', rfl, ?_, ?_, ?_, ?_, nofun, nofun⟩
      · rw [opened]
        show s.opened.length ≤ 1
        omega
      · rw [logger]
        exact allowed.name
      · rw [logger]
        exact allowed.rotatesize
      · rw [logger]
        rfl
    | true =>
      have spare' := spare reopens
      rw [rotate_reopened fits' reopens, ok_bind]
      refine ⟨_, _, rfl, ?_, allowed.name, allowed.rotatesize, rfl, fun _ => rfl, fun _ => ?_⟩
      · show s.opened.length + 1 ≤ 1
        omega
      · show s.opened.length + 1 + (v.room - 1) = 1
        omega
  · rw [logvWrite_quiet found (mt filled.mp fills), if_neg fills]
    refine ⟨_, _, rfl, ?_, allowed.name, allowed.rotatesize, allowed.live, fun _ => ?_,
      fun _ => few⟩
    · show s.opened.length ≤ 1
      omega
    · show asUllong (s.logger.wcurr + entry.line.length) = asUllong (v.wcurr + entry.line.length)
      rw [allowed.wcurr live]

/-- A call that does not suit it fails, or leaves two streams. -/
theorem Allowed.fails (allowed : Allowed name rotatesize s v)
    (unsuited : ¬v.suits localtime name rotatesize entry) {result : Int} {s' : Logging}
    (called : s.logvWrite localtime entry = .ok (result, s')) : ¬s'.opened.length ≤ 1 := by
  by_cases live : v.live = true
  · obtain ⟨stream, found⟩ := allowed.stream live
    have few := allowed.room live
    rw [Allowance.suits, not_and] at unsuited
    obtain ⟨fills, bad⟩ := Classical.not_imp.mp (unsuited live)
    rw [logvWrite_fills found ((allowed.fills live entry.line).mpr fills)] at called
    by_cases fits : (entry.target localtime (s.fwrite entry stream).logger.name).length < pathMax
    · have fits' : (entry.target localtime name).length < pathMax := by
        rw [fwrite_name, allowed.name] at fits
        exact fits
      obtain ⟨reopens, full⟩ := Classical.not_imp.mp fun spare => bad ⟨fits', spare⟩
      rw [rotate_reopened fits reopens, ok_bind] at called
      obtain ⟨_, rfl⟩ := Prod.mk.inj (Except.ok.inj called)
      show ¬s.opened.length + 1 ≤ 1
      omega
    · rw [rotate_overrun fits, error_bind] at called
      cases called
  · have closed : s.logger.fp = none := by
      rw [← Option.not_isSome_iff_eq_none, allowed.live]
      exact live
    rw [logvWrite_none closed] at called
    cases called

/-- Without a stream there may be no more calls. -/
theorem along_dead (room wcurr : Nat) :
    Along (Allowance.next rotatesize) (Allowance.suits localtime name rotatesize) entries
      ⟨false, room, wcurr⟩ ↔ entries = [] := by
  cases entries with
  | nil => exact iff_of_true trivial rfl
  | cons entry entries =>
    refine iff_of_false ?_ (List.cons_ne_nil _ _)
    rintro ⟨⟨live, _⟩, _⟩
    cases live

/-- A call that does not fill the file rotates nothing. -/
theorem rotations_quiet (quiet : ¬Fills rotatesize wcurr entry.line) :
    rotations rotatesize wcurr (entry :: entries) =
      rotations rotatesize (asUllong (wcurr + entry.line.length)) entries :=
  if_neg quiet

/-- One that does rotates it. -/
theorem rotations_fills (fills : Fills rotatesize wcurr entry.line) :
    rotations rotatesize wcurr (entry :: entries) = entry :: rotations rotatesize 0 entries :=
  if_pos fills

/-- Counts below `2 ^ 64` are kept. -/
theorem asUllong_eq {n : Nat} (small : n < 2 ^ 64) : asUllong n = n := by
  unfold asUllong
  omega

/-- Lines that do not fill the file together rotate nothing. -/
theorem rotations_short (lines : List LogEntry) (small : rotatesize < 2 ^ 64)
    (short : wcurr + (lines.map fun entry => entry.line.length).sum ≤ rotatesize) :
    rotations rotatesize wcurr (lines ++ entries) =
      rotations rotatesize (wcurr + (lines.map fun entry => entry.line.length).sum) entries := by
  induction lines generalizing wcurr with
  | nil => rfl
  | cons entry lines ih =>
    rw [List.map_cons, List.sum_cons, ← Nat.add_assoc] at short
    have count : asUllong (wcurr + entry.line.length) = wcurr + entry.line.length :=
      asUllong_eq (n := wcurr + entry.line.length) (by omega)
    have quiet : ¬Fills rotatesize wcurr entry.line := by
      unfold Fills
      rw [count]
      omega
    rw [List.cons_append, rotations_quiet quiet, count, ih short, List.map_cons, List.sum_cons,
      Nat.add_assoc]

/-- A call that does not fill the file changes nothing in what is survivable but the count. -/
theorem survivable_quiet (quiet : ¬Fills rotatesize wcurr entry.line) :
    Survivable localtime name rotatesize room wcurr (entry :: entries) ↔
      Survivable localtime name rotatesize room (asUllong (wcurr + entry.line.length)) entries := by
  have before : rotations rotatesize wcurr (entry :: entries).dropLast =
      rotations rotatesize (asUllong (wcurr + entry.line.length)) entries.dropLast := by
    cases entries with
    | nil => rfl
    | cons next entries => exact rotations_quiet quiet
  unfold Survivable
  rw [rotations_quiet quiet, before]

/-- One that fills it may fail to open it anew if it is the last. -/
theorem survivable_fails (fills : Fills rotatesize wcurr entry.line)
    (failed : entry.reopens = false) :
    Survivable localtime name rotatesize room wcurr (entry :: entries) ↔
      (entry.target localtime name).length < pathMax ∧ entries = [] := by
  unfold Survivable
  rw [rotations_fills fills, List.forall_mem_cons]
  cases entries with
  | nil =>
    constructor
    · rintro ⟨⟨fits, _⟩, _⟩
      exact ⟨fits, rfl⟩
    · rintro ⟨fits, _⟩
      refine ⟨⟨fits, nofun⟩, nofun, ?_⟩
      rw [rotations, List.countP_cons_of_neg (by rw [failed]; decide)]
      exact Nat.zero_le _
  | cons next entries =>
    refine iff_of_false ?_ fun impossible => nomatch impossible.2
    rintro ⟨_, succeed, _⟩
    have first : entry ∈ rotations rotatesize wcurr (entry :: next :: entries).dropLast := by
      rw [List.dropLast_cons_of_ne_nil (List.cons_ne_nil _ _), rotations_fills fills]
      exact List.mem_cons_self
    have reopens := succeed entry first
    rw [failed] at reopens
    cases reopens

/-- Otherwise it takes room for a stream. -/
theorem survivable_reopens (fills : Fills rotatesize wcurr entry.line)
    (reopens : entry.reopens = true) :
    Survivable localtime name rotatesize room wcurr (entry :: entries) ↔
      (entry.target localtime name).length < pathMax ∧ 0 < room ∧
        Survivable localtime name rotatesize (room - 1) 0 entries := by
  have before : (∀ other ∈ rotations rotatesize wcurr (entry :: entries).dropLast, other.reopens) ↔
      ∀ other ∈ rotations rotatesize 0 entries.dropLast, other.reopens := by
    cases entries with
    | nil => exact Iff.rfl
    | cons next entries =>
      rw [List.dropLast_cons_of_ne_nil (List.cons_ne_nil _ _), rotations_fills fills,
        List.forall_mem_cons]
      exact and_iff_right reopens
  unfold Survivable
  rw [before, rotations_fills fills, List.forall_mem_cons, List.countP_cons_of_pos reopens]
  constructor
  · rintro ⟨⟨fits, later⟩, succeed, few⟩
    exact ⟨fits, by omega, later, succeed, by omega⟩
  · rintro ⟨fits, spare, later, succeed, few⟩
    exact ⟨⟨fits, later⟩, succeed, by omega⟩

/-- Calls suit what the calls before them leave if and only if they are survivable. -/
theorem along_iff_survivable :
    Along (Allowance.next rotatesize) (Allowance.suits localtime name rotatesize) entries
      ⟨true, room, wcurr⟩ ↔ Survivable localtime name rotatesize room wcurr entries := by
  induction entries generalizing room wcurr with
  | nil => simp [Along, Survivable, rotations]
  | cons entry entries ih =>
    have cons : Along (Allowance.next rotatesize) (Allowance.suits localtime name rotatesize)
        (entry :: entries) ⟨true, room, wcurr⟩ ↔
          Allowance.suits localtime name rotatesize entry ⟨true, room, wcurr⟩ ∧
            Along (Allowance.next rotatesize) (Allowance.suits localtime name rotatesize) entries
              (Allowance.next rotatesize entry ⟨true, room, wcurr⟩) := Iff.rfl
    rw [cons, Allowance.next, Allowance.suits]
    dsimp only
    by_cases fills : Fills rotatesize wcurr entry.line
    · rw [if_pos fills]
      cases reopens : entry.reopens with
      | false =>
        rw [along_dead, survivable_fails fills reopens]
        simp [fills]
      | true =>
        rw [ih, survivable_reopens fills reopens]
        simp [fills, and_assoc]
    · rw [if_neg fills, ih, survivable_quiet fills]
      simp [fills]

/-! ## From its creation on -/

/-- How many streams may be opened by calls on a logger. -/
def streamRoom (name : Pathname) : Nat := if (standardStream name).isSome then 1 else 0

/-- A logger that was created. -/
theorem loggerCreate_allowed {level rotate_size : Int} {granted : Bool} {files : Files}
    (created : loggerCreate level rotate_size name granted files = .ok (some s)) :
    Allowed name (rotateBytes rotate_size) s ⟨true, streamRoom name, 0⟩ := by
  unfold loggerCreate at created
  split at created
  · cases created
  · unfold streamRoom
    cases standard : standardStream name with
    | some stream =>
      rw [standard] at created
      obtain rfl := Option.some.inj (Except.ok.inj created)
      exact ⟨rfl, rfl, rfl, fun _ => rfl, fun _ => rfl⟩
    | none =>
      rw [standard] at created
      dsimp only at created
      split at created
      · obtain rfl := Option.some.inj (Except.ok.inj created)
        exact ⟨rfl, rfl, rfl, fun _ => rfl, fun _ => rfl⟩
      · cases Except.ok.inj created

/-- A logger that allows its calls survives them if and only if they are survivable. -/
theorem Allowed.survives_iff (allowed : Allowed name rotatesize s ⟨true, room, wcurr⟩) :
    Survives localtime entries s ↔ Survivable localtime name rotatesize room wcurr entries := by
  have few := allowed.room rfl
  have start : s.opened.length ≤ 1 := by omega
  have permitted : Permitted (Logging.logvWrite localtime) (fun _ _ => True) entries s :=
    Permitted.of_all (fun _ _ => trivial) s
  rw [Survives, and_iff_right start, ← along_iff_survivable]
  refine throughout_iff (Allowed name rotatesize) ?_ ?_ allowed permitted
  · intro entry s v allowed _ suits
    exact allowed.call suits
  · intro entry s v allowed _ unsuited result s' called
    exact allowed.fails unsuited called

/-- Calls after a creation each find a stream, with at most one open, if and only if they are
survivable. -/
theorem logging_survives_iff (localtime : Int → Tm) {level rotate_size : Int} {granted : Bool}
    {files : Files} (created : loggerCreate level rotate_size name granted files = .ok (some s))
    (entries : List LogEntry) :
    Survives localtime entries s ↔
      Survivable localtime name (rotateBytes rotate_size) (streamRoom name) 0 entries :=
  (loggerCreate_allowed created).survives_iff

/-- No files. -/
def noFiles : Files := ⟨fun _ => none, fun _ => [], 0, nofun⟩

/-- A logger to a new file. -/
def fileLogging : Logging where
  logger := ⟨ascii "a", levelInfo, some (.file 0), 0, 0, 2 ^ 20⟩
  files := noFiles.create (ascii "a")
  opened := [0]
  rotated := []

/-- It is created with a size of one megabyte. -/
theorem fileLogging_created :
    loggerCreate levelInfo 1 (ascii "a") true noFiles = .ok (some fileLogging) := rfl

/-- A logger to standard output. -/
def stdoutLogging : Logging where
  logger := ⟨ascii "stdout", levelInfo, some .stdout, 0, 0, 2 ^ 20⟩
  files := noFiles
  opened := []
  rotated := []

/-- It is created too. -/
theorem stdoutLogging_created :
    loggerCreate levelInfo 1 (ascii "stdout") true noFiles = .ok (some stdoutLogging) := rfl

/-- A line that is as long as one may be, in a call that succeeds. -/
def longEntry : LogEntry := ⟨⟨true, 0, true, true⟩, List.replicate 4087 0x61⟩

/-- As many of them as the file takes. -/
theorem longEntry_sum :
    ((List.replicate 256 longEntry).map fun entry => entry.line.length).sum = 1046272 := by
  have long : longEntry.line.length = 4087 := List.length_replicate
  rw [List.map_replicate, List.sum_replicate_nat, long]

/-- One more fills it. -/
theorem longEntry_fills : Fills 1048576 1046272 longEntry.line := by
  have long : longEntry.line.length = 4087 := List.length_replicate
  unfold Fills
  rw [long]
  decide

/-- Only a call behind as many of them rotates. -/
theorem longEntry_rotations {last : LogEntry} (long : last.line = longEntry.line) :
    rotations 1048576 0 (List.replicate 256 longEntry ++ [last]) = [last] ∧
      rotations 1048576 0 (List.replicate 256 longEntry ++ [last]).dropLast = [] := by
  have small : 0 + ((List.replicate 256 longEntry).map fun entry => entry.line.length).sum ≤
      1048576 := by
    rw [longEntry_sum]
    decide
  have fills : Fills 1048576 1046272 last.line := long ▸ longEntry_fills
  constructor
  · rw [rotations_short _ (by decide) small, longEntry_sum, Nat.zero_add, rotations_fills fills]
    rfl
  · rw [List.dropLast_concat, ← List.append_nil (List.replicate 256 longEntry),
      rotations_short _ (by decide) small]
    rfl

/-- A logger to standard output is rotated once and goes on with a file, and the one to a file is
rotated by its last call, whose renaming fails. -/
theorem logging_survives_rotated :
    Survives (fun _ => ⟨126, 0, 1, 12, 0, 0⟩) (List.replicate 256 longEntry ++ [longEntry])
      stdoutLogging ∧
    Survives (fun _ => ⟨126, 0, 1, 12, 0, 0⟩)
      (List.replicate 256 longEntry ++ [{ longEntry with renamed := false }]) fileLogging := by
  have size : rotateBytes 1 = 1048576 := by decide
  constructor
  · apply (logging_survives_iff _ stdoutLogging_created _).mpr
    obtain ⟨all, quiet⟩ := @longEntry_rotations longEntry rfl
    rw [Survivable, size, all, quiet]
    decide
  · apply (logging_survives_iff _ fileLogging_created _).mpr
    obtain ⟨all, quiet⟩ := @longEntry_rotations { longEntry with renamed := false } rfl
    rw [Survivable, size, all, quiet]
    decide

/-- A file that is filled is opened a second time. -/
theorem two_streams_open :
    ¬∀ (localtime : Int → Tm) (level rotate_size : Int) (name : Pathname) (granted : Bool)
      (files : Files) (s : Logging) (entries : List LogEntry),
      loggerCreate level rotate_size name granted files = .ok (some s) →
        Survives localtime entries s := by
  intro always
  have survives := always (fun _ => ⟨126, 0, 1, 12, 0, 0⟩) levelInfo 1 (ascii "a") true noFiles _
    (List.replicate 256 longEntry ++ [longEntry]) fileLogging_created
  have size : rotateBytes 1 = 1048576 := by decide
  obtain ⟨_, _, few⟩ := (loggerCreate_allowed fileLogging_created).survives_iff.mp survives
  rw [size, (@longEntry_rotations longEntry rfl).1] at few
  exact absurd few (by decide)

end EpollNet
