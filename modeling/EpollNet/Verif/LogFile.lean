import EpollNet.Verif.LogReader
import EpollNet.Verif.LogThreads

/-!
# Reading the files back

The lines of messages that threads log are found in the rotated files, one after the other, and in
the current one, in the order in which the threads took the lock. So these files are read back to
the messages, as long as no two rotations have one name.
-/

namespace EpollNet

open EpollNet.Basis

variable {localtime : Int → Tm} {request : Int × LogCall} {requests : List (Int × LogCall)}
  {s s' : Logging} {name : Pathname}

/-! ## Lines end where they should -/

/-- The bytes of a number are digits or a sign. -/
theorem zeroPadded_bytes (width : Nat) (n : Int) :
    ∀ c ∈ zeroPadded width n, c = 0x2d ∨ 0x30 ≤ c.toNat ∧ c.toNat ≤ 0x39 := by
  have digit : ∀ c ∈ (Nat.toDigits 10 n.natAbs).map fun c => c.toNat.toUInt8,
      0x30 ≤ c.toNat ∧ c.toNat ≤ 0x39 := by
    intro c member
    obtain ⟨d, there, rfl⟩ := List.mem_map.mp member
    have digits := Nat.isDigit_of_mem_toDigits (by decide) (by decide) there
    unfold Char.isDigit at digits
    rw [Bool.and_eq_true, decide_eq_true_eq, decide_eq_true_eq] at digits
    have lower : 48 ≤ d.toNat := UInt32.le_iff_toNat_le.mp digits.1
    have upper : d.toNat ≤ 57 := UInt32.le_iff_toNat_le.mp digits.2
    have kept : d.toNat.toUInt8.toNat = d.toNat % 2 ^ 8 := UInt8.toNat_ofNat'
    omega
  have padding : ∀ k, ∀ c ∈ List.replicate k (0x30 : UInt8), 0x30 ≤ c.toNat ∧ c.toNat ≤ 0x39 := by
    intro k c member
    rw [List.eq_of_mem_replicate member]
    decide
  unfold zeroPadded
  intro c member
  dsimp only at member
  split at member
  · rcases List.mem_append.mp member with sign | rest
    · exact .inl (List.mem_singleton.mp sign)
    · right
      rcases List.mem_append.mp rest with pad | number
      · exact padding _ c pad
      · exact digit c number
  · right
    rcases List.mem_append.mp member with pad | number
    · exact padding _ c pad
    · exact digit c number

/-- A number does not end a line. -/
theorem zeroPadded_line (width : Nat) (n : Int) : (0x0a : UInt8) ∉ zeroPadded width n := by
  intro member
  have newline : (0x0a : UInt8).toNat = 10 := rfl
  rcases zeroPadded_bytes width n 0x0a member with sign | digit
  · exact absurd sign (by decide)
  · omega

/-- Nor does a time. -/
theorem timestamp_line (tm : Tm) (tv_usec : Int) : (0x0a : UInt8) ∉ timestamp tm tv_usec := by
  have dash : (0x0a : UInt8) ∉ ascii "-" := by decide
  have blank : (0x0a : UInt8) ∉ ascii " " := by decide
  have colon : (0x0a : UInt8) ∉ ascii ":" := by decide
  have dot : (0x0a : UInt8) ∉ ascii "." := by decide
  unfold timestamp
  simp only [List.mem_append, zeroPadded_line, dash, blank, colon, dot, or_self,
    not_false_eq_true]

/-- A line ends once. -/
theorem bodyOf_line (readable : Readable localtime request) :
    (0x0a : UInt8) ∉ bodyOf localtime request := by
  have clean : ∀ c ∈ request.2.msg.text, c ≠ 0x0a := fun c member => (readable.text c member).2
  have cut : ∀ k n : Nat,
      (0x0a : UInt8) ∉ request.2.msg.text.take k ++ List.replicate n 0 := by
    intro k n member
    rcases List.mem_append.mp member with front | zeros
    · exact clean _ (List.mem_of_mem_take front) rfl
    · exact absurd (List.eq_of_mem_replicate zeros) (by decide)
  have stamp := timestamp_line (localtime request.2.tv_sec) request.2.tv_usec
  unfold bodyOf lineBody
  rcases readable.level with hex | text
  · have digits : (0x0a : UInt8) ∉ hexDigits request.2.msg.bytes :=
      not_mem_hexDigits (by decide) _
    have named : (0x0a : UInt8) ∉ hexName ++ [request.2.behind 7] := by
      intro member
      rcases List.mem_append.mp member with name | last
      · exact absurd name (by decide)
      · exact readable.behind hex (List.mem_singleton.mp last).symm
    rw [if_pos hex, hex, levelBytes_hex]
    simp only [List.mem_append, not_or] at cut named ⊢
    exact ⟨⟨⟨stamp, List.mem_append.not.mpr (not_or.mpr (cut 1023 _))⟩, named⟩, digits⟩
  · have named : (0x0a : UInt8) ∉ levelBytes request.2.behind request.1 := by
      rw [levelBytes_text _ text]
      revert text
      generalize request.1 = level
      intro text
      unfold textLevels at text
      simp only [List.mem_cons, List.not_mem_nil, or_false] at text
      rcases text with rfl | rfl | rfl | rfl | rfl <;> decide
    rw [if_neg (textLevels_plain text)]
    simp only [List.mem_append, not_or]
    exact ⟨⟨stamp, named⟩, cut 4053 _⟩

/-! ## Lines of messages -/

/-- The entry of a message. -/
def entryOf (localtime : Int → Tm) (request : Int × LogCall) : LogEntry :=
  ⟨request.2.toLogAnswers, bodyOf localtime request ++ [0x0a]⟩

/-- A message that can be read makes its line. -/
theorem entry_readable (readable : Readable localtime request) :
    request.2.entry localtime request.1 = .ok (some (entryOf localtime request)) := by
  unfold LogCall.entry
  rw [logvLine_bytes readable.stamped readable.line]
  show Except.ok (some (LogEntry.mk _ (readAt (filled 0 _) 0 (Int.toNat _)))) = _
  rw [Int.toNat_natCast, readAt_filled]
  rfl

/-- Messages that can be read make their lines. -/
theorem linesOf_readable (readable : ∀ request ∈ requests, Readable localtime request) :
    linesOf localtime requests = requests.map (entryOf localtime) := by
  induction requests with
  | nil => rfl
  | cons request requests ih =>
    rw [linesOf_cons (entry_readable (readable request List.mem_cons_self)),
      ih fun other member => readable other (List.mem_cons_of_mem _ member)]
    rfl

/-- They are put together. -/
theorem assembled_readable (readable : ∀ request ∈ requests, Readable localtime request) :
    Assembled localtime requests :=
  fun request member => ⟨_, entry_readable (readable request member)⟩

/-! ## Files -/

/-- The bytes of a file. -/
def Files.bytes (files : Files) (path : Pathname) : List UInt8 := (files.contents path).flatten

/-- The bytes of the rotated files, one after the other, and of the current one. -/
def Logging.bytes (s : Logging) : List UInt8 :=
  s.rotated.flatMap s.files.bytes ++ s.files.bytes s.logger.name

/-- Where no two rotations had one name the files have the lines in their order. -/
theorem Shelved.bytes {rotatesize : Nat} {v : Shelf} (shelved : Shelved name rotatesize s v)
    (once : (v.batches.map Prod.fst).Nodup) : s.bytes = v.lines.flatten := by
  have rotated : s.rotated.flatMap s.files.bytes =
      v.batches.flatMap fun batch => batch.2.flatten := by
    rw [shelved.rotated, List.flatMap_map]
    refine List.flatMap_congr fun batch member => ?_
    have path : batch.1 ∈ s.rotated := by
      rw [shelved.rotated]
      exact List.mem_map_of_mem member
    show (s.files.contents batch.1).flatten = _
    rw [shelved.batches batch.1 path, stored_once once batch member]
  have gathered : (v.batches.flatMap Prod.snd).flatten =
      v.batches.flatMap fun batch => batch.2.flatten := by
    rw [← List.flatMap_id, List.flatMap_assoc]
    exact List.flatMap_congr fun batch _ => List.flatMap_id
  unfold Logging.bytes Shelf.lines
  rw [rotated, shelved.named, List.flatten_append, gathered]
  show _ ++ (s.files.contents name).flatten = _
  rw [shelved.current]

/-! ## Messages -/

/-- Messages logged on a new file, with everything succeeding, are read back from the files. -/
theorem read_messages {level rotate_size : Int} {opened : Bool} {files : Files}
    (created : loggerCreate level rotate_size name opened files = .ok (some s))
    (plain : standardStream name = none) (blank : s.files.contents name = [])
    (readable : ∀ request ∈ requests, Readable localtime request)
    (granted : ∀ request ∈ requests, (entryOf localtime request).Granted)
    (fits : ∀ entry ∈ rotations (rotateBytes rotate_size) 0 (requests.map (entryOf localtime)),
      (entry.target localtime name).length < pathMax)
    (distinct : ((rotations (rotateBytes rotate_size) 0
      (requests.map (entryOf localtime))).map (LogEntry.target localtime name)).Nodup) :
    ∃ results s', calls (logRequest localtime) requests s = .ok (results, s') ∧
      readAll 0x0a readLine s'.bytes = some (requests.map (recordOf localtime)) := by
  have allowed := loggerCreate_allowed created
  have start := loggerCreate_onFile plain created
  have size : s.logger.rotatesize = rotateBytes rotate_size := allowed.rotatesize
  have count : s.logger.wcurr = 0 := allowed.wcurr rfl
  have named : s.logger.name = name := allowed.name
  have granted' : ∀ entry ∈ requests.map (entryOf localtime), entry.Granted := by
    intro entry member
    obtain ⟨request, there, rfl⟩ := List.mem_map.mp member
    exact granted request there
  rw [← size, ← count, ← named] at fits distinct
  obtain ⟨_, last, written, shelved⟩ := start.shelved.run granted' fits
  have same := logged_calls (assembled_readable readable) s
  rw [linesOf_readable readable] at same
  obtain ⟨⟨results, s'⟩, ended, alike⟩ := ends_alike same written
  -- the files are those that the lines leave
  have bytes : s'.bytes = last.bytes := by
    show (s'.setlevel levelNone).bytes = (last.setlevel levelNone).bytes
    rw [show s'.setlevel levelNone = last.setlevel levelNone from alike]
  have names := Shelf.names_run localtime s.logger.name s.logger.rotatesize s.shelf
    (requests.map (entryOf localtime))
  have once : (((requests.map (entryOf localtime)).foldl
      (Shelf.next localtime s.logger.name s.logger.rotatesize) s.shelf).batches.map
        Prod.fst).Nodup := by
    rw [names]
    exact distinct
  have lines := Shelf.lines_run localtime s.logger.name s.logger.rotatesize s.shelf
    (requests.map (entryOf localtime))
  have before : s.shelf.lines = [] := by
    show ([] : List Line) ++ s.files.contents s.logger.name = []
    rw [named, blank]
    rfl
  have all : last.bytes = joined 0x0a (requests.map (bodyOf localtime)) := by
    rw [shelved.bytes once, lines, before, List.nil_append, List.map_map]
    unfold joined
    rw [List.flatMap_map]
    rfl
  refine ⟨results, s', ended, ?_⟩
  rw [bytes, all]
  exact readAll_joined (fun request member => readLine_bodyOf (readable request member))
    (fun request member => bodyOf_line (readable request member))

/-! ## Threads -/

/-- Whatever threads log on a new file, one statement at a time and in any order, is read back from
its bytes and those of the files it was rotated to: whenever no call is under way they tell the
time, the level, the text and the data of every message, in the order in which the threads took
the lock. -/
theorem log_reads_back {level rotate_size : Int} {opened : Bool} {files : Files}
    (created : loggerCreate level rotate_size name opened files = .ok (some s))
    (plain : standardStream name = none) (blank : s.files.contents name = []) {n : Nat}
    {threads : LogThreads}
    (reached : Reach (Sections.step (logSection localtime)) (fun _ _ => True)
      (fun t => t = .create s n) threads)
    (unlocked : threads.locked = false)
    (readable : ∀ request ∈ threads.entered.map Prod.snd, Readable localtime request)
    (granted : ∀ request ∈ threads.entered.map Prod.snd, (entryOf localtime request).Granted)
    (fits : ∀ entry ∈ rotations (rotateBytes rotate_size) 0
      ((threads.entered.map Prod.snd).map (entryOf localtime)),
        (entry.target localtime name).length < pathMax)
    (distinct : ((rotations (rotateBytes rotate_size) 0
      ((threads.entered.map Prod.snd).map (entryOf localtime))).map
        (LogEntry.target localtime name)).Nodup) :
    threads.failed = none ∧ readAll 0x0a readLine threads.shared.bytes =
      some ((threads.entered.map Prod.snd).map (recordOf localtime)) := by
  obtain ⟨results, s', ended, read⟩ :=
    read_messages created plain blank readable granted fits distinct
  have row := (calls_serialize (logSection_whole localtime) reached).1
  have fine : threads.failed = none := by
    cases failed : threads.failed with
    | none => rfl
    | some fault =>
      have wrong := row.failed fault failed
      rw [ended] at wrong
      cases wrong
  have called := (row.free fine unlocked).2
  rw [ended] at called
  have left : s' = threads.shared := (Prod.mk.inj (Except.ok.inj called)).2
  rw [← left]
  exact ⟨fine, read⟩

/-- Bytes with a text, a clock that stands still and a file that takes them. -/
def dumpCall (text : String) (bytes : List UInt8) : LogCall :=
  ⟨⟨true, 0, true, true⟩, ⟨ascii text, some fun i => bytes.getD i 0, bytes.length⟩, 0, 0,
    fun _ => 0⟩

/-- Two threads log, one a text and the other two bytes. -/
theorem log_reads_back_two : ∃ threads : LogThreads,
    readAll 0x0a readLine threads.shared.bytes = some
      [⟨timestamp ⟨115, 11, 11, 0, 0, 0⟩ 0, levelHex, ascii "got ", [0xab, 0x7e]⟩,
        ⟨timestamp ⟨115, 11, 11, 0, 0, 0⟩ 0, levelInfo, ascii "up", []⟩] := by
  have begun : (run (Sections.step (logSection fun _ => ⟨115, 11, 11, 0, 0, 0⟩))
      (Sections.create fileLogging 2)
      ([.call 0 (levelInfo, plainCall "up"), .call 1 (levelHex, dumpCall "got " [0xab, 0x7e])] ++
        List.replicate 20 (.thread 1) ++ List.replicate 20 (.thread 0))).map
          (fun s => (s.locked, s.entered.map Prod.snd)) =
      some (false, [(levelHex, dumpCall "got " [0xab, 0x7e]), (levelInfo, plainCall "up")]) := rfl
  obtain ⟨threads, ran, found⟩ := Option.map_eq_some_iff.mp begun
  obtain ⟨unlocked, entered⟩ := Prod.mk.inj found
  have start : Reach (Sections.step (logSection fun _ => ⟨115, 11, 11, 0, 0, 0⟩)) (fun _ _ => True)
      (fun s => s = .create fileLogging 2) (.create fileLogging 2) := .refl rfl
  have reached := start.of_run (fun _ _ _ => trivial) ran
  have none' : rotations (rotateBytes 1) 0
      ([(levelHex, dumpCall "got " [0xab, 0x7e]), (levelInfo, plainCall "up")].map
        (entryOf fun _ => ⟨115, 11, 11, 0, 0, 0⟩)) = [] :=
    List.length_eq_zero_iff.mp (by decide +kernel)
  have read := log_reads_back fileLogging_created (by decide) rfl reached unlocked
    (by
      rw [entered]
      intro request member
      simp only [List.mem_cons, List.not_mem_nil, or_false] at member
      rcases member with rfl | rfl
      · exact ⟨by decide, .inl rfl, ⟨by decide, by decide, by decide⟩, by decide +kernel,
          by decide⟩
      · exact ⟨by decide, .inr (by decide), ⟨by decide, by decide, by decide⟩, by decide +kernel,
          by decide⟩)
    (by
      rw [entered]
      intro request member
      simp only [List.mem_cons, List.not_mem_nil, or_false] at member
      rcases member with rfl | rfl <;> decide)
    (by
      rw [entered, none']
      exact fun entry member => absurd member List.not_mem_nil)
    (by
      rw [entered, none']
      exact List.nodup_nil)
  rw [entered] at read
  exact ⟨threads, read.2⟩

end EpollNet
