import EpollNet.Basis.Records
import EpollNet.Net.ConnObj

/-!
# `log.c`

`logv` puts a line together in a buffer of fixed size, writes it to the stream of the logger and
rotates the file when enough has been written to it. Every function that logs holds the lock of the
logger, so that calls follow one another.
-/

namespace EpollNet

open EpollNet.Basis

/-- What makes a call on the logger undefined. -/
inductive LogFault where
  /-- A store outside of `buf` or `hex`. -/
  | outside
  /-- A load through a `NULL` `data`. -/
  | nullData
  /-- A write to a `NULL` stream. -/
  | nullStream
  /-- A path that is longer than the array it is put into. -/
  | overrun
deriving DecidableEq

/-! ## Text -/

/-- The bytes of a literal. -/
def ascii (s : String) : List UInt8 := s.toList.map fun c => c.toNat.toUInt8

/-- What `%0` with a width and `d` formats. -/
def zeroPadded (width : Nat) (n : Int) : List UInt8 :=
  let digits := (Nat.toDigits 10 n.natAbs).map fun c => c.toNat.toUInt8
  if n < 0 then ascii "-" ++ (List.replicate (width - 1 - digits.length) 0x30 ++ digits)
  else List.replicate (width - digits.length) 0x30 ++ digits

/-- The fields of a `struct tm`. -/
structure Tm where
  /-- Years since 1900. -/
  tm_year : Int
  /-- Months since January. -/
  tm_mon : Int
  /-- The day of the month. -/
  tm_mday : Int
  /-- Hours. -/
  tm_hour : Int
  /-- Minutes. -/
  tm_min : Int
  /-- Seconds. -/
  tm_sec : Int
deriving DecidableEq

/-- The time at the front of a line. -/
def timestamp (tm : Tm) (tv_usec : Int) : List UInt8 :=
  zeroPadded 4 (tm.tm_year + 1900) ++ ascii "-" ++ zeroPadded 2 (tm.tm_mon + 1) ++ ascii "-" ++
    zeroPadded 2 tm.tm_mday ++ ascii " " ++ zeroPadded 2 tm.tm_hour ++ ascii ":" ++
    zeroPadded 2 tm.tm_min ++ ascii ":" ++ zeroPadded 2 tm.tm_sec ++ ascii "." ++
    zeroPadded 3 (tv_usec.tdiv 1000) ++ ascii " "

/-- A path, without the byte that ends it. -/
abbrev Pathname := List UInt8

/-- The `newpath` of `rotate`. -/
def rotatedName (name : Pathname) (tm : Tm) : Pathname :=
  name ++ ascii "." ++ zeroPadded 4 (tm.tm_year + 1900) ++ zeroPadded 2 (tm.tm_mon + 1) ++
    zeroPadded 2 tm.tm_mday ++ ascii "-" ++ zeroPadded 2 tm.tm_hour ++ zeroPadded 2 tm.tm_min ++
    zeroPadded 2 tm.tm_sec

/-- `strcasecmp` answers 0. -/
def sameName (name other : List UInt8) : Bool :=
  let lower (c : UInt8) : UInt8 := if 0x41 ≤ c ∧ c ≤ 0x5a then c + 0x20 else c
  decide (name.map lower = other.map lower)

/-! ## Levels -/

/-- `LEVEL_NONE`. -/
def levelNone : Int := 0

/-- `LEVEL_ERROR`. -/
def levelError : Int := 1

/-- `LEVEL_WARN`. -/
def levelWarn : Int := 2

/-- `LEVEL_DEBUG`. -/
def levelDebug : Int := 3

/-- `LEVEL_INFO`. -/
def levelInfo : Int := 4

/-- `LEVEL_HEX`. -/
def levelHex : Int := 5

/-- `LEVEL_NAME_LEN`. -/
def levelNameLen : Nat := 8

/-- `getLevelName`, without the byte that ends it. -/
def getLevelName (level : Int) : List UInt8 :=
  if level = levelNone then ascii "[NONE] "
  else if level = levelError then ascii "[ERROR] "
  else if level = levelWarn then ascii "[WARN] "
  else if level = levelInfo then ascii "[INFO] "
  else if level = levelDebug then ascii "[DEBUG] "
  else if level = levelHex then ascii "[HEX] "
  else []

/-- The bytes copied from the name of a level on. A short name ends before the last of them. -/
def levelBytes (behind : Memory) (level : Int) : List UInt8 :=
  (behind.store (getLevelName level ++ [0])).copy levelNameLen

/-! ## The line -/

/-- `LOG_BUF_LEN`. -/
def logBufLen : Nat := 4096

/-- Bytes stored into `buf` or `hex` from an offset on. -/
def storeAt (area : Memory) (pos : Int) (bytes : List UInt8) : Except LogFault Memory :=
  if bytes = [] ∨ 0 ≤ pos ∧ pos + bytes.length ≤ logBufLen then
    .ok (writeAt area pos.toNat bytes)
  else .error .outside

/-- What `vsnprintf` returns: the length the text would have, unless it is no `int`. -/
def formattedLen (text : List UInt8) : Int := if text.length < 2 ^ 31 then text.length else -1

/-- `vsnprintf` of a text into `buf`. -/
def vsnprintf (buf : Memory) (ptr : Int) (size : Nat) (text : List UInt8) :
    Except LogFault (Int × Memory) := do
  let buf ← storeAt buf ptr (if size = 0 then [] else text.take (size - 1) ++ [0])
  .ok (formattedLen text, buf)

/-- `hex_chars`. -/
def hexChars : List UInt8 := ascii "0123456789ABCDEF"

/-- How many bytes `e` lies above `b`. Above `NULL` it does unless it is equal. -/
def hexSpan (data : Option Memory) (datalen : Int) : Nat :=
  match data with
  | none => (datalen % 2 ^ 64).toNat
  | some _ => datalen.toNat

/-- The loop of `logv` over `data`, with so many bytes left from `b` on: `index`, and `hex`. -/
def hexLoop (data : Option Memory) : Nat → Nat → Nat → Memory → Except LogFault (Nat × Memory)
  | 0, _, index, hex => .ok (index, hex)
  | left + 1, b, index, hex =>
    if index < logBufLen - 1 then
      match data with
      | none => .error .nullData
      | some data => do
        let hex ← storeAt hex index [hexChars.getD (data b >>> 4 &&& 0x0F).toNat 0]
        let hex ← storeAt hex (index + 1 : Nat) [hexChars.getD (data b &&& 0x0F).toNat 0]
        hexLoop (some data) left (b + 1) (index + 1 + 1) hex
    else .ok (index, hex)

/-- What is logged: the text that the format makes, and the data. -/
structure LogMessage where
  /-- The text in full. -/
  text : List UInt8
  /-- `data`. -/
  data : Option Memory
  /-- `datalen`. -/
  datalen : Int

/-- The dump of the data, and how long it is. -/
def logvDump (buf : Memory) (ptr : Int) (msg : LogMessage) : Except LogFault (Int × Memory) := do
  let (index, hex) ← hexLoop msg.data (hexSpan msg.data msg.datalen) 0 0 (fun _ => 0)
  let buf ← storeAt buf ptr (readAt hex 0 index)
  .ok (index, buf)

/-- The end of the line, behind a text of a length for which there is so much space. -/
def logvEnd (buf : Memory) (ptr space len : Int) : Except LogFault (Option (Memory × Int)) :=
  if len < 0 then .ok none
  else do
    let ptr := ptr + if len > space then space else len
    let buf ← storeAt buf ptr (ascii "\n")
    let ptr := ptr + 1
    let buf ← storeAt buf ptr [0]
    .ok (some (buf, ptr))

/-- The line from the name of the level on, which goes to `ptr`. -/
def logvRest (behind : Memory) (level : Int) (buf : Memory) (ptr : Int) (msg : LogMessage) :
    Except LogFault (Option (Memory × Int)) := do
  let buf ← storeAt buf ptr (levelBytes behind level)
  let ptr := ptr + levelNameLen
  let space := (logBufLen - ptr - 10).bmod (2 ^ 32)
  let (len, buf) ←
    if level = levelHex then logvDump buf ptr msg
    else vsnprintf buf ptr (space % 2 ^ 64).toNat msg.text
  logvEnd buf ptr space len

/-- `logv` up to its `fwrite`: `buf` and the length, unless it returns -1. -/
def logvLine (behind : Memory) (level : Int) (stamp : List UInt8) (msg : LogMessage) :
    Except LogFault (Option (Memory × Int)) := do
  let buf ← storeAt (fun _ => 0) 0 (stamp ++ [0])
  let ptr : Int := stamp.length
  if level = levelHex then
    let (offset, buf) ← vsnprintf buf ptr 1024 msg.text
    logvRest behind level buf (ptr + offset) msg
  else logvRest behind level buf ptr msg

/-! ## Files -/

/-- A line that was written. -/
abbrev Line := List UInt8

/-- The files there are, by number, and the paths that name them. -/
structure Files where
  /-- The file a path names. -/
  names : Pathname → Option Nat
  /-- The lines of a file. -/
  lines : Nat → List Line
  /-- The number of the next file. -/
  next : Nat
  /-- Files have numbers below it. -/
  numbered : ∀ path f, names path = some f → f < next

/-- `rename` that succeeds. What the target named loses its name. -/
def Files.rename (files : Files) (old new : Pathname) : Files where
  names := Function.update (Function.update files.names new (files.names old)) old none
  lines := files.lines
  next := files.next
  numbered path f named := by
    by_cases gone : path = old
    · rw [gone, Function.update_self] at named
      cases named
    · rw [Function.update_of_ne gone] at named
      by_cases target : path = new
      · rw [target, Function.update_self] at named
        exact files.numbered old f named
      · rw [Function.update_of_ne target] at named
        exact files.numbered path f named

/-- A file made under a path. -/
def Files.create (files : Files) (path : Pathname) : Files where
  names := Function.update files.names path (some files.next)
  lines := Function.update files.lines files.next []
  next := files.next + 1
  numbered other f named := by
    by_cases here : other = path
    · rw [here, Function.update_self] at named
      obtain rfl := Option.some.inj named
      exact Nat.lt_succ_self _
    · rw [Function.update_of_ne here] at named
      exact Nat.lt_succ_of_lt (files.numbered other f named)

/-- `fopen` for appending that succeeds: the file it opens. -/
def Files.append (files : Files) (path : Pathname) : Nat × Files :=
  match files.names path with
  | some f => (f, files)
  | none => (files.next, files.create path)

/-- A `FILE`. -/
inductive FileStream where
  /-- `stdout`. -/
  | stdout
  /-- `stderr`. -/
  | stderr
  /-- One that was opened on a file. -/
  | file (number : Nat)
deriving DecidableEq

/-- `fwrite` and `fflush` that succeed. -/
def Files.fwrite (files : Files) (stream : FileStream) (line : Line) : Files :=
  match stream with
  | .file f => { files with lines := Function.update files.lines f (files.lines f ++ [line]) }
  | _ => files

/-! ## The logger -/

/-- `PATH_MAX`. -/
def pathMax : Nat := 256

/-- `struct taglogger`, without its lock. -/
structure Logger where
  /-- `name`. -/
  name : Pathname
  /-- `level`. -/
  level : Int
  /-- `fp`, unless `NULL`. -/
  fp : Option FileStream
  /-- `wcurr`. -/
  wcurr : Nat
  /-- `wtotal`. -/
  wtotal : Nat
  /-- `rotatesize`. -/
  rotatesize : Nat

/-- The logger, and what it did. -/
structure Logging where
  /-- `loggobj`. -/
  logger : Logger
  /-- The file system. -/
  files : Files
  /-- The files of the streams that the logger opened and did not close. -/
  opened : List Nat
  /-- The paths that `rotate` renamed the file to. -/
  rotated : List Pathname

/-- An `unsigned long long`. -/
def asUllong (n : Int) : Nat := (n % 2 ^ 64).toNat

/-- `fclose`. -/
def Logging.fclose (s : Logging) : FileStream → Logging
  | .file f => { s with opened := s.opened.erase f }
  | _ => s

/-- What the calls of `logv` answer, from its `fwrite` on. -/
structure LogAnswers where
  /-- `fwrite` succeeds. -/
  written : Bool
  /-- `tv_sec` of `gettimeofday` in `rotate`. -/
  now : Int
  /-- `rename` succeeds. -/
  renamed : Bool
  /-- `fopen` succeeds. -/
  opened : Bool

/-- `rotate`. The stream is lost before it is saved. -/
def Logging.rotate (localtime : Int → Tm) (answers : LogAnswers) (s : Logging) :
    Except LogFault Logging :=
  let s := { s with logger := { s.logger with fp := none } }
  let newpath := rotatedName s.logger.name (localtime answers.now)
  if pathMax ≤ newpath.length then .error .overrun
  else if answers.renamed = false then .ok s
  else
    let s := { s with
      files := s.files.rename s.logger.name newpath
      rotated := s.rotated ++ [newpath] }
    let tmp_fp := s.logger.fp
    if answers.opened = false then .ok s
    else
      let (f, files) := s.files.append s.logger.name
      let s := { s with
        logger := { s.logger with fp := some (.file f), wcurr := 0, wtotal := 0 }
        files := files
        opened := f :: s.opened }
      match tmp_fp with
      | some stream => .ok (s.fclose stream)
      | none => .ok s

/-- A line for `logvWrite`. -/
structure LogEntry extends LogAnswers where
  /-- The bytes. -/
  line : Line

/-- `fwrite` and `fflush`, and the counts after them. -/
def Logging.fwrite (entry : LogEntry) (stream : FileStream) (s : Logging) : Logging :=
  { s with
    files := if entry.written then s.files.fwrite stream entry.line else s.files
    logger := { s.logger with
      wcurr := asUllong (s.logger.wcurr + entry.line.length)
      wtotal := asUllong (s.logger.wtotal + entry.line.length) } }

/-- `logv` from its `fwrite` on. -/
def Logging.logvWrite (localtime : Int → Tm) (entry : LogEntry) (s : Logging) :
    Except LogFault (Int × Logging) :=
  match s.logger.fp with
  | none => .error .nullStream
  | some stream =>
    let s := s.fwrite entry stream
    if s.logger.rotatesize > 0 ∧ s.logger.wcurr > s.logger.rotatesize then do
      let s ← s.rotate localtime entry.toLogAnswers
      .ok (0, s)
    else .ok (0, s)

/-- What a function that logs is called with, and its clock and answers. -/
structure LogCall extends LogAnswers where
  /-- The message. -/
  msg : LogMessage
  /-- `tv_sec` of `gettimeofday` in `logv`. -/
  tv_sec : Int
  /-- `tv_usec`. -/
  tv_usec : Int
  /-- What lies behind the name of a level. -/
  behind : Memory

/-- `logv`. -/
def Logging.logv (localtime : Int → Tm) (call : LogCall) (s : Logging) :
    Except LogFault (Int × Logging) := do
  match ← logvLine call.behind s.logger.level (timestamp (localtime call.tv_sec) call.tv_usec)
      call.msg with
  | none => .ok (-1, s)
  | some (buf, len) => s.logvWrite localtime ⟨call.toLogAnswers, readAt buf 0 len.toNat⟩

/-- `setlevel`. -/
def Logging.setlevel (level : Int) (s : Logging) : Logging :=
  { s with logger := { s.logger with level := level } }

/-- What a function that logs does under the lock. -/
def Logging.logAt (localtime : Int → Tm) (level : Int) (call : LogCall) (s : Logging) :
    Except LogFault (Int × Logging) :=
  (s.setlevel level).logv localtime call

/-- `loghex`; the others give `logv` no data. -/
def Logging.loghex (localtime : Int → Tm) (call : LogCall) (s : Logging) :
    Except LogFault (Int × Logging) :=
  s.logAt localtime levelHex call

/-- A function that logs a text at a level. -/
def Logging.logText (localtime : Int → Tm) (level : Int) (call : LogCall) (s : Logging) :
    Except LogFault (Int × Logging) :=
  s.logAt localtime level { call with msg := ⟨call.msg.text, none, 0⟩ }

/-- `logerror`. -/
def Logging.logerror (localtime : Int → Tm) := Logging.logText localtime

/-- `logdebug`. -/
def Logging.logdebug (localtime : Int → Tm) := Logging.logText localtime

/-- `logwarn`. -/
def Logging.logwarn (localtime : Int → Tm) := Logging.logText localtime

/-- `loginfo`. -/
def Logging.loginfo (localtime : Int → Tm) := Logging.logText localtime

/-- The bytes of a number of megabytes, whose product is an `int`. -/
def rotateBytes (rotate_size : Int) : Nat := asUllong ((rotate_size * 1024 * 1024).bmod (2 ^ 32))

/-- The stream that `name` stands for, if it stands for one. -/
def standardStream (name : Pathname) : Option FileStream :=
  if sameName name (ascii "stdout") then some .stdout
  else if sameName name (ascii "stderr") then some .stderr
  else none

/-- `Logger_Create`. -/
def loggerCreate (level rotate_size : Int) (name : Pathname) (granted : Bool) (files : Files) :
    Except LogFault (Option Logging) :=
  if pathMax < name.length then .error .overrun
  else
    let logger : Logger := ⟨name, level, none, 0, 0, rotateBytes rotate_size⟩
    match standardStream name with
    | some stream => .ok (some ⟨{ logger with fp := some stream }, files, [], []⟩)
    | none =>
      if granted then
        let (f, files) := files.append name
        .ok (some ⟨{ logger with fp := some (.file f) }, files, [f], []⟩)
      else .ok none

/-- `logclose`, which closes `stderr` too. -/
def Logging.logclose (s : Logging) : Except LogFault Logging :=
  match s.logger.fp with
  | none => .error .nullStream
  | some .stdout => .ok s
  | some stream => .ok (s.fclose stream)

/-- `Logger_Destory`, once it has cleared the lock. -/
def Logging.loggerDestory (s : Logging) : Except LogFault Logging := s.logclose

end EpollNet
