import EpollNet.Basis.Sections
import EpollNet.Net.Log

/-!
# `log.c` under its lock

The functions that log take the lock of the logger, set its level, call `logv` and give the lock
back. Each access of `logv` and of `rotate` to the logger, to its stream and to the file system is a
step of its own here, with other threads' steps in between.
-/

namespace EpollNet

open EpollNet.Basis

/-- The locals of `logv` and of `rotate`, and what `logv` returned. -/
structure LogvOwn where
  /-- `buf`. -/
  buf : Memory
  /-- `ptr`, from `buf` on. -/
  ptr : Int
  /-- `space`. -/
  space : Int
  /-- `len`. -/
  len : Int
  /-- `newpath`. -/
  newpath : Pathname
  /-- `tmp_fp`. -/
  tmp_fp : Option FileStream
  /-- The returned value. -/
  ret : Option Int

/-- A step of `logv` or of `rotate`. -/
abbrev LogStage := Stage LogFault Logging LogvOwn

/-- Once `logv` has returned nothing more is done. -/
def unlessReturned (act : Logging → LogvOwn → Except LogFault (Logging × LogvOwn)) : LogStage :=
  fun here =>
    match here.2.ret with
    | some _ => .ok here
    | none => act here.1 here.2

/-! ## The line -/

/-- The `sprintf` of the time. -/
def stampStage (localtime : Int → Tm) (call : LogCall) : LogStage :=
  unlessReturned fun s own => do
    let stamp := timestamp (localtime call.tv_sec) call.tv_usec
    let buf ← storeAt own.buf 0 (stamp ++ [0])
    .ok (s, { own with buf := buf, ptr := stamp.length })

/-- The first test of the level, and the text ahead of a dump. -/
def headStage (call : LogCall) : LogStage :=
  unlessReturned fun s own =>
    if s.logger.level = levelHex then do
      let (offset, buf) ← vsnprintf own.buf own.ptr 1024 call.msg.text
      .ok (s, { own with buf := buf, ptr := own.ptr + offset })
    else .ok (s, own)

/-- The `memcpy` of the level's name, and `space`. -/
def nameStage (call : LogCall) : LogStage :=
  unlessReturned fun s own => do
    let buf ← storeAt own.buf own.ptr (levelBytes call.behind s.logger.level)
    let ptr := own.ptr + levelNameLen
    .ok (s, { own with buf := buf, ptr := ptr, space := (logBufLen - ptr - 10).bmod (2 ^ 32) })

/-- The second test of the level, and the dump or the text. -/
def textStage (call : LogCall) : LogStage :=
  unlessReturned fun s own => do
    let (len, buf) ←
      if s.logger.level = levelHex then logvDump own.buf own.ptr call.msg
      else vsnprintf own.buf own.ptr (own.space % 2 ^ 64).toNat call.msg.text
    .ok (s, { own with buf := buf, len := len })

/-- The test of `len`, the end of the line and its length. -/
def endStage : LogStage :=
  unlessReturned fun s own => do
    match ← logvEnd own.buf own.ptr own.space own.len with
    | none => .ok (s, { own with ret := some (-1) })
    | some (buf, ptr) => .ok (s, { own with buf := buf, ptr := ptr, len := ptr })

/-! ## The file -/

/-- `fwrite` and `fflush`. -/
def fwriteStage (call : LogCall) : LogStage :=
  unlessReturned fun s own =>
    match s.logger.fp with
    | none => .error .nullStream
    | some stream =>
      let line := readAt own.buf 0 own.len.toNat
      .ok ({ s with files := if call.written then s.files.fwrite stream line else s.files }, own)

/-- `logger->wcurr += len`. -/
def wcurrStage : LogStage :=
  unlessReturned fun s own =>
    .ok ({ s with logger := { s.logger with wcurr := asUllong (s.logger.wcurr + own.len) } }, own)

/-- `logger->wtotal += len`. -/
def wtotalStage : LogStage :=
  unlessReturned fun s own =>
    .ok ({ s with logger := { s.logger with wtotal := asUllong (s.logger.wtotal + own.len) } }, own)

/-- The test for a rotation. -/
def fullStage : LogStage :=
  unlessReturned fun s own =>
    if s.logger.rotatesize > 0 ∧ s.logger.wcurr > s.logger.rotatesize then .ok (s, own)
    else .ok (s, { own with ret := some 0 })

/-! ## `rotate` -/

/-- `logger->fp = NULL`. -/
def dropStage : LogStage :=
  unlessReturned fun s own => .ok ({ s with logger := { s.logger with fp := none } }, own)

/-- The `sprintf` of the path. -/
def pathStage (localtime : Int → Tm) (call : LogCall) : LogStage :=
  unlessReturned fun s own =>
    let newpath := rotatedName s.logger.name (localtime call.now)
    if pathMax ≤ newpath.length then .error .overrun
    else .ok (s, { own with newpath := newpath })

/-- `rename`, and the test of its result. -/
def renameStage (call : LogCall) : LogStage :=
  unlessReturned fun s own =>
    if call.renamed = false then .ok (s, { own with ret := some 0 })
    else
      .ok ({ s with
        files := s.files.rename s.logger.name own.newpath
        rotated := s.rotated ++ [own.newpath] }, own)

/-- `FILE *tmp_fp = logger->fp`. -/
def saveStage : LogStage :=
  unlessReturned fun s own => .ok (s, { own with tmp_fp := s.logger.fp })

/-- `logger->fp = fopen(logger->name, "a")`, and the test of it. -/
def fopenStage (call : LogCall) : LogStage :=
  unlessReturned fun s own =>
    if call.opened = false then
      .ok ({ s with logger := { s.logger with fp := none } }, { own with ret := some 0 })
    else
      let (f, files) := s.files.append s.logger.name
      .ok ({ s with
        logger := { s.logger with fp := some (.file f) }
        files := files
        opened := f :: s.opened }, own)

/-- `logger->wcurr = 0`. -/
def wcurrZeroStage : LogStage :=
  unlessReturned fun s own => .ok ({ s with logger := { s.logger with wcurr := 0 } }, own)

/-- `logger->wtotal = 0`. -/
def wtotalZeroStage : LogStage :=
  unlessReturned fun s own => .ok ({ s with logger := { s.logger with wtotal := 0 } }, own)

/-- The `fclose` of what was saved, unless it is `NULL`; and `logv` returns. -/
def fcloseStage : LogStage :=
  unlessReturned fun s own =>
    match own.tmp_fp with
    | some stream => .ok (s.fclose stream, { own with ret := some 0 })
    | none => .ok (s, { own with ret := some 0 })

/-! ## The functions that log -/

/-- `setlevel`. -/
def levelStage (level : Int) : LogStage := fun here => .ok (here.1.setlevel level, here.2)

/-- The steps of `logv` up to its `fwrite`. -/
def lineStages (localtime : Int → Tm) (call : LogCall) : List LogStage :=
  [stampStage localtime call, headStage call, nameStage call, textStage call, endStage]

/-- Those from its `fwrite` to its test for a rotation. -/
def writeStages (call : LogCall) : List LogStage :=
  [fwriteStage call, wcurrStage, wtotalStage, fullStage]

/-- Those of `rotate`. -/
def rotateStages (localtime : Int → Tm) (call : LogCall) : List LogStage :=
  [dropStage, pathStage localtime call, renameStage call, saveStage, fopenStage call,
    wcurrZeroStage, wtotalZeroStage, fcloseStage]

/-- What a function that logs does between `lock` and `unlock`, for a level and a message. -/
def logSection (localtime : Int → Tm) : Section (Int × LogCall) LogFault Int Logging LogvOwn where
  enter _ := ⟨fun _ => 0, 0, 0, 0, [], none, none⟩
  steps request := levelStage request.1 :: (lineStages localtime request.2 ++
    (writeStages request.2 ++ rotateStages localtime request.2))
  result own := own.ret.getD 0

/-- Threads that log: how the logger, its files and they stand. -/
abbrev LogThreads := Sections (Int × LogCall) LogFault Int Logging LogvOwn

end EpollNet
