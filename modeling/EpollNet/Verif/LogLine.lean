import EpollNet.Basis.Calls
import EpollNet.Net.Log
import Mathlib.Tactic.Common

/-!
# Lines in a buffer of fixed size

The text of a line is cut to the space there is. The dump of data is not, and it lies behind the
length that the message before it would have, whether or not it was cut: a line with data stays in
its buffer as long as both leave room.
-/

namespace EpollNet

open EpollNet.Basis

/-! ## What is demanded -/

/-- Nothing is stored outside of `buf` and `hex`, and the length written is less than that of
`buf`. -/
def LineInside (line : Except LogFault (Option (Memory × Int))) : Prop :=
  line ≠ .error .outside ∧
    ∀ buf len, line = .ok (some (buf, len)) → 0 ≤ len ∧ len ≤ 4095

/-- How many digits of data are dumped. -/
def LogMessage.digits (msg : LogMessage) : Nat :=
  match msg.data with
  | none => 0
  | some _ => min (2 * msg.datalen.toNat) logBufLen

/-- A load through `NULL` is no store. -/
theorem lineInside_nullData : LineInside (.error .nullData) := by
  refine ⟨fun same => ?_, fun _ _ impossible => nomatch impossible⟩
  cases Except.error.inj same

/-- Nor is a return. -/
theorem lineInside_none : LineInside (.ok none) :=
  ⟨fun impossible => (nomatch impossible), fun _ _ impossible => nomatch impossible⟩

/-- A line of a length that is less than that of `buf`. -/
theorem lineInside_some {buf : Memory} {len : Int} (nonneg : 0 ≤ len) (small : len ≤ 4095) :
    LineInside (.ok (some (buf, len))) := by
  refine ⟨fun impossible => (nomatch impossible), fun buf' len' same => ?_⟩
  obtain ⟨_, rfl⟩ := Prod.mk.inj (Option.some.inj (Except.ok.inj same))
  exact ⟨nonneg, small⟩

/-! ## Stores -/

variable {area : Memory} {pos : Int} {bytes : List UInt8}

/-- A store inside of the area. -/
theorem storeAt_inside (lower : 0 ≤ pos) (upper : pos + bytes.length ≤ logBufLen) :
    storeAt area pos bytes = .ok (writeAt area pos.toNat bytes) :=
  if_pos (.inr ⟨lower, upper⟩)

/-- The store of a byte. -/
theorem storeAt_byte (lower : 0 ≤ pos) (upper : pos < logBufLen) (c : UInt8) :
    storeAt area pos [c] = .ok (writeAt area pos.toNat [c]) := by
  refine storeAt_inside lower ?_
  rw [List.length_singleton]
  omega

/-- A store that ends behind it. -/
theorem storeAt_outside (some' : 0 < bytes.length) (upper : logBufLen < pos + bytes.length) :
    storeAt area pos bytes = .error .outside := by
  refine if_neg ?_
  rintro (rfl | ⟨_, inside⟩)
  · exact absurd some' (Nat.lt_irrefl 0)
  · omega

/-- The bytes of a level are as many as are made room for. -/
theorem levelBytes_length (behind : Memory) (level : Int) :
    (levelBytes behind level).length = levelNameLen := by
  rw [levelBytes, Memory.copy, List.length_map, List.length_range]

/-- A text into as many bytes as there are. -/
theorem vsnprintf_inside (buf : Memory) {ptr : Int} {size : Nat} (text : List UInt8)
    (lower : 0 ≤ ptr) (upper : ptr + size ≤ logBufLen) :
    ∃ buf', vsnprintf buf ptr size text = .ok (formattedLen text, buf') := by
  have short :
      (if size = 0 then [] else text.take (size - 1) ++ [0] : List UInt8).length ≤ size := by
    split
    · exact Nat.zero_le _
    · rw [List.length_append, List.length_take, List.length_singleton]
      omega
  unfold vsnprintf
  rw [storeAt_inside lower (by omega)]
  exact ⟨_, rfl⟩

/-- What the text would have as length, but for one that is no `int`. -/
theorem formattedLen_ge (text : List UInt8) : -1 ≤ formattedLen text := by
  unfold formattedLen
  split <;> omega

/-! ## The dump -/

/-- The loop over data ends inside of `hex`, which it fills if the data go on. -/
theorem hexLoop_some (data : Memory) (left b : Nat) {index : Nat} (even : index % 2 = 0)
    (small : index ≤ logBufLen) (hex : Memory) :
    ∃ hex', hexLoop (some data) left b index hex =
      .ok (min (index + 2 * left) logBufLen, hex') := by
  have full : logBufLen = 4096 := rfl
  induction left generalizing b index hex with
  | zero =>
    rw [hexLoop, Nat.mul_zero, Nat.add_zero, Nat.min_eq_left small]
    exact ⟨hex, rfl⟩
  | succ left ih =>
    rw [hexLoop]
    by_cases more : index < logBufLen - 1
    · have first : (index : Int) < logBufLen := by omega
      have second : ((index + 1 : Nat) : Int) < logBufLen := by omega
      have even' : (index + 1 + 1) % 2 = 0 := by omega
      have small' : index + 1 + 1 ≤ logBufLen := by omega
      rw [if_pos more]
      obtain ⟨hex', looped⟩ := ih (b + 1) even' small'
        (writeAt (writeAt hex (index : Int).toNat [hexChars.getD (data b >>> 4 &&& 0x0F).toNat 0])
          ((index + 1 : Nat) : Int).toNat [hexChars.getD (data b &&& 0x0F).toNat 0])
      have total : index + 1 + 1 + 2 * left = index + 2 * (left + 1) := by omega
      rw [total] at looped
      refine ⟨hex', ?_⟩
      show (storeAt hex index _ >>= _) = _
      rw [storeAt_byte (Int.natCast_nonneg _) first, ok_bind,
        storeAt_byte (Int.natCast_nonneg _) second, ok_bind]
      exact looped
    · rw [if_neg more, Nat.min_eq_right (by omega)]
      have last : index = logBufLen := by omega
      rw [last]
      exact ⟨hex, rfl⟩

/-- Without data there is nothing to dump, or a load through `NULL`. -/
theorem hexLoop_none (left b : Nat) (hex : Memory) :
    hexLoop none left b 0 hex = if left = 0 then .ok (0, hex) else .error .nullData := by
  cases left with
  | zero => rfl
  | succ left => rfl

/-- The dump fits. -/
theorem logvDump_inside (buf : Memory) {ptr : Int} (msg : LogMessage) (lower : 0 ≤ ptr)
    (upper : ptr + msg.digits ≤ logBufLen) :
    logvDump buf ptr msg = .error .nullData ∨
      ∃ buf', logvDump buf ptr msg = .ok ((msg.digits : Int), buf') := by
  obtain ⟨text, data, datalen⟩ := msg
  unfold logvDump
  cases data with
  | none =>
    by_cases nothing : hexSpan none datalen = 0
    · right
      rw [hexLoop_none, if_pos nothing, ok_bind]
      exact ⟨_, rfl⟩
    · left
      rw [hexLoop_none, if_neg nothing]
      rfl
  | some data =>
    right
    obtain ⟨hex, looped⟩ := hexLoop_some data datalen.toNat 0 rfl (Nat.zero_le _) (fun _ => 0)
    rw [Nat.zero_add] at looped
    have fits : ptr + (readAt hex 0 (min (2 * datalen.toNat) logBufLen)).length ≤ logBufLen := by
      rw [readAt_length]
      exact upper
    refine ⟨writeAt buf ptr.toNat (readAt hex 0 (min (2 * datalen.toNat) logBufLen)), ?_⟩
    show (hexLoop (some data) datalen.toNat 0 0 _ >>= _) = _
    rw [looped, ok_bind]
    dsimp only
    rw [storeAt_inside lower fits, ok_bind]
    rfl

/-- The dump does not fit, where the message before it left room for the name of the level. -/
theorem logvDump_outside (buf : Memory) {ptr : Int} (msg : LogMessage) (start : ptr ≤ logBufLen)
    (upper : logBufLen < ptr + msg.digits) : logvDump buf ptr msg = .error .outside := by
  obtain ⟨text, data, datalen⟩ := msg
  unfold logvDump
  cases data with
  | none =>
    have nothing : ¬(logBufLen : Int) < ptr + ((0 : Nat) : Int) := by omega
    exact absurd upper nothing
  | some data =>
    obtain ⟨hex, looped⟩ := hexLoop_some data datalen.toNat 0 rfl (Nat.zero_le _) (fun _ => 0)
    rw [Nat.zero_add] at looped
    have digits : (LogMessage.mk text (some data) datalen).digits =
        min (2 * datalen.toNat) logBufLen := rfl
    rw [digits] at upper
    have some' : 0 < (readAt hex 0 (min (2 * datalen.toNat) logBufLen)).length := by
      rw [readAt_length]
      omega
    have beyond : logBufLen < ptr + (readAt hex 0 (min (2 * datalen.toNat) logBufLen)).length := by
      rw [readAt_length]
      exact upper
    show (hexLoop (some data) datalen.toNat 0 0 _ >>= _) = _
    rw [looped, ok_bind]
    dsimp only
    rw [storeAt_outside some' beyond]
    rfl

/-- The end of a line. -/
theorem logvEnd_inside (buf : Memory) {ptr space len : Int} (nonneg : 0 ≤ len)
    (lower : 0 ≤ ptr + min len space) (upper : ptr + min len space + 1 < logBufLen) :
    ∃ buf', logvEnd buf ptr space len = .ok (some (buf', ptr + min len space + 1)) := by
  have cut : (if len > space then space else len) = min len space := by
    split <;> omega
  have newline : ascii "\n" = [0x0a] := rfl
  unfold logvEnd
  rw [if_neg (Int.not_lt.mpr nonneg), cut, newline]
  dsimp only
  rw [storeAt_byte lower (by omega), ok_bind, storeAt_byte (by omega) upper, ok_bind]
  exact ⟨_, rfl⟩

/-! ## The line -/

variable {level : Int} {stamp : List UInt8} {msg : LogMessage}

/-- The space behind the name of the level. -/
theorem space_left {ptr : Int} (lower : 0 ≤ ptr) (upper : ptr < 2 ^ 31 + 24) :
    ((logBufLen : Int) - (ptr + levelNameLen) - 10).bmod (2 ^ 32) = 4078 - ptr := by
  have full : (logBufLen : Int) = 4096 := rfl
  have name : (levelNameLen : Int) = 8 := rfl
  rw [full, name, Int.bmod_eq_of_le (by omega) (by omega)]
  omega

/-- The name of the level fits. -/
theorem level_inside (behind : Memory) (level : Int) (buf : Memory) {ptr : Int} (lower : 0 ≤ ptr)
    (upper : ptr + levelNameLen ≤ logBufLen) :
    storeAt buf ptr (levelBytes behind level) =
      .ok (writeAt buf ptr.toNat (levelBytes behind level)) := by
  refine storeAt_inside lower ?_
  rw [levelBytes_length]
  exact upper

/-- It does not, where the length that the message before it would have leaves no room. -/
theorem level_outside (behind : Memory) (level : Int) (buf : Memory) {ptr : Int}
    (upper : logBufLen < ptr + levelNameLen) :
    storeAt buf ptr (levelBytes behind level) = .error .outside := by
  apply storeAt_outside
  · rw [levelBytes_length]
    decide
  · rw [levelBytes_length]
    exact upper

/-- The line of a text. It is cut to the space there is, unless its length is no `int`. -/
theorem logvRest_text (behind : Memory) (plain : level ≠ levelHex) (buf : Memory)
    (msg : LogMessage) {ptr : Int} (lower : 0 ≤ ptr) (upper : ptr ≤ 4078) :
    formattedLen msg.text < 0 ∧ logvRest behind level buf ptr msg = .ok none ∨
      0 ≤ formattedLen msg.text ∧ ∃ buf', logvRest behind level buf ptr msg =
        .ok (some (buf', ptr + 8 + min (formattedLen msg.text) (4078 - ptr) + 1)) := by
  have full : (logBufLen : Int) = 4096 := rfl
  have name : (levelNameLen : Int) = 8 := rfl
  have start : 0 ≤ ptr + levelNameLen := by omega
  have fits : ptr + levelNameLen + (((4078 - ptr) % 2 ^ 64).toNat : Int) ≤ logBufLen := by omega
  obtain ⟨buf', formatted⟩ := vsnprintf_inside
    (writeAt buf ptr.toNat (levelBytes behind level)) msg.text start fits
  unfold logvRest
  rw [level_inside behind level buf lower (by omega), ok_bind]
  dsimp only
  rw [space_left lower (by omega), if_neg plain, formatted, ok_bind]
  dsimp only
  rcases lt_or_ge (formattedLen msg.text) 0 with negative | nonneg
  · left
    exact ⟨negative, if_pos negative⟩
  · right
    refine ⟨nonneg, ?_⟩
    rw [← name]
    exact logvEnd_inside buf' nonneg (by omega) (by omega)

/-- A dump that fits behind the name of the level. -/
theorem logvRest_hex (behind buf : Memory) {ptr : Int} (lower : 0 ≤ ptr)
    (upper : ptr + 8 + msg.digits ≤ 4096) :
    logvRest behind levelHex buf ptr msg = .error .nullData ∨
      ∃ buf', logvRest behind levelHex buf ptr msg =
        .ok (some (buf', ptr + 8 + min (msg.digits : Int) (4078 - ptr) + 1)) := by
  have full : (logBufLen : Int) = 4096 := rfl
  have name : (levelNameLen : Int) = 8 := rfl
  have start : 0 ≤ ptr + levelNameLen := by omega
  have fits : ptr + levelNameLen + msg.digits ≤ logBufLen := by omega
  unfold logvRest
  rw [level_inside behind levelHex buf lower (by omega), ok_bind]
  dsimp only
  rw [space_left lower (by omega), if_pos rfl]
  rcases logvDump_inside (writeAt buf ptr.toNat (levelBytes behind levelHex)) msg start fits with
    null | ⟨buf', dumped⟩
  · left
    rw [null]
    rfl
  · right
    rw [dumped, ok_bind, ← name]
    exact logvEnd_inside buf' (Int.natCast_nonneg _) (by omega) (by omega)

/-- One that does not fit. -/
theorem logvRest_outside (behind buf : Memory) {ptr : Int} (lower : 0 ≤ ptr)
    (upper : 4096 < ptr + 8 + msg.digits) :
    logvRest behind levelHex buf ptr msg = .error .outside := by
  have full : (logBufLen : Int) = 4096 := rfl
  have name : (levelNameLen : Int) = 8 := rfl
  unfold logvRest
  rcases lt_or_ge (logBufLen : Int) (ptr + levelNameLen) with past | start
  · rw [level_outside behind levelHex buf past]
    rfl
  · rw [level_inside behind levelHex buf lower start, ok_bind]
    dsimp only
    rw [if_pos rfl, logvDump_outside _ msg start (by omega)]
    rfl

/-- The time and the byte that ends it are stored. -/
theorem stamp_inside (timestamp : stamp.length = 24) :
    storeAt (fun _ => 0) 0 (stamp ++ [0]) =
      .ok (writeAt (fun _ => 0) (0 : Int).toNat (stamp ++ [0])) := by
  refine storeAt_inside (le_refl 0) ?_
  rw [List.length_append, List.length_singleton, timestamp]
  decide

/-- A line without data goes on behind the time. -/
theorem logvLine_plain (behind : Memory) (timestamp : stamp.length = 24)
    (plain : level ≠ levelHex) (msg : LogMessage) :
    ∃ buf, logvLine behind level stamp msg = logvRest behind level buf 24 msg := by
  have stamped : (stamp.length : Int) = 24 := by omega
  unfold logvLine
  rw [stamp_inside timestamp, ok_bind]
  dsimp only
  rw [if_neg plain, stamped]
  exact ⟨_, rfl⟩

/-- A line with data goes on where the message would end, of which only the first bytes are
stored. -/
theorem logvLine_message (behind : Memory) (timestamp : stamp.length = 24) (msg : LogMessage) :
    ∃ buf, logvLine behind levelHex stamp msg =
      logvRest behind levelHex buf (24 + formattedLen msg.text) msg := by
  have stamped : (stamp.length : Int) = 24 := by omega
  obtain ⟨buf, formatted⟩ := vsnprintf_inside
    (writeAt (fun _ => 0) (0 : Int).toNat (stamp ++ [0])) msg.text
    (by decide : (0 : Int) ≤ 24) (by decide : (24 : Int) + (1024 : Nat) ≤ logBufLen)
  unfold logvLine
  rw [stamp_inside timestamp, ok_bind]
  dsimp only
  rw [if_pos rfl, stamped, formatted, ok_bind]
  exact ⟨buf, rfl⟩

/-- A line of a text. -/
theorem logvLine_text (behind : Memory) (timestamp : stamp.length = 24)
    (plain : level ≠ levelHex) (msg : LogMessage) :
    formattedLen msg.text < 0 ∧ logvLine behind level stamp msg = .ok none ∨
      0 ≤ formattedLen msg.text ∧ ∃ buf, logvLine behind level stamp msg =
        .ok (some (buf, 33 + min (formattedLen msg.text) 4054)) := by
  obtain ⟨buf, line⟩ := logvLine_plain behind timestamp plain msg
  rw [line]
  rcases logvRest_text behind plain buf msg (by decide : (0 : Int) ≤ 24) (by decide) with
    returned | ⟨nonneg, buf', ended⟩
  · exact .inl returned
  · have length : 24 + 8 + min (formattedLen msg.text) (4078 - 24) + 1 =
        33 + min (formattedLen msg.text) 4054 := by omega
    refine .inr ⟨nonneg, buf', ?_⟩
    rw [ended, length]

/-- A line with data stores outside of its buffer if the dump and the length that the message would
have leave no room. -/
theorem logvLine_outside (behind : Memory) (timestamp : stamp.length = 24)
    (large : 4064 < formattedLen msg.text + msg.digits) :
    logvLine behind levelHex stamp msg = .error .outside := by
  have ge := formattedLen_ge msg.text
  obtain ⟨buf, line⟩ := logvLine_message behind timestamp msg
  rw [line]
  exact logvRest_outside behind buf (by omega) (by omega)

/-- A line with data whose dump leaves room. -/
theorem logvLine_hex (behind : Memory) (timestamp : stamp.length = 24)
    (room : formattedLen msg.text + msg.digits ≤ 4064) :
    LineInside (logvLine behind levelHex stamp msg) := by
  have ge := formattedLen_ge msg.text
  obtain ⟨buf, line⟩ := logvLine_message behind timestamp msg
  have lower : 0 ≤ 24 + formattedLen msg.text := by omega
  have upper : 24 + formattedLen msg.text + 8 + msg.digits ≤ 4096 := by omega
  rw [line]
  rcases logvRest_hex behind buf lower upper with null | ⟨buf', ended⟩
  · rw [null]
    exact lineInside_nullData
  · rw [ended]
    exact lineInside_some (by omega) (by omega)

/-- A text that is logged is written as a line that fits, unless its length is no `int`. -/
theorem logText_written {localtime : Int → Tm} {call : LogCall}
    (stamped : (timestamp (localtime call.tv_sec) call.tv_usec).length = 24)
    (plain : level ≠ levelHex) (s : Logging) :
    s.logText localtime level call = .ok (-1, s.setlevel level) ∨
      ∃ line : Line, line.length < logBufLen ∧ s.logText localtime level call =
        (s.setlevel level).logvWrite localtime ⟨call.toLogAnswers, line⟩ := by
  unfold Logging.logText Logging.logAt Logging.logv
  rcases logvLine_text call.behind stamped plain ⟨call.msg.text, none, 0⟩ with
    ⟨_, returned⟩ | ⟨nonneg, buf, ended⟩
  · left
    show (logvLine call.behind level _ _ >>= _) = _
    rw [returned]
    rfl
  · right
    refine ⟨readAt buf 0 (33 + min (formattedLen call.msg.text) 4054).toNat, ?_, ?_⟩
    · have full : logBufLen = 4096 := rfl
      rw [readAt_length]
      omega
    · show (logvLine call.behind level _ _ >>= _) = _
      rw [ended]
      rfl

/-- A line is put together inside of its buffer if and only if it has no data to dump, or the dump
leaves room for the message at the length that it would have. -/
theorem logvLine_inside_iff (behind : Memory) (level : Int) (timestamp : stamp.length = 24)
    (msg : LogMessage) :
    LineInside (logvLine behind level stamp msg) ↔
      level ≠ levelHex ∨ formattedLen msg.text + msg.digits ≤ 4064 := by
  by_cases plain : level = levelHex
  · subst plain
    constructor
    · rintro ⟨inside, _⟩
      refine .inr (not_lt.mp fun large => inside ?_)
      exact logvLine_outside behind timestamp large
    · rintro (other | room)
      · exact absurd rfl other
      · exact logvLine_hex behind timestamp room
  · refine iff_of_true ?_ (.inl plain)
    rcases logvLine_text behind timestamp plain msg with
      ⟨_, returned⟩ | ⟨nonneg, buf, ended⟩
    · rw [returned]
      exact lineInside_none
    · rw [ended]
      exact lineInside_some (by omega) (by omega)

/-- A message of one byte at noon, with as many data as there is room for. -/
theorem logvLine_inside_dump :
    LineInside (logvLine (fun _ => 0) levelHex (timestamp ⟨126, 0, 1, 12, 0, 0⟩ 0)
      ⟨[0x61], some fun _ => 0x62, 2031⟩) :=
  (logvLine_inside_iff _ _ (by decide) _).mpr (.inr (by decide))

/-- As many data as are read at once. -/
theorem dump_outside :
    ¬∀ (behind : Memory) (level : Int) (stamp : List UInt8) (msg : LogMessage),
      stamp.length = 24 → LineInside (logvLine behind level stamp msg) := by
  intro always
  have large : 4064 < formattedLen [0x61] +
      (LogMessage.mk [0x61] (some fun _ => 0) 2048).digits := by decide
  have noon : (timestamp ⟨126, 0, 1, 12, 0, 0⟩ 0).length = 24 := by decide
  exact (always (fun _ => 0) levelHex _ ⟨[0x61], some fun _ => 0, 2048⟩ noon).1
    (logvLine_outside _ noon large)

end EpollNet
