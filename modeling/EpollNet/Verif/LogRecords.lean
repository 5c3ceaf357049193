import EpollNet.Basis.Delimited
import EpollNet.Verif.Logged

/-!
# The bytes of a line

A line is the time, the name of the level and the text, or the text, the name of the level and the
dump of the data. From the bytes of a line that has room for its dump what was logged is read back,
but for what the space cuts off the text.
-/

namespace EpollNet

open EpollNet.Basis

/-! ## Bytes and their digits -/

/-- A byte and its two halves. -/
def byteHalves : Halves UInt8 where
  bound := 16
  high b := (b >>> 4 &&& 0x0F).toNat
  low b := (b &&& 0x0F).toNat
  join high low := UInt8.ofNat (16 * high + low)
  high_lt b := by
    have masked : (b >>> 4 &&& 0x0F).toNat ≤ (0x0F : UInt8).toNat := by
      rw [UInt8.toNat_and]
      exact Nat.and_le_right
    have top : (0x0F : UInt8).toNat = 15 := rfl
    omega
  low_lt b := by
    have masked : (b &&& 0x0F).toNat ≤ (0x0F : UInt8).toNat := by
      rw [UInt8.toNat_and]
      exact Nat.and_le_right
    have top : (0x0F : UInt8).toNat = 15 := rfl
    omega
  join_halves b := by
    have mask : (0x0F : UInt8).toNat = 2 ^ 4 - 1 := rfl
    have size := b.toNat_lt
    have low : (b &&& 0x0F).toNat = b.toNat % 16 := by
      rw [UInt8.toNat_and, mask, Nat.and_two_pow_sub_one_eq_mod]
    have shift : (b >>> 4).toNat = b.toNat / 16 := by
      rw [UInt8.toNat_shiftRight, Nat.shiftRight_eq_div_pow]
      rfl
    have high : (b >>> 4 &&& 0x0F).toNat = b.toNat / 16 := by
      rw [UInt8.toNat_and, mask, Nat.and_two_pow_sub_one_eq_mod, shift]
      omega
    have whole : 16 * (b.toNat / 16) + b.toNat % 16 = b.toNat := by omega
    rw [high, low, whole, UInt8.ofNat_toNat]

/-- The dump of some bytes. -/
def hexDigits (bytes : List UInt8) : List UInt8 := bytes.flatMap (digitsOf byteHalves hexChars 0)

/-- The digits differ. -/
theorem hexChars_nodup : hexChars.Nodup := by decide

/-- There are as many of them as halves of a byte. -/
theorem hexChars_enough : byteHalves.bound ≤ hexChars.length := by decide

/-- A dump has two digits for each byte. -/
theorem hexDigits_length (bytes : List UInt8) : (hexDigits bytes).length = 2 * bytes.length :=
  digits_length bytes

/-- It is read back. -/
theorem readDigits_hexDigits (bytes : List UInt8) :
    readDigits byteHalves hexChars (hexDigits bytes) = some bytes :=
  readDigits_digitsOf hexChars_nodup hexChars_enough bytes

/-- A byte that is no digit is in no dump. -/
theorem not_mem_hexDigits {c : UInt8} (other : c ∉ hexChars) (bytes : List UInt8) :
    c ∉ hexDigits bytes :=
  fun member => other (mem_digits hexChars_enough member)

/-! ## The buffer -/

variable {cells more text : List UInt8} {pos ptr space len : Int} {n size : Nat}

/-- Bytes stored behind those that were. -/
theorem storeAt_filled (place : pos = cells.length)
    (fits : cells.length + more.length ≤ logBufLen) :
    storeAt (filled 0 cells) pos more = .ok (filled 0 (cells ++ more)) := by
  have here : pos.toNat = cells.length := by omega
  rw [storeAt_inside (by omega) (by omega), here, writeAt_filled]

/-- Bytes stored further behind. -/
theorem storeAt_filled_gap (place : pos = cells.length + n)
    (fits : cells.length + n + more.length ≤ logBufLen) :
    storeAt (filled 0 cells) pos more = .ok (filled 0 (cells ++ List.replicate n 0 ++ more)) := by
  have here : pos.toNat = cells.length + n := by omega
  rw [storeAt_inside (by omega) (by omega), here, writeAt_filled_gap]

/-- A text that is formatted behind what was stored. The byte that ends it is blank. -/
theorem vsnprintf_filled (place : pos = cells.length) (some' : 0 < size)
    (fits : cells.length + size ≤ logBufLen) (text : List UInt8) :
    vsnprintf (filled 0 cells) pos size text =
      .ok (formattedLen text, filled 0 (cells ++ text.take (size - 1))) := by
  have short : (text.take (size - 1) ++ [0]).length ≤ size := by
    rw [List.length_append, List.length_take, List.length_singleton]
    omega
  have ended : filled (0 : UInt8) (cells ++ (text.take (size - 1) ++ [0])) =
      filled 0 (cells ++ text.take (size - 1)) := by
    rw [← List.append_assoc]
    exact filled_blank 0 _ 1
  unfold vsnprintf
  rw [if_neg (Nat.ne_of_gt some'), storeAt_filled place (by omega), ok_bind, ended]

/-- The end of a line that goes on so far behind what was stored. -/
theorem logvEnd_filled (nonneg : 0 ≤ len) (place : ptr + min len space = cells.length + n)
    (fits : cells.length + n + 1 < logBufLen) :
    logvEnd (filled 0 cells) ptr space len =
      .ok (some (filled 0 (cells ++ List.replicate n 0 ++ [0x0a]),
        (cells ++ List.replicate n 0 ++ [0x0a]).length)) := by
  have cut : (if len > space then space else len) = min len space := by
    split <;> omega
  have newline : ascii "\n" = [0x0a] := rfl
  have length : (cells ++ List.replicate n 0 ++ [0x0a]).length = cells.length + n + 1 := by
    rw [List.length_append, List.length_append, List.length_replicate, List.length_singleton]
  have stored : storeAt (filled 0 cells) (ptr + min len space) [0x0a] =
      .ok (filled 0 (cells ++ List.replicate n 0 ++ [0x0a])) := by
    refine storeAt_filled_gap place ?_
    rw [List.length_singleton]
    omega
  have last : ptr + min len space + 1 = (cells ++ List.replicate n 0 ++ [0x0a]).length := by
    omega
  have ended : storeAt (filled 0 (cells ++ List.replicate n 0 ++ [0x0a]))
      (ptr + min len space + 1) [0] =
        .ok (filled 0 (cells ++ List.replicate n 0 ++ [0x0a])) := by
    rw [storeAt_filled last (by rw [length, List.length_singleton]; omega)]
    exact congrArg Except.ok (filled_blank (0 : UInt8) _ 1)
  unfold logvEnd
  rw [if_neg (Int.not_lt.mpr nonneg), cut, newline]
  dsimp only
  rw [stored, ok_bind, ended, ok_bind, last]

/-- The loop over data puts their digits behind those that were. -/
theorem hexLoop_filled (data : Memory) (left b : Nat) (even : cells.length % 2 = 0)
    (fits : cells.length + 2 * left ≤ logBufLen) :
    hexLoop (some data) left b cells.length (filled 0 cells) =
      .ok (cells.length + 2 * left, filled 0 (cells ++ hexDigits (readAt data b left))) := by
  have full : logBufLen = 4096 := rfl
  induction left generalizing b cells with
  | zero =>
    have nothing : hexDigits (readAt data b 0) = [] := rfl
    rw [nothing, List.append_nil]
    rfl
  | succ left ih =>
    have more : cells.length < logBufLen - 1 := by omega
    have pair : (cells ++ [hexChars.getD (byteHalves.high (data b)) 0] ++
        [hexChars.getD (byteHalves.low (data b)) 0]).length = cells.length + 1 + 1 := by
      rw [List.length_append, List.length_append, List.length_singleton, List.length_singleton]
    have first : storeAt (filled 0 cells) (cells.length : Int)
        [hexChars.getD (byteHalves.high (data b)) 0] =
          .ok (filled 0 (cells ++ [hexChars.getD (byteHalves.high (data b)) 0])) := by
      refine storeAt_filled rfl ?_
      rw [List.length_singleton]
      omega
    have second : storeAt (filled 0 (cells ++ [hexChars.getD (byteHalves.high (data b)) 0]))
        ((cells.length + 1 : Nat) : Int) [hexChars.getD (byteHalves.low (data b)) 0] =
          .ok (filled 0 (cells ++ [hexChars.getD (byteHalves.high (data b)) 0] ++
            [hexChars.getD (byteHalves.low (data b)) 0])) := by
      refine storeAt_filled ?_ ?_
      · rw [List.length_append, List.length_singleton]
      · rw [List.length_append, List.length_singleton, List.length_singleton]
        omega
    have rest := @ih (cells ++ [hexChars.getD (byteHalves.high (data b)) 0] ++
      [hexChars.getD (byteHalves.low (data b)) 0]) (b + 1) (by omega) (by omega)
    have total : cells.length + 1 + 1 + 2 * left = cells.length + 2 * (left + 1) := by omega
    rw [pair, total] at rest
    have digits : hexDigits (readAt data b (left + 1)) =
        [hexChars.getD (byteHalves.high (data b)) 0] ++
          [hexChars.getD (byteHalves.low (data b)) 0] ++ hexDigits (readAt data (b + 1) left) := by
      rw [readAt_succ]
      rfl
    rw [hexLoop, if_pos more]
    show (storeAt (filled 0 cells) (cells.length : Int)
      [hexChars.getD (byteHalves.high (data b)) 0] >>= _) = _
    rw [first, ok_bind]
    show (storeAt _ ((cells.length + 1 : Nat) : Int)
      [hexChars.getD (byteHalves.low (data b)) 0] >>= _) = _
    rw [second, ok_bind, rest, digits, ← List.append_assoc, ← List.append_assoc]

/-! ## The line -/

/-- The levels of a text. -/
def textLevels : List Int := [levelNone, levelError, levelWarn, levelDebug, levelInfo]

/-- The data of a message. -/
def LogMessage.bytes (msg : LogMessage) : List UInt8 :=
  match msg.data with
  | none => []
  | some data => readAt data 0 msg.datalen.toNat

/-- A text in the space behind the name of a level. -/
def cutText (text : List UInt8) : List UInt8 :=
  text.take 4053 ++ List.replicate (min text.length 4054 - 4053) 0

/-- A text in front of the name of a level. -/
def paddedText (text : List UInt8) : List UInt8 :=
  text.take 1023 ++ List.replicate (text.length - 1023) 0

/-- A line, up to the byte that ends it. -/
def lineBody (behind : Memory) (level : Int) (stamp : List UInt8) (msg : LogMessage) :
    List UInt8 :=
  if level = levelHex then
    stamp ++ paddedText msg.text ++ levelBytes behind level ++ hexDigits msg.bytes
  else stamp ++ levelBytes behind level ++ cutText msg.text

/-- A message that has room in a line at a level. -/
structure HasLine (level : Int) (msg : LogMessage) : Prop where
  /-- The length of the text is an `int`. -/
  short : msg.text.length < 2 ^ 31
  /-- There are data where their length says so. -/
  given : level = levelHex → msg.data = none → msg.datalen = 0
  /-- The dump has room behind the text. -/
  room : level = levelHex → msg.text.length + 2 * msg.bytes.length ≤ 4054

variable {behind : Memory} {level : Int} {stamp : List UInt8} {msg : LogMessage}

/-- The time is stored. -/
theorem stamp_filled (timestamp : stamp.length = 24) :
    storeAt (fun _ => 0) 0 (stamp ++ [0]) = .ok (filled 0 stamp) := by
  have empty : (fun _ => 0 : Memory) = filled 0 [] := funext fun i => List.getD_nil.symm
  have fits : ([] : List UInt8).length + (stamp ++ [0]).length ≤ logBufLen := by
    rw [List.length_nil, List.length_append, List.length_singleton, timestamp]
    decide
  have ended : filled (0 : UInt8) ([] ++ (stamp ++ [0])) = filled 0 stamp :=
    filled_blank 0 stamp 1
  have place : (0 : Int) = ([] : List UInt8).length := rfl
  rw [empty, storeAt_filled place fits, ended]

/-- The text of a line. -/
theorem logvLine_text_bytes (timestamp : stamp.length = 24) (plain : level ≠ levelHex)
    (line : HasLine level msg) :
    logvLine behind level stamp msg =
      .ok (some (filled 0 (lineBody behind level stamp msg ++ [0x0a]),
        (lineBody behind level stamp msg ++ [0x0a]).length)) := by
  have full : logBufLen = 4096 := rfl
  have name : levelNameLen = 8 := rfl
  have short := line.short
  have formatted : formattedLen msg.text = msg.text.length := if_pos short
  have head : (stamp ++ levelBytes behind level).length = 32 := by
    rw [List.length_append, levelBytes_length, timestamp, name]
  have named : storeAt (filled 0 stamp) (stamp.length : Int) (levelBytes behind level) =
      .ok (filled 0 (stamp ++ levelBytes behind level)) := by
    refine storeAt_filled rfl ?_
    rw [levelBytes_length, timestamp]
    decide
  have place : (stamp.length : Int) + levelNameLen = (stamp ++ levelBytes behind level).length := by
    rw [List.length_append, levelBytes_length]
    omega
  have left := @space_left stamp.length (by omega) (by omega)
  have size : ((4078 - (stamp.length : Int)) % 2 ^ 64).toNat = 4054 := by omega
  have texted : vsnprintf (filled 0 (stamp ++ levelBytes behind level))
      ((stamp.length : Int) + levelNameLen) 4054 msg.text =
        .ok (formattedLen msg.text,
          filled 0 (stamp ++ levelBytes behind level ++ msg.text.take 4053)) :=
    vsnprintf_filled place (by decide) (by omega) msg.text
  have total : (stamp ++ levelBytes behind level ++ msg.text.take 4053).length =
      32 + min 4053 msg.text.length := by
    rw [List.length_append, head, List.length_take]
  have ended := @logvEnd_filled (stamp ++ levelBytes behind level ++ msg.text.take 4053)
    ((stamp.length : Int) + levelNameLen) (4078 - stamp.length) msg.text.length
    (min msg.text.length 4054 - 4053) (Int.natCast_nonneg _) (by omega) (by omega)
  have body : stamp ++ levelBytes behind level ++ msg.text.take 4053 ++
      List.replicate (min msg.text.length 4054 - 4053) 0 = lineBody behind level stamp msg := by
    unfold lineBody cutText
    rw [if_neg plain, List.append_assoc (stamp ++ levelBytes behind level)]
  rw [body] at ended
  unfold logvLine
  rw [stamp_filled timestamp, ok_bind]
  dsimp only
  rw [if_neg plain]
  unfold logvRest
  rw [named, ok_bind]
  dsimp only
  rw [left, if_neg plain, size, texted, ok_bind]
  dsimp only
  rw [formatted, ended]

/-- The dump of the data of a message is stored. -/
theorem logvDump_filled (line : HasLine levelHex msg) (place : pos = cells.length)
    (fits : cells.length + 2 * msg.bytes.length ≤ logBufLen) :
    logvDump (filled 0 cells) pos msg =
      .ok (((2 * msg.bytes.length : Nat) : Int), filled 0 (cells ++ hexDigits msg.bytes)) := by
  obtain ⟨text, data, datalen⟩ := msg
  have digits : (hexDigits (LogMessage.mk text data datalen).bytes).length =
      2 * (LogMessage.mk text data datalen).bytes.length := hexDigits_length _
  have stored : storeAt (filled 0 cells) pos (hexDigits (LogMessage.mk text data datalen).bytes) =
      .ok (filled 0 (cells ++ hexDigits (LogMessage.mk text data datalen).bytes)) :=
    storeAt_filled place (by omega)
  unfold logvDump
  cases data with
  | none =>
    obtain rfl : datalen = 0 := line.given rfl rfl
    have looped : hexLoop none (hexSpan none 0) 0 0 (fun _ => 0) = .ok (0, fun _ => 0) := rfl
    dsimp only
    rw [looped, ok_bind]
    dsimp only
    rw [show storeAt (filled 0 cells) pos (readAt (fun _ => 0) 0 0) = _ from stored]
    rfl
  | some data =>
    have count : (LogMessage.mk text (some data) datalen).bytes.length = datalen.toNat :=
      readAt_length ..
    have looped := @hexLoop_filled [] data datalen.toNat 0 rfl
      (by rw [List.length_nil, ← count]; omega)
    have empty : (fun _ => 0 : Memory) = filled 0 [] := funext fun i => List.getD_nil.symm
    have read : readAt (filled (0 : UInt8) (hexDigits (readAt data 0 datalen.toNat))) 0
        (2 * datalen.toNat) = hexDigits (readAt data 0 datalen.toNat) := by
      have length : (hexDigits (readAt data 0 datalen.toNat)).length = 2 * datalen.toNat := by
        rw [hexDigits_length, readAt_length]
      rw [← length]
      exact readAt_filled ..
    rw [List.length_nil, Nat.zero_add, List.nil_append] at looped
    show (hexLoop (some data) datalen.toNat 0 0 (fun _ => 0) >>= _) = _
    rw [empty, looped, ok_bind]
    dsimp only
    rw [read, show storeAt (filled 0 cells) pos (hexDigits (readAt data 0 datalen.toNat)) = _ from
      stored, ok_bind, count]

/-- Where a dump ends that has room. -/
theorem dump_place {l b : Nat} (room : l + 2 * b ≤ 4054) :
    ((24 : Nat) : Int) + l + (8 : Nat) +
        min ((2 * b : Nat) : Int) (4078 - (((24 : Nat) : Int) + l)) =
      ((32 + l + 2 * b : Nat) : Int) + (0 : Nat) := by
  omega

/-- It ends inside of the buffer. -/
theorem dump_inside {l b : Nat} (room : l + 2 * b ≤ 4054) : 32 + l + 2 * b + 0 + 1 < 4096 := by
  omega

/-- The dump of a line. -/
theorem logvLine_hex_bytes (timestamp : stamp.length = 24) (line : HasLine levelHex msg) :
    logvLine behind levelHex stamp msg =
      .ok (some (filled 0 (lineBody behind levelHex stamp msg ++ [0x0a]),
        (lineBody behind levelHex stamp msg ++ [0x0a]).length)) := by
  have full : logBufLen = 4096 := rfl
  have name : levelNameLen = 8 := rfl
  have short := line.short
  have room := line.room rfl
  have formatted : formattedLen msg.text = msg.text.length := if_pos short
  have texted : vsnprintf (filled 0 stamp) (stamp.length : Int) 1024 msg.text =
      .ok (formattedLen msg.text, filled 0 (stamp ++ msg.text.take 1023)) :=
    vsnprintf_filled rfl (by decide) (by rw [timestamp]; decide) msg.text
  have taken : (stamp ++ msg.text.take 1023).length = 24 + min 1023 msg.text.length := by
    rw [List.length_append, List.length_take, timestamp]
  have padded : (stamp ++ paddedText msg.text).length = 24 + msg.text.length := by
    unfold paddedText
    rw [← List.append_assoc, List.length_append, taken, List.length_replicate]
    omega
  have named : storeAt (filled 0 (stamp ++ msg.text.take 1023))
      ((stamp.length : Int) + msg.text.length) (levelBytes behind levelHex) =
        .ok (filled 0 (stamp ++ paddedText msg.text ++ levelBytes behind levelHex)) := by
    have gap := @storeAt_filled_gap (stamp ++ msg.text.take 1023) (levelBytes behind levelHex)
      ((stamp.length : Int) + msg.text.length) (msg.text.length - 1023) (by omega)
      (by rw [levelBytes_length]; omega)
    unfold paddedText
    rw [gap, List.append_assoc stamp]
  have head : (stamp ++ paddedText msg.text ++ levelBytes behind levelHex).length =
      32 + msg.text.length := by
    rw [List.length_append, padded, levelBytes_length]
    omega
  have dumped := @logvDump_filled (stamp ++ paddedText msg.text ++ levelBytes behind levelHex)
    ((stamp.length : Int) + msg.text.length + levelNameLen) msg line (by omega) (by omega)
  have left := @space_left ((stamp.length : Int) + msg.text.length) (by omega) (by omega)
  have all : (stamp ++ paddedText msg.text ++ levelBytes behind levelHex ++
      hexDigits msg.bytes).length = 32 + msg.text.length + 2 * msg.bytes.length := by
    rw [List.length_append, head, hexDigits_length]
  have behind' : (stamp.length : Int) + msg.text.length + levelNameLen +
      min ((2 * msg.bytes.length : Nat) : Int) (4078 - ((stamp.length : Int) + msg.text.length)) =
        (stamp ++ paddedText msg.text ++ levelBytes behind levelHex ++
          hexDigits msg.bytes).length + (0 : Nat) := by
    rw [all, timestamp, name]
    exact dump_place room
  have inside : (stamp ++ paddedText msg.text ++ levelBytes behind levelHex ++
      hexDigits msg.bytes).length + 0 + 1 < logBufLen := by
    rw [all, full]
    exact dump_inside room
  have ended := @logvEnd_filled
    (stamp ++ paddedText msg.text ++ levelBytes behind levelHex ++ hexDigits msg.bytes)
    _ _ _ 0 (Int.natCast_nonneg _) behind' inside
  have body : stamp ++ paddedText msg.text ++ levelBytes behind levelHex ++ hexDigits msg.bytes ++
      List.replicate 0 0 = lineBody behind levelHex stamp msg := by
    unfold lineBody
    rw [if_pos rfl]
    exact List.append_nil _
  rw [body] at ended
  unfold logvLine
  rw [stamp_filled timestamp, ok_bind]
  dsimp only
  rw [if_pos rfl, texted, ok_bind]
  dsimp only
  rw [formatted]
  unfold logvRest
  rw [named, ok_bind]
  dsimp only
  rw [left, if_pos rfl, dumped, ok_bind]
  exact ended

/-- The bytes of a line. -/
theorem logvLine_bytes (timestamp : stamp.length = 24) (line : HasLine level msg) :
    logvLine behind level stamp msg =
      .ok (some (filled 0 (lineBody behind level stamp msg ++ [0x0a]),
        (lineBody behind level stamp msg ++ [0x0a]).length)) := by
  by_cases hex : level = levelHex
  · subst hex
    exact logvLine_hex_bytes timestamp line
  · exact logvLine_text_bytes timestamp hex line

end EpollNet
