import EpollNet.Verif.LogRecords

/-!
# Reading a line

The line of a text has no zero byte before its last one, and that with data has one in the name of
its level. Behind the last zero byte there are the digits, and one byte more unless that is zero
too.
-/

namespace EpollNet

open EpollNet.Basis

/-! ## The reader -/

/-- What a line tells. -/
structure LogRecord where
  /-- The bytes of the time. -/
  time : List UInt8
  /-- The level. -/
  level : Int
  /-- The text. -/
  text : List UInt8
  /-- The data. -/
  data : List UInt8
deriving DecidableEq

/-- The level that a name in a line is of. -/
def levelOf (name : List UInt8) : Option Int :=
  textLevels.find? fun level => decide (name = (getLevelName level ++ [0]).take levelNameLen)

/-- The bytes behind the last zero byte. -/
def behindLast (bytes : List UInt8) : List UInt8 :=
  (bytes.reverse.takeWhile fun c => decide (c ≠ 0)).reverse

/-- The bytes ahead of the first zero byte. -/
def aheadOfZero (bytes : List UInt8) : List UInt8 := bytes.takeWhile fun c => decide (c ≠ 0)

/-- Read what follows the time in the line of a text: the level and the text. -/
def readText (rest : List UInt8) : Option (Int × List UInt8) :=
  if 0 ∈ (rest.drop levelNameLen).dropLast then none
  else (levelOf (rest.take levelNameLen)).map fun level =>
    (level, aheadOfZero (rest.drop levelNameLen))

/-- The end of the name in a line with data. -/
def hexName : List UInt8 := ascii "[HEX] " ++ [0]

/-- Read the text and the name from the front of a line with data, and the data from its digits. -/
def readDump (front digits : List UInt8) : Option (List UInt8 × List UInt8) :=
  if front.drop (front.length - hexName.length) = hexName then
    (readDigits byteHalves hexChars digits).map fun data =>
      (aheadOfZero (front.take (front.length - hexName.length)), data)
  else none

/-- Read what follows the time in a line with data: the text and the data. -/
def readHex (rest : List UInt8) : Option (List UInt8 × List UInt8) :=
  let last := behindLast rest
  let front := rest.take (rest.length - last.length)
  if last.length % 2 = 1 then readDump front last.tail else readDump front.dropLast last

/-- Read a line, up to the byte that ends it. -/
def readLine (body : List UInt8) : Option LogRecord :=
  match readText (body.drop 24) with
  | some (level, text) => some ⟨body.take 24, level, text, []⟩
  | none => (readHex (body.drop 24)).map fun (text, data) => ⟨body.take 24, levelHex, text, data⟩

/-! ## What is to be read -/

/-- What a message should be read as. -/
def recordOf (localtime : Int → Tm) (request : Int × LogCall) : LogRecord where
  time := timestamp (localtime request.2.tv_sec) request.2.tv_usec
  level := request.1
  text := request.2.msg.text.take (if request.1 = levelHex then 1023 else 4053)
  data := if request.1 = levelHex then request.2.msg.bytes else []

/-- A message whose line can be read. -/
structure Readable (localtime : Int → Tm) (request : Int × LogCall) : Prop where
  /-- The time is as long as it should be. -/
  stamped : (timestamp (localtime request.2.tv_sec) request.2.tv_usec).length = 24
  /-- The level is one there is. -/
  level : request.1 = levelHex ∨ request.1 ∈ textLevels
  /-- The line has room for it. -/
  line : HasLine request.1 request.2.msg
  /-- The text is a string of one line. -/
  text : ∀ c ∈ request.2.msg.text, c ≠ 0 ∧ c ≠ 0x0a
  /-- What lies behind the name of the level does not end the line. -/
  behind : request.1 = levelHex → request.2.behind 7 ≠ 0x0a

/-- The line that a message makes, up to the byte that ends it. -/
def bodyOf (localtime : Int → Tm) (request : Int × LogCall) : List UInt8 :=
  lineBody request.2.behind request.1 (timestamp (localtime request.2.tv_sec) request.2.tv_usec)
    request.2.msg

/-! ## Zero bytes -/

variable {bytes front back text data : List UInt8} {behind : Memory} {level : Int}

/-- A text is ahead of the zero bytes behind it. -/
theorem aheadOfZero_append (clean : ∀ c ∈ bytes, c ≠ 0) (n : Nat) :
    aheadOfZero (bytes ++ List.replicate n 0) = bytes := by
  have all : ∀ c ∈ bytes, decide (c ≠ 0) = true := fun c member => decide_eq_true (clean c member)
  unfold aheadOfZero
  rw [List.takeWhile_append_of_pos all]
  cases n with
  | zero => exact List.append_nil bytes
  | succ n =>
    rw [List.replicate_succ, List.takeWhile_cons_of_neg (by simp), List.append_nil]

/-- What follows a zero byte, and has none, is behind the last one. -/
theorem behindLast_append (clean : (0 : UInt8) ∉ back) (front : List UInt8) :
    behindLast (front ++ 0 :: back) = back := by
  have all : ∀ c ∈ back.reverse, decide (c ≠ 0) = true := by
    intro c member
    refine decide_eq_true fun zero => clean ?_
    rw [← zero]
    exact List.mem_reverse.mp member
  unfold behindLast
  rw [List.reverse_append, List.reverse_cons, List.append_assoc,
    List.takeWhile_append_of_pos all, List.singleton_append,
    List.takeWhile_cons_of_neg (by simp), List.append_nil, List.reverse_reverse]

/-! ## Names of levels -/

/-- The name of a level of a text takes its place up. -/
theorem levelBytes_text (behind : Memory) (there : level ∈ textLevels) :
    levelBytes behind level = (getLevelName level ++ [0]).take levelNameLen := by
  unfold textLevels at there
  simp only [List.mem_cons, List.not_mem_nil, or_false] at there
  rcases there with rfl | rfl | rfl | rfl | rfl <;> rfl

/-- That of a line with data does not. -/
theorem levelBytes_hex (behind : Memory) :
    levelBytes behind levelHex = hexName ++ [behind 7] := rfl

/-- The level is read from its name. -/
theorem levelOf_levelBytes (behind : Memory) (there : level ∈ textLevels) :
    levelOf (levelBytes behind level) = some level := by
  rw [levelBytes_text behind there]
  unfold textLevels at there
  simp only [List.mem_cons, List.not_mem_nil, or_false] at there
  rcases there with rfl | rfl | rfl | rfl | rfl <;> decide

/-- No level of a text is that of a line with data. -/
theorem textLevels_plain (there : level ∈ textLevels) : level ≠ levelHex := by
  unfold textLevels at there
  simp only [List.mem_cons, List.not_mem_nil, or_false] at there
  rcases there with rfl | rfl | rfl | rfl | rfl <;> decide

/-! ## Texts -/

/-- A text is read back up to where it was cut. -/
theorem readText_text (behind : Memory) (there : level ∈ textLevels) (clean : ∀ c ∈ text, c ≠ 0) :
    readText (levelBytes behind level ++ cutText text) = some (level, text.take 4053) := by
  have eight : (levelBytes behind level).length = levelNameLen := levelBytes_length behind level
  have dropped : (levelBytes behind level ++ cutText text).drop levelNameLen = cutText text := by
    rw [← eight]
    exact List.drop_left
  have taken : (levelBytes behind level ++ cutText text).take levelNameLen =
      levelBytes behind level := by
    rw [← eight]
    exact List.take_left
  have clean' : ∀ c ∈ text.take 4053, c ≠ 0 := fun c member => clean c (List.mem_of_mem_take member)
  -- a text that is cut has one zero byte behind it
  have few : 0 ∉ (cutText text).dropLast := by
    unfold cutText
    rcases Nat.lt_or_ge text.length 4054 with short | long
    · have none' : min text.length 4054 - 4053 = 0 := by omega
      rw [none', List.replicate_zero, List.append_nil]
      exact fun member => clean' 0 (List.dropLast_subset _ member) rfl
    · have one : min text.length 4054 - 4053 = 1 := by omega
      rw [one, List.replicate_one, List.dropLast_concat]
      exact fun member => clean' 0 member rfl
  unfold readText
  rw [dropped, taken, if_neg few, levelOf_levelBytes behind there]
  unfold cutText
  rw [aheadOfZero_append clean']
  rfl

/-! ## Dumps -/

/-- A name whose second byte no name of a text has. -/
theorem levelOf_none {name : List UInt8}
    (other : name.getD 1 0 ∉ textLevels.map fun level => (getLevelName level).getD 1 0) :
    levelOf name = none := by
  unfold levelOf
  rw [List.find?_eq_none]
  intro level there same
  refine other (List.mem_map.mpr ⟨level, there, ?_⟩)
  rw [of_decide_eq_true same]
  unfold textLevels at there
  simp only [List.mem_cons, List.not_mem_nil, or_false] at there
  rcases there with rfl | rfl | rfl | rfl | rfl <;> rfl

/-- A line with data is not read as that of a text: the zero byte in its name follows the place of
a name, or that place has no name of a text. -/
theorem readText_hex (front : List UInt8) (c : UInt8) (back : List UInt8) :
    readText (front ++ (hexName ++ [c]) ++ back) = none := by
  have eight : ∀ name : List UInt8, name.length = 8 →
      (∀ rest, (name ++ rest).take levelNameLen = name) := by
    intro name length rest
    rw [show levelNameLen = name.length from length.symm]
    exact List.take_left
  have missed : ∀ name rest : List UInt8, name.length = 8 →
      name.getD 1 0 ∉ (textLevels.map fun level => (getLevelName level).getD 1 0) →
        readText (name ++ rest) = none := by
    intro name rest length other
    unfold readText
    rw [eight name length rest, levelOf_none other]
    split <;> rfl
  cases front with
  | nil => exact missed (hexName ++ [c]) back rfl (show (0x48 : UInt8) ∉ _ by decide)
  | cons first front =>
    cases front with
    | nil =>
      have split : [first] ++ (hexName ++ [c]) ++ back = (first :: hexName) ++ (c :: back) := by
        simp
      rw [split]
      exact missed (first :: hexName) (c :: back) rfl (show (0x5b : UInt8) ∉ _ by decide)
    | cons second front =>
      have split : first :: second :: front ++ (hexName ++ [c]) ++ back =
          (first :: second :: front ++ ascii "[HEX] ") ++ 0 :: (c :: back) := by
        simp [hexName]
      have long : levelNameLen ≤ (first :: second :: front ++ ascii "[HEX] ").length := by
        have six : (ascii "[HEX] ").length = 6 := rfl
        have place : levelNameLen = 8 := rfl
        rw [List.length_append, List.length_cons, List.length_cons, six, place]
        omega
      have there : (0 : UInt8) ∈ ((first :: second :: front ++ (hexName ++ [c]) ++ back).drop
          levelNameLen).dropLast := by
        rw [split, List.drop_append_of_le_length long,
          List.dropLast_append_of_ne_nil (List.cons_ne_nil _ _)]
        exact List.mem_append_right _ List.mem_cons_self
      unfold readText
      rw [if_pos there]

/-- The front of a line with data, and its digits. -/
theorem readDump_name (front bytes : List UInt8) :
    readDump (front ++ hexName) (hexDigits bytes) = some (aheadOfZero front, bytes) := by
  have length : (front ++ hexName).length - hexName.length = front.length := by
    rw [List.length_append, Nat.add_sub_cancel]
  have dropped : (front ++ hexName).drop front.length = hexName := List.drop_left
  have taken : (front ++ hexName).take front.length = front := List.take_left
  unfold readDump
  rw [length, dropped, taken, if_pos rfl, readDigits_hexDigits]
  rfl

/-- A line with data is read back. -/
theorem readHex_name (front : List UInt8) (c : UInt8) (bytes : List UInt8) :
    readHex (front ++ (hexName ++ [c]) ++ hexDigits bytes) =
      some (aheadOfZero front, bytes) := by
  have none' : (0 : UInt8) ∉ hexDigits bytes := not_mem_hexDigits (by decide) bytes
  have digits := hexDigits_length bytes
  by_cases zero : c = 0
  · -- the byte behind the name ends it a second time
    subst zero
    have split : front ++ (hexName ++ [0]) ++ hexDigits bytes =
        (front ++ hexName) ++ 0 :: hexDigits bytes := by
      simp
    have last := behindLast_append none' (front ++ hexName)
    have before : ((front ++ hexName) ++ 0 :: hexDigits bytes).take
        (((front ++ hexName) ++ 0 :: hexDigits bytes).length - (hexDigits bytes).length) =
          front ++ hexName ++ [0] := by
      have whole : (front ++ hexName) ++ 0 :: hexDigits bytes =
          (front ++ hexName ++ [0]) ++ hexDigits bytes := by simp
      rw [whole, List.length_append, Nat.add_sub_cancel]
      exact List.take_left
    have even : ¬(hexDigits bytes).length % 2 = 1 := by omega
    unfold readHex
    rw [split, last]
    dsimp only
    rw [before, if_neg even, List.dropLast_concat]
    exact readDump_name front bytes
  · have split : front ++ (hexName ++ [c]) ++ hexDigits bytes =
        (front ++ ascii "[HEX] ") ++ 0 :: (c :: hexDigits bytes) := by
      simp [hexName]
    have none'' : (0 : UInt8) ∉ c :: hexDigits bytes := by
      intro member
      rcases List.mem_cons.mp member with same | later
      · exact zero same.symm
      · exact none' later
    have last := behindLast_append none'' (front ++ ascii "[HEX] ")
    have before : ((front ++ ascii "[HEX] ") ++ 0 :: (c :: hexDigits bytes)).take
        (((front ++ ascii "[HEX] ") ++ 0 :: (c :: hexDigits bytes)).length -
          (c :: hexDigits bytes).length) = front ++ hexName := by
      have whole : (front ++ ascii "[HEX] ") ++ 0 :: (c :: hexDigits bytes) =
          (front ++ hexName) ++ (c :: hexDigits bytes) := by simp [hexName]
      rw [whole, List.length_append, Nat.add_sub_cancel]
      exact List.take_left
    have odd : (c :: hexDigits bytes).length % 2 = 1 := by
      rw [List.length_cons]
      omega
    unfold readHex
    rw [split, last]
    dsimp only
    rw [before, if_pos odd]
    exact readDump_name front bytes

/-! ## Lines -/

variable {localtime : Int → Tm} {request : Int × LogCall}

/-- What a message's line is read as. -/
theorem readLine_bodyOf (readable : Readable localtime request) :
    readLine (bodyOf localtime request) = some (recordOf localtime request) := by
  have clean : ∀ c ∈ request.2.msg.text, c ≠ 0 := fun c member => (readable.text c member).1
  have stamped := readable.stamped
  unfold readLine bodyOf lineBody recordOf
  rcases readable.level with hex | text
  · rw [if_pos hex, if_pos hex, if_pos hex, hex, List.append_assoc, List.append_assoc,
      ← stamped, List.drop_left, List.take_left, ← List.append_assoc, levelBytes_hex,
      readText_hex]
    dsimp only
    have padded : aheadOfZero (paddedText request.2.msg.text) = request.2.msg.text.take 1023 :=
      aheadOfZero_append (fun c member => clean c (List.mem_of_mem_take member)) _
    rw [readHex_name, padded]
    rfl
  · have plain := textLevels_plain text
    rw [if_neg plain, if_neg plain, if_neg plain, List.append_assoc, ← stamped, List.drop_left,
      List.take_left, readText_text _ text clean]

end EpollNet
