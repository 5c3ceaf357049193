import EpollNet.Basis.Transition
import Mathlib.Data.List.Basic
import Mathlib.Logic.Function.Basic

/-!
# Channels that keep order

One first-in first-out channel for every key. `put` appends to the channel of its key and `take`
removes what it names from the front, and is not possible when the front is something else. Over
any run of them, what was put into a channel is what was taken from it and what is left in it.
-/

namespace EpollNet.Basis

variable {κ β : Type}

/-- Something enters or leaves the channel of a key. -/
inductive ChannelEvent (κ β : Type) where
  /-- It enters at the back. -/
  | put (key : κ) (things : List β)
  /-- It leaves at the front. -/
  | take (key : κ) (things : List β)
deriving DecidableEq

/-- What the channels hold. -/
abbrev Channels (κ β : Type) := κ → List β

variable [DecidableEq κ] [DecidableEq β]

/-- One event; a `take` needs its things to be in front. -/
def Channels.step (ch : Channels κ β) : ChannelEvent κ β → Option (Channels κ β)
  | .put key things => some (Function.update ch key (ch key ++ things))
  | .take key things =>
    if things <+: ch key then some (Function.update ch key ((ch key).drop things.length)) else none

/-- What the events put into the channel of a key. -/
def puts (key : κ) (events : List (ChannelEvent κ β)) : List β :=
  events.flatMap fun
    | .put k things => if k = key then things else []
    | .take _ _ => []

/-- What they took from it. -/
def takes (key : κ) (events : List (ChannelEvent κ β)) : List β :=
  events.flatMap fun
    | .put _ _ => []
    | .take k things => if k = key then things else []

omit [DecidableEq β] in
/-- What two runs in a row put is what the first puts and then the second. -/
theorem puts_append (key : κ) (first second : List (ChannelEvent κ β)) :
    puts key (first ++ second) = puts key first ++ puts key second := List.flatMap_append

omit [DecidableEq β] in
/-- What two runs in a row take is what the first takes and then the second. -/
theorem takes_append (key : κ) (first second : List (ChannelEvent κ β)) :
    takes key (first ++ second) = takes key first ++ takes key second := List.flatMap_append

variable {ch ch' : Channels κ β} {key : κ} {things : List β} {events : List (ChannelEvent κ β)}

/-- The events only put something in. -/
def Puts (events : List (ChannelEvent κ β)) : Prop :=
  ∀ event ∈ events, ∃ key things, event = .put key things

omit [DecidableEq κ] [DecidableEq β] in
/-- Two lists of puts are one. -/
theorem Puts.append {first second : List (ChannelEvent κ β)} (left : Puts first)
    (right : Puts second) : Puts (first ++ second) := by
  intro event member
  exact (List.mem_append.mp member).elim (left event) (right event)

/-- Events that only put something in are always possible. -/
theorem Channels.run_puts (only : Puts events) :
    run Channels.step ch events = some fun key => ch key ++ puts key events := by
  induction events generalizing ch with
  | nil =>
    refine congrArg some (funext fun key => ?_)
    exact (List.append_nil _).symm
  | cons event rest ih =>
    obtain ⟨key, things, rfl⟩ := only event List.mem_cons_self
    rw [run, Channels.step, Option.bind_some,
      ih fun later member => only later (List.mem_cons_of_mem _ member)]
    refine congrArg some (funext fun other => ?_)
    by_cases same : key = other
    · subst same
      simp [puts]
    · simp [puts, same, Function.update_of_ne (Ne.symm same)]

/-- What is in front can be taken. -/
theorem Channels.step_take {left : List β} (front : ch key = things ++ left) :
    Channels.step ch (.take key things) = some (Function.update ch key left) := by
  have first : things <+: ch key := ⟨left, front.symm⟩
  rw [Channels.step, if_pos first, front, List.drop_left]

/-- In one event. -/
theorem Channels.step_conserves {event : ChannelEvent κ β}
    (stepped : Channels.step ch event = some ch') (key : κ) :
    ch key ++ puts key [event] = takes key [event] ++ ch' key := by
  cases event with
  | put k things =>
    obtain rfl := Option.some.inj stepped
    by_cases same : k = key
    · simp [puts, takes, same]
    · simp [puts, takes, same, Function.update_of_ne (Ne.symm same)]
  | take k things =>
    simp only [Channels.step] at stepped
    split at stepped
    · rename_i front
      obtain rfl := Option.some.inj stepped
      obtain ⟨left, split⟩ := front
      by_cases same : k = key
      · subst same
        simp [puts, takes, ← split]
      · simp [puts, takes, same, Function.update_of_ne (Ne.symm same)]
    · contradiction

/-- What was in a channel and what was put into it is what was taken from it and what is left. -/
theorem Channels.run_conserves (ran : run Channels.step ch events = some ch') (key : κ) :
    ch key ++ puts key events = takes key events ++ ch' key := by
  induction events generalizing ch with
  | nil =>
    obtain rfl := Option.some.inj ran
    exact List.append_nil _
  | cons event rest ih =>
    obtain ⟨next, stepped, ran⟩ := Option.bind_eq_some_iff.mp ran
    have first := Channels.step_conserves stepped key
    have later := ih ran
    calc ch key ++ puts key (event :: rest)
      _ = (ch key ++ puts key [event]) ++ puts key rest := by
        rw [List.append_assoc, ← puts_append, List.singleton_append]
      _ = takes key [event] ++ (next key ++ puts key rest) := by
        rw [first, List.append_assoc]
      _ = takes key [event] ++ takes key rest ++ ch' key := by
        rw [later, List.append_assoc]
      _ = takes key (event :: rest) ++ ch' key := by
        rw [← takes_append, List.singleton_append]

end EpollNet.Basis
