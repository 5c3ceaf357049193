import EpollNet.Basis.Channels
import Mathlib.Data.List.Forall2

/-!
# Boxes that hold one message

One box for every key, with room for one message. A message put in replaces the one that was there.
Taking the whole message leaves it in the box, so that it can be taken again; taking a part of it
loses the rest. Over any run every message is taken a number of times and then perhaps in part, and
the messages of a key come in the order in which they were put in.
-/

namespace EpollNet.Basis

variable {κ β : Type}

/-- What the boxes hold; an empty box holds the empty message. -/
abbrev Boxes (κ β : Type) := κ → List β

variable [DecidableEq κ] [DecidableEq β]

/-- One event; a `take` needs its things to be a beginning of the message. -/
def Boxes.step (box : Boxes κ β) : ChannelEvent κ β → Option (Boxes κ β)
  | .put key message => some (Function.update box key message)
  | .take key things =>
    if things <+: box key then
      if things = [] ∨ things = box key then some box else some (Function.update box key [])
    else none

/-- The messages put into the box of a key, oldest first. -/
def messages (key : κ) (events : List (ChannelEvent κ β)) : List (List β) :=
  events.flatMap fun
    | .put k message => if k = key then [message] else []
    | .take _ _ => []

/-- A message any number of times over, and then a beginning of it. -/
def Repeated (message things : List β) : Prop :=
  ∃ copies part, part <+: message ∧ things = (List.replicate copies message).flatten ++ part

omit [DecidableEq κ] [DecidableEq β]

/-- Not taken at all. -/
theorem Repeated.none (message : List β) : Repeated message [] :=
  ⟨0, [], List.nil_prefix, rfl⟩

/-- Whole copies, and then one more or a beginning of one. -/
theorem Repeated.more {message part : List β} (copies : Nat) (front : part <+: message) :
    Repeated message ((List.replicate copies message).flatten ++ part) :=
  ⟨copies, part, front, rfl⟩

variable {box box' : Boxes κ β} {key : κ} {message : List β}
  {event : ChannelEvent κ β} {events earlier : List (ChannelEvent κ β)}

section

variable [DecidableEq κ]

/-- The messages of two runs in a row are those of the first and then of the second. -/
theorem messages_append (key : κ) (first second : List (ChannelEvent κ β)) :
    messages key (first ++ second) = messages key first ++ messages key second :=
  List.flatMap_append

/-- What was taken of a key so far: some of every message but the newest, and of that one too
unless it is still in the box, when it was taken whole each time. -/
structure Account (box : Boxes κ β) (key : κ) (events : List (ChannelEvent κ β)) : Prop where
  /-- Messages and what was taken of them, in order. -/
  taken : ∃ blocks, List.Forall₂ Repeated (messages key events) blocks ∧
    takes key events = blocks.flatten
  /-- The message in the box is the newest. -/
  newest : box key ≠ [] → ∃ before blocks copies, messages key events = before ++ [box key] ∧
    List.Forall₂ Repeated before blocks ∧
      takes key events = blocks.flatten ++ (List.replicate copies (box key)).flatten

/-- Events of other keys change no account. -/
theorem Account.other (account : Account box key earlier) (same : box' key = box key)
    (unread : messages key [event] = []) (untaken : takes key [event] = []) :
    Account box' key (earlier ++ [event]) := by
  have whole : messages key (earlier ++ [event]) = messages key earlier := by
    rw [messages_append, unread, List.append_nil]
  have all : takes key (earlier ++ [event]) = takes key earlier := by
    rw [takes_append, untaken, List.append_nil]
  constructor
  · rw [whole, all]
    exact account.taken
  · rw [whole, all, same]
    exact account.newest

/-- A message is put in. -/
theorem Account.put (account : Account box key earlier) (message : List β) :
    Account (Function.update box key message) key (earlier ++ [.put key message]) := by
  obtain ⟨blocks, repeated, taken⟩ := account.taken
  have whole : messages key (earlier ++ [.put key message]) =
      messages key earlier ++ [message] := by
    rw [messages_append]
    simp [messages]
  have all : takes key (earlier ++ [.put key message]) = takes key earlier := by
    rw [takes_append]
    simp [takes]
  constructor
  · refine ⟨blocks ++ [[]], ?_, ?_⟩
    · rw [whole]
      exact List.rel_append repeated (.cons (.none message) .nil)
    · rw [all, taken]
      simp
  · intro _
    refine ⟨messages key earlier, blocks, 0, ?_, repeated, ?_⟩
    · rw [whole, Function.update_self]
    · rw [all, taken]
      simp

/-- The message in the box is taken, whole or in part. -/
theorem Account.take {things : List β} (account : Account box key earlier)
    (front : things <+: box key) (some' : things ≠ []) :
    (∃ blocks, List.Forall₂ Repeated (messages key (earlier ++ [.take key things])) blocks ∧
      takes key (earlier ++ [.take key things]) = blocks.flatten) ∧
    (things = box key → Account box key (earlier ++ [.take key things])) := by
  have full : box key ≠ [] := by
    intro empty
    rw [empty] at front
    exact some' (List.prefix_nil.mp front)
  obtain ⟨before, blocks, copies, newest, repeated, taken⟩ := account.newest full
  have whole : messages key (earlier ++ [.take key things]) = before ++ [box key] := by
    rw [messages_append, newest]
    simp [messages]
  have all : takes key (earlier ++ [.take key things]) =
      blocks.flatten ++ ((List.replicate copies (box key)).flatten ++ things) := by
    rw [takes_append, taken, List.append_assoc]
    simp [takes]
  have blocked : ∃ blocks, List.Forall₂ Repeated (messages key (earlier ++ [.take key things]))
      blocks ∧ takes key (earlier ++ [.take key things]) = blocks.flatten := by
    refine ⟨blocks ++ [(List.replicate copies (box key)).flatten ++ things], ?_, ?_⟩
    · rw [whole]
      exact List.rel_append repeated (.cons (.more copies front) .nil)
    · rw [all]
      simp
  refine ⟨blocked, fun once => ⟨blocked, fun _ => ?_⟩⟩
  refine ⟨before, blocks, copies + 1, whole, repeated, ?_⟩
  rw [all, List.replicate_succ', List.flatten_append, once]
  simp

end

variable [DecidableEq κ] [DecidableEq β]

/-- One event keeps the accounts. -/
theorem Account.step (account : Account box key earlier)
    (stepped : Boxes.step box event = some box') : Account box' key (earlier ++ [event]) := by
  cases event with
  | put k message =>
    obtain rfl := Option.some.inj stepped
    by_cases own : k = key
    · subst own
      exact account.put message
    · apply account.other
      · exact Function.update_of_ne (Ne.symm own) _ _
      · simp [messages, own]
      · simp [takes]
  | take k things =>
    simp only [Boxes.step] at stepped
    split at stepped
    · rename_i front
      by_cases own : k = key
      · subst own
        by_cases empty : things = []
        · subst empty
          rw [if_pos (.inl rfl)] at stepped
          obtain rfl := Option.some.inj stepped
          exact account.other rfl (by simp [messages]) (by simp [takes])
        · obtain ⟨blocked, whole⟩ := account.take front empty
          split at stepped
          · rename_i all
            obtain rfl := Option.some.inj stepped
            exact whole (all.resolve_left empty)
          · obtain rfl := Option.some.inj stepped
            refine ⟨blocked, fun still => absurd ?_ still⟩
            exact Function.update_self _ _ _
      · apply account.other
        · split at stepped
          · obtain rfl := Option.some.inj stepped
            rfl
          · obtain rfl := Option.some.inj stepped
            exact Function.update_of_ne (Ne.symm own) _ _
        · simp [messages]
        · simp [takes, own]
    · contradiction

/-- So does a run. -/
theorem Account.run (account : Account box key earlier)
    (ran : run Boxes.step box events = some box') : Account box' key (earlier ++ events) := by
  induction events generalizing box earlier with
  | nil =>
    obtain rfl := Option.some.inj ran
    rw [List.append_nil]
    exact account
  | cons event rest ih =>
    obtain ⟨next, stepped, ran⟩ := Option.bind_eq_some_iff.mp ran
    have later := ih (account.step stepped) ran
    rw [List.append_assoc, List.singleton_append] at later
    exact later

/-- In every run from empty boxes what was taken of a key is its messages in order, each of them any
number of times over and then perhaps in part. -/
theorem Boxes.run_blocks (ran : Basis.run Boxes.step (fun _ => []) events = some box) (key : κ) :
    Account box key events := by
  have empty : Account (fun _ : κ => ([] : List β)) key [] :=
    ⟨⟨[], .nil, rfl⟩, fun some' => absurd rfl some'⟩
  exact empty.run ran

end EpollNet.Basis
