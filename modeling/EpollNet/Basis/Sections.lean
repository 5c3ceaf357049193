import EpollNet.Basis.Calls
import EpollNet.Basis.Descent

/-!
# Sections under one lock

Threads make calls. A call takes the lock, takes its steps one by one on what is shared and on what
is its own, gives the lock back and returns. Whatever the order of the threads' steps, the calls
leave and return what they would one after the other in the order in which they took the lock, in
which each thread's calls are in the order it made them; and all of them return.
-/

namespace EpollNet.Basis

variable {κ ε ρ σ π : Type}

/-! ## The system -/

/-- A step on what is shared and on what is the caller's own. -/
abbrev Stage (ε σ π : Type) := σ × π → Except ε (σ × π)

/-- What calls do under the lock. -/
structure Section (κ ε ρ σ π : Type) where
  /-- What a caller has of its own to begin with. -/
  enter : κ → π
  /-- The steps of a call. -/
  steps : κ → List (Stage ε σ π)
  /-- What the call returns. -/
  result : π → ρ

/-- Where a thread is. -/
inductive Caller (κ ε σ π : Type) where
  /-- It makes no call. -/
  | outside
  /-- It is about to take the lock. -/
  | locking (call : κ)
  /-- It has the lock, and these steps to go. -/
  | inside (call : κ) (own : π) (rest : List (Stage ε σ π))

/-- Threads that make calls under one lock. -/
structure Sections (κ ε ρ σ π : Type) where
  /-- What is shared. -/
  shared : σ
  /-- Some thread has the lock. -/
  locked : Bool
  /-- The threads, by number. -/
  callers : List (Caller κ ε σ π)
  /-- The calls in the order in which they were made, with their threads. -/
  made : List (Nat × κ)
  /-- The calls in the order in which they took the lock. -/
  entered : List (Nat × κ)
  /-- What calls returned, in the order in which they gave the lock back. -/
  returned : List (Nat × ρ)
  /-- How a step failed. Nothing happens after that. -/
  failed : Option ε

/-- A thread makes a call, or takes a step of the one it made. -/
inductive SectionLabel (κ : Type) where
  /-- Thread `t` makes a call. -/
  | call (t : Nat) (call : κ)
  /-- Thread `t` takes a step. -/
  | thread (t : Nat)

namespace Sections

/-- No calls yet, with so many threads. -/
def create (shared : σ) (n : Nat) : Sections κ ε ρ σ π :=
  ⟨shared, false, List.replicate n .outside, [], [], [], none⟩

/-- Move one thread. -/
def turn (s : Sections κ ε ρ σ π) (t : Nat) (caller : Caller κ ε σ π) : Sections κ ε ρ σ π :=
  { s with callers := s.callers.set t caller }

/-- A step of thread `t`. -/
def advance (work : Section κ ε ρ σ π) (s : Sections κ ε ρ σ π) (t : Nat) :
    Option (Sections κ ε ρ σ π) :=
  match s.callers[t]? with
  | some (.locking call) =>
    if s.locked then none
    else some { s.turn t (.inside call (work.enter call) (work.steps call)) with
      locked := true
      entered := s.entered ++ [(t, call)] }
  | some (.inside call own (stage :: rest)) =>
    match stage (s.shared, own) with
    | .ok (shared, own) => some { s.turn t (.inside call own rest) with shared := shared }
    | .error e => some { s with failed := some e }
  | some (.inside _ own []) =>
    some { s.turn t .outside with
      locked := false
      returned := s.returned ++ [(t, work.result own)] }
  | _ => none

/-- One step; `none` when the label is not enabled. -/
def step (work : Section κ ε ρ σ π) (s : Sections κ ε ρ σ π) :
    SectionLabel κ → Option (Sections κ ε ρ σ π)
  | .call t call =>
    match s.failed, s.callers[t]? with
    | none, some .outside =>
      some { s.turn t (.locking call) with made := s.made ++ [(t, call)] }
    | _, _ => none
  | .thread t =>
    match s.failed with
    | none => s.advance work t
    | some _ => none

end Sections

/-- What stages do one after the other. -/
def through (steps : List (Stage ε σ π)) (start : σ × π) : Except ε (σ × π) :=
  steps.foldlM (fun here stage => stage here) start

/-- A call that nothing comes between. -/
def Section.whole (work : Section κ ε ρ σ π) (call : κ) (shared : σ) : Except ε (ρ × σ) := do
  let (shared, own) ← through (work.steps call) (shared, work.enter call)
  .ok (work.result own, shared)

/-! ## What was done -/

/-- The call that a thread has yet to take the lock for. -/
def Caller.pending : Caller κ ε σ π → List κ
  | .locking call => [call]
  | _ => []

/-- The thread has the lock. -/
def Caller.holds : Caller κ ε σ π → Bool
  | .inside .. => true
  | _ => false

/-- A thread's calls among some. -/
def callsOf (t : Nat) (calls : List (Nat × κ)) : List κ :=
  (calls.filter fun entry => entry.1 == t).map Prod.snd

/-- Nobody has called yet. -/
@[simp] theorem callsOf_nil (t : Nat) : callsOf t ([] : List (Nat × κ)) = [] := rfl

/-- A thread's own call is its last. -/
theorem callsOf_concat_same (t : Nat) (calls : List (Nat × κ)) (call : κ) :
    callsOf t (calls ++ [(t, call)]) = callsOf t calls ++ [call] := by
  simp [callsOf]

/-- Another thread's call changes nothing. -/
theorem callsOf_concat_other {t u : Nat} (other : u ≠ t) (calls : List (Nat × κ)) (call : κ) :
    callsOf t (calls ++ [(u, call)]) = callsOf t calls := by
  simp [callsOf, other]

/-- Stages in a row are run one part after the other. -/
theorem through_append (first second : List (Stage ε σ π)) (start : σ × π) :
    through (first ++ second) start = through first start >>= through second :=
  List.foldlM_append

/-- The first stage, and the others from where it ends. -/
theorem through_cons (stage : Stage ε σ π) (rest : List (Stage ε σ π)) (start : σ × π) :
    through (stage :: rest) start = stage start >>= through rest :=
  List.foldlM_cons

/-- One more call after some that ended. -/
theorem calls_concat_ok {call : κ → σ → Except ε (ρ × σ)} {ops : List κ} {op : κ} {s s' s'' : σ}
    {results : List ρ} {result : ρ} (ended : calls call ops s = .ok (results, s'))
    (called : call op s' = .ok (result, s'')) :
    calls call (ops ++ [op]) s = .ok (results ++ [result], s'') := by
  induction ops generalizing s results with
  | nil =>
    obtain ⟨rfl, rfl⟩ := Prod.mk.inj (Except.ok.inj ended)
    rw [List.nil_append, calls, called]
    rfl
  | cons other ops ih =>
    obtain ⟨⟨first, here⟩, begun, ended⟩ := bind_ends ended
    obtain ⟨⟨rest, there⟩, continued, ended⟩ := bind_ends ended
    obtain ⟨rfl, rfl⟩ := Prod.mk.inj (Except.ok.inj ended)
    have later := ih continued
    rw [List.cons_append, calls, begun, ok_bind]
    show calls call (ops ++ [op]) here >>= _ = _
    rw [later]
    rfl

/-- One that fails after some that ended. -/
theorem calls_concat_error {call : κ → σ → Except ε (ρ × σ)} {ops : List κ} {op : κ} {s s' : σ}
    {results : List ρ} {e : ε} (ended : calls call ops s = .ok (results, s'))
    (called : call op s' = .error e) : calls call (ops ++ [op]) s = .error e := by
  induction ops generalizing s results with
  | nil =>
    obtain ⟨rfl, rfl⟩ := Prod.mk.inj (Except.ok.inj ended)
    rw [List.nil_append, calls, called]
    rfl
  | cons other ops ih =>
    obtain ⟨⟨first, here⟩, begun, ended⟩ := bind_ends ended
    obtain ⟨⟨rest, there⟩, continued, ended⟩ := bind_ends ended
    obtain ⟨rfl, rfl⟩ := Prod.mk.inj (Except.ok.inj ended)
    have later := ih continued
    rw [List.cons_append, calls, begun, ok_bind]
    show calls call (ops ++ [op]) here >>= _ = _
    rw [later]
    rfl

/-- What one more call means. -/
theorem meaning_concat {τ : Type} (act : κ → τ → ρ × τ) (ops : List κ) (op : κ) (value : τ) :
    (meaning act (ops ++ [op]) value).2 = (act op (meaning act ops value).2).2 := by
  induction ops generalizing value with
  | nil => rfl
  | cons other ops ih => exact ih (act other value).2

/-! ## The order of the calls -/

/-- So far the calls did what they do one after the other. `first` is what was shared to begin
with. -/
inductive Serialized (work : Section κ ε ρ σ π) (first : σ) (s : Sections κ ε ρ σ π) : Prop where
  /-- No thread has the lock. -/
  | free (fine : s.failed = none) (unlocked : s.locked = false)
      (nobody : ∀ caller ∈ s.callers, caller.holds = false)
      (threads : s.returned.map Prod.fst = s.entered.map Prod.fst)
      (done : calls work.whole (s.entered.map Prod.snd) first =
        .ok (s.returned.map Prod.snd, s.shared))
  /-- A thread has the lock and has taken some of its steps. -/
  | held {t : Nat} {call : κ} {own : π} {taken rest : List (Stage ε σ π)}
      {before : List (Nat × κ)} {shared : σ} (fine : s.failed = none) (locked : s.locked = true)
      (here : s.callers[t]? = some (.inside call own rest))
      (alone : ∀ u caller, u ≠ t → s.callers[u]? = some caller → caller.holds = false)
      (latest : s.entered = before ++ [(t, call)])
      (threads : s.returned.map Prod.fst = before.map Prod.fst)
      (done : calls work.whole (before.map Prod.snd) first =
        .ok (s.returned.map Prod.snd, shared))
      (steps : work.steps call = taken ++ rest)
      (midway : through taken (shared, work.enter call) = .ok (s.shared, own))
  /-- A step failed. -/
  | failed {e : ε} (wrong : s.failed = some e)
      (done : calls work.whole (s.entered.map Prod.snd) first = .error e)

/-- The call that thread `t` has yet to take the lock for. -/
def Sections.pendingOf (s : Sections κ ε ρ σ π) (t : Nat) : List κ :=
  match s.callers[t]? with
  | some caller => caller.pending
  | none => []

/-- Each thread's calls took the lock in the order in which it made them, all but the one it has
yet to take the lock for. -/
def InTurn (s : Sections κ ε ρ σ π) : Prop :=
  ∀ t, callsOf t s.made = callsOf t s.entered ++ s.pendingOf t

variable {work : Section κ ε ρ σ π} {s s' : Sections κ ε ρ σ π} {first : σ} {t : Nat} {call : κ}
  {own : π} {stage : Stage ε σ π} {rest : List (Stage ε σ π)} {old : Caller κ ε σ π}

/-- What a thread did when it took a step. -/
inductive Advanced (work : Section κ ε ρ σ π) (s : Sections κ ε ρ σ π) (t : Nat) :
    Sections κ ε ρ σ π → Prop
  /-- It took the lock. -/
  | lock {call : κ} (found : s.callers[t]? = some (.locking call)) (unlocked : s.locked = false) :
      Advanced work s t { s.turn t (.inside call (work.enter call) (work.steps call)) with
        locked := true
        entered := s.entered ++ [(t, call)] }
  /-- It went on. -/
  | stage {call : κ} {own own' : π} {stage : Stage ε σ π} {rest : List (Stage ε σ π)} {shared : σ}
      (found : s.callers[t]? = some (.inside call own (stage :: rest)))
      (ended : stage (s.shared, own) = .ok (shared, own')) :
      Advanced work s t { s.turn t (.inside call own' rest) with shared := shared }
  /-- It failed. -/
  | fail {call : κ} {own : π} {stage : Stage ε σ π} {rest : List (Stage ε σ π)} {e : ε}
      (found : s.callers[t]? = some (.inside call own (stage :: rest)))
      (wrong : stage (s.shared, own) = .error e) : Advanced work s t { s with failed := some e }
  /-- It gave the lock back. -/
  | unlock {call : κ} {own : π} (found : s.callers[t]? = some (.inside call own [])) :
      Advanced work s t { s.turn t .outside with
        locked := false
        returned := s.returned ++ [(t, work.result own)] }

/-- A step of a thread is one of these. -/
theorem advance_cases (stepped : s.advance work t = some s') : Advanced work s t s' := by
  unfold Sections.advance at stepped
  split at stepped
  · rename_i call found
    split at stepped
    · contradiction
    · rename_i unlocked
      obtain rfl := Option.some.inj stepped
      exact .lock found (Bool.eq_false_iff.mpr unlocked)
  · rename_i call own stage rest found
    split at stepped
    · rename_i shared own' ended
      obtain rfl := Option.some.inj stepped
      exact .stage found ended
    · rename_i e wrong
      obtain rfl := Option.some.inj stepped
      exact .fail found wrong
  · rename_i call own found
    obtain rfl := Option.some.inj stepped
    exact .unlock found
  · contradiction

/-- A thread takes a step where none failed. -/
theorem step_thread (stepped : s.step work (.thread t) = some s') :
    s.failed = none ∧ Advanced work s t s' := by
  unfold Sections.step at stepped
  dsimp only at stepped
  split at stepped
  · rename_i fine
    exact ⟨fine, advance_cases stepped⟩
  · contradiction

/-- A thread that makes a call made none. -/
theorem step_call (stepped : s.step work (.call t call) = some s') :
    s.failed = none ∧ s.callers[t]? = some .outside ∧
      s' = { s.turn t (.locking call) with made := s.made ++ [(t, call)] } := by
  unfold Sections.step at stepped
  dsimp only at stepped
  split at stepped
  · rename_i fine found
    exact ⟨fine, found, (Option.some.inj stepped).symm⟩
  · contradiction

/-- Where the threads are when one of them moved. -/
theorem callers_turn (s : Sections κ ε ρ σ π) {caller : Caller κ ε σ π} {u : Nat}
    {other : Caller κ ε σ π} (there : (s.turn t caller).callers[u]? = some other) :
    (u = t ∧ other = caller) ∨ (u ≠ t ∧ s.callers[u]? = some other) := by
  by_cases same : u = t
  · left
    subst same
    have inside : u < (s.callers.set u caller).length :=
      (List.getElem?_eq_some_iff.mp there).1
    rw [List.length_set] at inside
    have moved : (s.callers.set u caller)[u]? = some caller := List.getElem?_set_self inside
    exact ⟨rfl, Option.some.inj (there.symm.trans moved)⟩
  · right
    have kept : (s.callers.set t caller)[u]? = s.callers[u]? :=
      List.getElem?_set_ne fun h => same h.symm
    exact ⟨same, kept.symm.trans there⟩

/-- A thread that moved is where it moved to. -/
theorem turned (found : s.callers[t]? = some old) (caller : Caller κ ε σ π) :
    (s.turn t caller).callers[t]? = some caller :=
  List.getElem?_set_self (List.getElem?_eq_some_iff.mp found).1

/-- Where no thread has the lock and one moves outside, none has it. -/
theorem nobody_turn (nobody : ∀ caller ∈ s.callers, caller.holds = false)
    {caller : Caller κ ε σ π} (outside : caller.holds = false) :
    ∀ other ∈ (s.turn t caller).callers, other.holds = false := by
  intro other member
  rcases List.mem_or_eq_of_mem_set member with old | rfl
  · exact nobody other old
  · exact outside

/-- A call that is made changes nothing that was done. -/
theorem Serialized.made (serial : Serialized work first s) (found : s.callers[t]? = some .outside)
    (fine : s.failed = none) (call : κ) :
    Serialized work first { s.turn t (.locking call) with made := s.made ++ [(t, call)] } := by
  cases serial with
  | free _ unlocked nobody threads done =>
    exact .free fine unlocked (nobody_turn nobody rfl) threads done
  | @held holder _ _ _ _ _ _ _ locked here alone latest threads done steps midway =>
    have apart : holder ≠ t := by
      rintro rfl
      rw [here] at found
      cases found
    refine .held fine locked ?_ ?_ latest threads done steps midway
    · exact (List.getElem?_set_ne fun h => apart h.symm).trans here
    · intro u other different there
      rcases callers_turn s there with ⟨_, rfl⟩ | ⟨_, before⟩
      · rfl
      · exact alone u other different before
  | failed wrong _ =>
    rw [fine] at wrong
    cases wrong

/-- Where no thread has the lock, one that takes a step takes the lock. -/
theorem Serialized.locks (advanced : Advanced work s t s') (fine : s.failed = none)
    (nobody : ∀ caller ∈ s.callers, caller.holds = false)
    (threads : s.returned.map Prod.fst = s.entered.map Prod.fst)
    (done : calls work.whole (s.entered.map Prod.snd) first =
      .ok (s.returned.map Prod.snd, s.shared)) : Serialized work first s' := by
  have outside : ∀ call own rest, s.callers[t]? ≠ some (.inside call own rest) := by
    intro call own rest found
    have impossible := nobody _ (List.mem_of_getElem? found)
    cases impossible
  cases advanced with
  | lock found _ =>
    refine .held fine rfl (turned found _) ?_ rfl threads done (List.nil_append _).symm rfl
    intro u other different there
    rcases callers_turn s there with ⟨same, _⟩ | ⟨_, before⟩
    · exact (different same).elim
    · exact nobody other (List.mem_of_getElem? before)
  | stage found _ => exact (outside _ _ _ found).elim
  | fail found _ => exact (outside _ _ _ found).elim
  | unlock found => exact (outside _ _ _ found).elim

/-- The thread that has the lock goes on with the call that took it last. -/
theorem Serialized.goes {taken : List (Stage ε σ π)} {before : List (Nat × κ)} {shared : σ}
    {holder : Nat} (advanced : Advanced work s t s') (fine : s.failed = none)
    (locked : s.locked = true) (here : s.callers[holder]? = some (.inside call own rest))
    (alone : ∀ u caller, u ≠ holder → s.callers[u]? = some caller → caller.holds = false)
    (latest : s.entered = before ++ [(holder, call)])
    (threads : s.returned.map Prod.fst = before.map Prod.fst)
    (done : calls work.whole (before.map Prod.snd) first =
      .ok (s.returned.map Prod.snd, shared))
    (steps : work.steps call = taken ++ rest)
    (midway : through taken (shared, work.enter call) = .ok (s.shared, own)) :
    Serialized work first s' := by
  have sole : ∀ call' own' rest', s.callers[t]? = some (.inside call' own' rest') →
      t = holder ∧ call' = call ∧ own' = own ∧ rest' = rest := by
    intro call' own' rest' found
    by_cases same : t = holder
    · subst same
      rw [here] at found
      obtain ⟨rfl, rfl, rfl⟩ := Caller.inside.inj (Option.some.inj found)
      exact ⟨rfl, rfl, rfl, rfl⟩
    · have impossible := alone t _ same found
      cases impossible
  cases advanced with
  | lock _ unlocked =>
    rw [locked] at unlocked
    cases unlocked
  | stage found ended =>
    obtain ⟨rfl, rfl, rfl, rfl⟩ := sole _ _ _ found
    refine .held fine locked (turned here _) ?_ latest threads done
      (steps.trans (List.append_cons taken _ _)) ?_
    · intro u other different there
      rcases callers_turn s there with ⟨same, _⟩ | ⟨_, before⟩
      · exact (different same).elim
      · exact alone u other different before
    · rw [through_append, midway, ok_bind, through_cons, ended]
      rfl
  | @fail call' _ _ _ e found wrong =>
    obtain ⟨rfl, rfl, rfl, rfl⟩ := sole _ _ _ found
    have failed : work.whole call' shared = .error e := by
      unfold Section.whole
      rw [steps, through_append, midway, ok_bind, through_cons, wrong]
      rfl
    refine .failed rfl ?_
    show calls work.whole (s.entered.map Prod.snd) first = _
    rw [latest, List.map_append]
    exact calls_concat_error done failed
  | @unlock call' own' found =>
    obtain ⟨rfl, rfl, rfl, rfl⟩ := sole _ _ _ found
    have ended : work.whole call' shared = .ok (work.result own', s.shared) := by
      unfold Section.whole
      rw [steps, List.append_nil, midway]
      rfl
    refine .free fine rfl ?_ ?_ ?_
    · intro caller member
      obtain ⟨u, there⟩ := List.mem_iff_getElem?.mp member
      rcases callers_turn s there with ⟨_, rfl⟩ | ⟨different, before⟩
      · rfl
      · exact alone u caller different before
    · show (s.returned ++ [_]).map Prod.fst = s.entered.map Prod.fst
      rw [latest, List.map_append, List.map_append, threads]
      rfl
    · show calls work.whole (s.entered.map Prod.snd) first =
        .ok ((s.returned ++ [_]).map Prod.snd, s.shared)
      rw [latest, List.map_append, List.map_append]
      exact calls_concat_ok done ended

/-- Every step keeps the calls one after the other. -/
theorem Serialized.step {l : SectionLabel κ} (serial : Serialized work first s)
    (stepped : s.step work l = some s') : Serialized work first s' := by
  cases l with
  | call t call =>
    obtain ⟨fine, found, rfl⟩ := step_call stepped
    exact serial.made found fine call
  | thread t =>
    obtain ⟨fine, advanced⟩ := step_thread stepped
    cases serial with
    | free _ _ nobody threads done => exact Serialized.locks advanced fine nobody threads done
    | held _ locked here alone latest threads done steps midway =>
      exact Serialized.goes advanced fine locked here alone latest threads done steps midway
    | failed wrong _ =>
      rw [fine] at wrong
      cases wrong

/-- The calls yet to take the lock when a thread moved. -/
theorem pendingOf_turn (found : s.callers[t]? = some old) (caller : Caller κ ε σ π) (u : Nat) :
    (s.turn t caller).pendingOf u = if u = t then caller.pending else s.pendingOf u := by
  unfold Sections.pendingOf
  by_cases same : u = t
  · subst same
    rw [turned found, if_pos rfl]
  · have kept : (s.turn t caller).callers[u]? = s.callers[u]? :=
      List.getElem?_set_ne fun h => same h.symm
    rw [kept, if_neg same]

/-- Every step keeps the calls of each thread in order. -/
theorem InTurn.step {l : SectionLabel κ} (turns : InTurn s) (stepped : s.step work l = some s') :
    InTurn s' := by
  have moved : ∀ {t old}, s.callers[t]? = some old → ∀ caller : Caller κ ε σ π,
      caller.pending = old.pending → ∀ u,
        callsOf u s.made = callsOf u s.entered ++ (s.turn t caller).pendingOf u := by
    intro t old found caller same u
    rw [pendingOf_turn found]
    by_cases here : u = t
    · rw [if_pos here, same, turns u, here, Sections.pendingOf, found]
    · rw [if_neg here, turns u]
  cases l with
  | call t call =>
    obtain ⟨_, found, rfl⟩ := step_call stepped
    intro u
    show callsOf u (s.made ++ [(t, call)]) =
      callsOf u s.entered ++ (s.turn t (.locking call)).pendingOf u
    rw [pendingOf_turn found]
    by_cases here : u = t
    · subst here
      rw [callsOf_concat_same, turns u, if_pos rfl, Sections.pendingOf, found]
      rw [List.append_assoc]
      rfl
    · rw [callsOf_concat_other fun h => here h.symm, turns u, if_neg here]
  | thread t =>
    obtain ⟨_, advanced⟩ := step_thread stepped
    cases advanced with
    | @lock call found _ =>
      intro u
      show callsOf u s.made = callsOf u (s.entered ++ [(t, call)]) ++
        (s.turn t (.inside call (work.enter call) (work.steps call))).pendingOf u
      rw [pendingOf_turn found]
      by_cases here : u = t
      · subst here
        rw [callsOf_concat_same, turns u, if_pos rfl, Sections.pendingOf, found]
        exact (List.append_nil _).symm
      · rw [callsOf_concat_other fun h => here h.symm, turns u, if_neg here]
    | stage found _ => exact moved found _ rfl
    | fail _ _ => exact turns
    | unlock found => exact moved found _ rfl

/-! ## Every call returns -/

/-- Steps of a thread until it has returned. -/
def Caller.toDo (work : Section κ ε ρ σ π) : Caller κ ε σ π → Nat
  | .outside => 0
  | .locking call => (work.steps call).length + 2
  | .inside _ _ rest => rest.length + 1

/-- Steps of all of them. -/
def Sections.toDo (work : Section κ ε ρ σ π) (s : Sections κ ε ρ σ π) : Nat :=
  if s.failed.isSome then 0 else (s.callers.map (Caller.toDo work)).sum

/-- A step of a thread that made a call. -/
def Working (_ : Sections κ ε ρ σ π) : SectionLabel κ → Prop
  | .call .. => False
  | .thread _ => True

/-- Without a failure the steps to do are those of the threads. -/
theorem Sections.toDo_of_fine (fine : s.failed = none) :
    s.toDo work = (s.callers.map (Caller.toDo work)).sum := by
  unfold Sections.toDo
  rw [fine]
  rfl

/-- Every step of a call costs. -/
theorem Sections.toDo_descends (work : Section κ ε ρ σ π) :
    Descends (Sections.step work) Working (Sections.toDo work) := by
  intro s l s' working stepped
  cases l with
  | call t call => exact working.elim
  | thread t =>
    obtain ⟨fine, advanced⟩ := step_thread stepped
    rw [Sections.toDo_of_fine fine]
    have paid : ∀ {old}, s.callers[t]? = some old → ∀ caller : Caller κ ε σ π,
        caller.toDo work < old.toDo work →
          ((s.callers.set t caller).map (Caller.toDo work)).sum <
            (s.callers.map (Caller.toDo work)).sum := by
      intro old found caller less
      have moved := Crew.sum_set found caller (Caller.toDo work)
      omega
    cases advanced with
    | lock found _ =>
      exact lt_of_eq_of_lt (Sections.toDo_of_fine fine) (paid found _ (Nat.lt_succ_self _))
    | stage found _ =>
      exact lt_of_eq_of_lt (Sections.toDo_of_fine fine) (paid found _ (Nat.lt_succ_self _))
    | fail found _ =>
      show 0 < _
      exact Nat.lt_of_le_of_lt (Nat.zero_le _) (paid found .outside (Nat.succ_pos _))
    | unlock found =>
      exact lt_of_eq_of_lt (Sections.toDo_of_fine fine) (paid found _ Nat.zero_lt_one)

/-! ## Runs -/

/-- So far the calls did what calls in a row do: `entered` is the row, a thread that waits has one
more call to make, and what a call that fails fails with is what the row fails with. -/
structure AsInARow (call : κ → σ → Except ε (ρ × σ)) (first : σ) (s : Sections κ ε ρ σ π) :
    Prop where
  /-- Where the lock is free the calls that took it have returned and left what is shared. -/
  free : s.failed = none → s.locked = false →
    s.returned.map Prod.fst = s.entered.map Prod.fst ∧
      calls call (s.entered.map Prod.snd) first = .ok (s.returned.map Prod.snd, s.shared)
  /-- A failure is that of the last call that took the lock. -/
  failed : ∀ e, s.failed = some e → calls call (s.entered.map Prod.snd) first = .error e
  /-- Each thread's calls are in the order in which it made them. -/
  turns : ∀ t, callsOf t s.made = callsOf t s.entered ++ s.pendingOf t

/-- Every call has returned. -/
def AllReturned (s : Sections κ ε ρ σ π) : Prop :=
  s.locked = false ∧ s.returned.map Prod.fst = s.entered.map Prod.fst ∧
    ∀ t, callsOf t s.made = callsOf t s.entered

variable {single : κ → σ → Except ε (ρ × σ)} {n : Nat}

/-- What was done so far, when a call that nothing comes between is this function. -/
theorem Serialized.asInARow (same : ∀ call s, work.whole call s = single call s)
    (serial : Serialized work first s) (turns : InTurn s) : AsInARow single first s := by
  have alike : work.whole = single := funext fun call => funext fun s => same call s
  rw [← alike]
  refine ⟨fun fine unlocked => ?_, fun e wrong => ?_, turns⟩
  · cases serial with
    | free _ _ _ threads done => exact ⟨threads, done⟩
    | held _ locked _ _ _ _ _ _ _ =>
      rw [unlocked] at locked
      cases locked
    | failed wrong _ =>
      rw [fine] at wrong
      cases wrong
  · cases serial with
    | free fine _ _ _ _ =>
      rw [fine] at wrong
      cases wrong
    | held fine _ _ _ _ _ _ _ _ =>
      rw [fine] at wrong
      cases wrong
    | failed wrong' done =>
      rw [wrong] at wrong'
      obtain rfl := Option.some.inj wrong'
      exact done

/-- Where no step of a call is left, a step failed or every call returned. -/
theorem Serialized.returned (serial : Serialized work first s) (turns : InTurn s)
    (resting : Resting (Sections.step work) Working s) : s.failed ≠ none ∨ AllReturned s := by
  have stuck : s.failed = none → ∀ t, s.advance work t = none := by
    intro fine t
    have still := resting (.thread t) trivial
    unfold Sections.step at still
    rw [fine] at still
    exact still
  cases serial with
  | failed wrong _ =>
    left
    rw [wrong]
    exact Option.some_ne_none _
  | @held t call own taken rest _ _ fine _ here _ _ _ _ _ _ =>
    have still := stuck fine t
    unfold Sections.advance at still
    rw [here] at still
    cases rest with
    | nil => cases still
    | cons stage rest =>
      dsimp only at still
      split at still <;> cases still
  | free fine unlocked _ threads _ =>
    refine .inr ⟨unlocked, threads, fun t => ?_⟩
    have none' : s.pendingOf t = [] := by
      unfold Sections.pendingOf
      split
      · rename_i caller found
        cases caller with
        | outside => rfl
        | inside call own rest => rfl
        | locking call =>
          have still := stuck fine t
          unfold Sections.advance at still
          rw [found, unlocked] at still
          cases still
      · rfl
    rw [turns t, none', List.append_nil]

/-- What holds along every run of calls by any number of threads. -/
theorem serialized_of_reach
    (reached : Reach (Sections.step work) (fun _ _ => True) (fun s => s = .create first n) s) :
    Serialized work first s ∧ InTurn s := by
  apply reached.invariant
  · rintro _ rfl
    refine ⟨.free rfl rfl ?_ rfl rfl, fun t => ?_⟩
    · intro caller member
      rw [List.eq_of_mem_replicate member]
      rfl
    · unfold Sections.pendingOf
      split
      · rename_i caller found
        rw [List.eq_of_mem_replicate (List.mem_of_getElem? found)]
        rfl
      · rfl
  · exact fun s l s' kept _ stepped => ⟨kept.1.step stepped, kept.2.step stepped⟩

/-- Calls under one lock do what calls in a row do, in every state. The threads take no more steps
than `toDo` says before each of them has returned or a call has failed. -/
theorem calls_serialize (same : ∀ call s, work.whole call s = single call s)
    (reached : Reach (Sections.step work) (fun _ _ => True) (fun s => s = .create first n) s) :
    AsInARow single first s ∧
      (∀ labels t, Path (Sections.step work) Working s labels t → labels.length ≤ s.toDo work) ∧
      ∀ labels t, Path (Sections.step work) Working s labels t →
        Resting (Sections.step work) Working t → t.failed ≠ none ∨ AllReturned t := by
  obtain ⟨serial, turns⟩ := serialized_of_reach reached
  refine ⟨serial.asInARow same turns, fun labels t path => ?_, fun labels t path resting => ?_⟩
  · have paid := path.length_add_le (Sections.toDo_descends work)
    omega
  · obtain ⟨serial, turns⟩ := serialized_of_reach (path.reach (fun _ _ _ => trivial) reached)
    exact serial.returned turns resting

end EpollNet.Basis
