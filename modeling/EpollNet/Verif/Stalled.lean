import EpollNet.Verif.Reading

/-!
# What a receiving loop leaves behind

A descriptor stalls when it is registered for input, has some, and no report of it is due. Only
the loop of `readData` brings that about, by leaving on a count: what was queued beyond the bytes it
took, or a FIN behind them, is then covered by no report. Whether it does so can be told from the
descriptor's queue before the loop and from the answers the loop meets.
-/

namespace EpollNet

open EpollNet.Basis

/-! ## Stalled descriptors -/

namespace Kernel

/-- The descriptor is registered for input and has some, and no report is due. -/
def stalled (k : Kernel) (fd : Fd) : Bool := k.armed fd && k.hasInput fd && !k.due fd

variable {k : Kernel} {fd x : Fd}

/-- A stalled descriptor's parts. -/
theorem stalled_iff :
    k.stalled fd = true ↔ k.armed fd = true ∧ k.hasInput fd = true ∧ k.due fd = false := by
  simp only [stalled, Bool.and_eq_true, Bool.not_eq_true', and_assoc]

/-- Equal tables at a number make it stalled alike. -/
theorem stalled_congr {k' : Kernel} (stalls : k'.stalled fd = true) (sock : k'.sock fd = k.sock fd)
    (reg : k'.reg fd = k.reg fd) (due : k'.due fd = k.due fd) : k.stalled fd = true := by
  simpa only [stalled, armed, hasInput, sock, reg, due] using stalls

/-- A closed descriptor is not stalled, and the others are as before. -/
theorem stalled_close (stalls : (k.close x).stalled fd = true) : k.stalled fd = true := by
  by_cases same : fd = x
  · subst same
    simp [stalled, armed, close] at stalls
  · exact stalled_congr stalls (by simp [close, same]) (by simp [close, same])
      (by simp [close, same])

/-- Storing an interest makes a report due for input that is there. -/
theorem stalled_register {ev : EpollEvent} (stalls : (k.register x ev).stalled fd = true) :
    fd ≠ x ∧ k.stalled fd = true := by
  by_cases same : fd = x
  · subst same
    obtain ⟨isArmed, input, quiet⟩ := stalled_iff.mp stalls
    have due : (k.register fd ev).due fd = (hasAny ev.events epollIn && k.hasInput fd) := by
      simp [register]
    have wanted : hasAny ev.events epollIn = true := by simpa [armed, register] using isArmed
    rw [due, wanted, Bool.true_and] at quiet
    have still : k.hasInput fd = true := input
    rw [still] at quiet
    contradiction
  · refine ⟨same, ?_⟩
    exact stalled_congr stalls rfl (by simp [register, same]) (by simp [register, same])

/-- A registration change stalls nothing, and leaves its own descriptor not stalled if it is open
and registered. -/
theorem stalled_ctlMod {ev : EpollEvent} (stalls : (k.ctlMod x ev).2.stalled fd = true) :
    k.stalled fd = true ∧
      (fd = x → (k.sock x).isSome = true → (k.reg x).isSome = true → False) := by
  unfold ctlMod at stalls
  by_cases changes : ((k.sock x).isSome && (k.reg x).isSome) = true
  · rw [if_pos changes] at stalls
    obtain ⟨other, before⟩ := stalled_register stalls
    exact ⟨before, fun same => absurd same other⟩
  · rw [if_neg changes] at stalls
    exact ⟨stalls, fun _ isOpen registered => changes (by rw [isOpen, registered]; rfl)⟩

/-- Deleting an interest stalls nothing. -/
theorem stalled_ctlDel (stalls : (k.ctlDel x).2.stalled fd = true) : k.stalled fd = true := by
  unfold ctlDel at stalls
  split at stalls
  · by_cases same : fd = x
    · subst same
      simp [stalled, armed] at stalls
    · exact stalled_congr stalls rfl (by simp [same]) (by simp [same])
  · exact stalls

/-- What arrives for a registered descriptor makes a report due. -/
theorem stalled_arrive {a : Arrival} (stalls : (k.arrive a).stalled fd = true) :
    k.stalled fd = true := by
  unfold arrive at stalls
  split at stalls
  · exact stalls
  · rename_i s isOpen
    split at stalls
    · exact stalls
    · by_cases same : fd = a.fd
      · subst same
        obtain ⟨isArmed, input, quiet⟩ := stalled_iff.mp stalls
        simp only [Function.update_self, Bool.or_eq_false_iff, Bool.and_eq_false_iff] at quiet
        have before : k.armed a.fd = true := isArmed
        obtain ⟨quiet, nothing⟩ := quiet
        have empty : (!a.bytes.isEmpty || a.fin) = false := by
          rcases nothing with unarmed | empty
          · rw [before] at unarmed
            contradiction
          · rw [empty.1, empty.2]
            rfl
        obtain ⟨bytes, fin⟩ := Bool.or_eq_false_iff.mp empty
        have nil : a.bytes = [] := by simpa using bytes
        refine stalled_iff.mpr ⟨before, ?_, quiet⟩
        simp only [hasInput, Function.update_self, nil, List.append_nil, fin] at input
        simp only [hasInput, isOpen]
        simp only [Bool.or_false] at input
        rw [input, Bool.true_or]
      · exact stalled_congr stalls (by simp [same]) rfl (by simp [same])

/-- Reading one descriptor leaves the others. -/
theorem stalled_read {len : Nat} {answer : Except Errno Nat} (other : fd ≠ x)
    (stalls : (k.read x len answer).2.stalled fd = true) : k.stalled fd = true := by
  unfold read at stalls
  split at stalls
  · exact stalled_congr stalls (by simp [other]) rfl rfl
  · exact stalls
  · exact stalls

/-- A newly accepted descriptor is not registered, and the others are as before. -/
theorem stalled_accepted {inc : Incoming} (unregistered : k.reg inc.fd = none)
    (stalls : (Server.acceptedKernel k inc).stalled fd = true) : k.stalled fd = true := by
  by_cases same : fd = inc.fd
  · subst same
    simp [stalled, armed, Server.acceptedKernel, unregistered] at stalls
  · exact stalled_congr stalls (by simp [Server.acceptedKernel, same]) rfl rfl

/-- Reporting a batch stalls only what it reports. -/
theorem stalled_reported {batch : List (Fd × BitVec 32)}
    (stalls : (k.reported batch).stalled fd = true) :
    k.stalled fd = true ∨ ∃ mask, (fd, mask) ∈ batch := by
  obtain ⟨isArmed, input, quiet⟩ := stalled_iff.mp stalls
  by_cases reported : ∃ mask, (fd, mask) ∈ batch
  · exact .inr reported
  · refine .inl (stalled_iff.mpr ⟨isArmed, input, ?_⟩)
    have absent : batch.any (fun entry => entry.1 == fd) = false := by
      rw [List.any_eq_false]
      intro entry member same
      exact reported ⟨entry.2, by simpa [← eq_of_beq same] using member⟩
    simpa [Kernel.reported, absent] using quiet

end Kernel

/-! ## The receiving loop -/

/-- The kernel answers that a read would block only when there is nothing to read. -/
def honest (fd : Fd) (len : Nat) : List ReadAnswer → Nat → Kernel → Bool
  | [], _, _ => true
  | answer :: rest, nLen, k =>
    match (k.arriveAll answer.arrivals).read fd len answer.result with
    | (.ok got, k) => got.length == 0 || nLen + got.length != len ||
        honest fd len rest (nLen + got.length) k
    | (.error .eintr, k) => honest fd len rest nLen k
    | (.error .eagain, k) => !k.hasInput fd
    | (.error .other, k) => honest fd len rest nLen k

/-- A loop that would block leaves no input. -/
theorem readLoop_honest {fd : Fd} {len : Nat} (script : List ReadAnswer) (nLen : Nat)
    (ptr : Memory) (k : Kernel) (answers : honest fd len script nLen k = true)
    (blocked : (readLoop fd len script nLen ptr k).ret = some (-2)) :
    (readLoop fd len script nLen ptr k).kernel.hasInput fd = false := by
  induction script generalizing nLen ptr k with
  | nil => contradiction
  | cons answer rest ih =>
    unfold readLoop at blocked ⊢
    unfold honest at answers
    split at blocked
    · rename_i got k' returned
      rw [returned] at answers
      split at blocked
      · rename_i positive
        split at blocked
        · rename_i full
          rw [if_pos positive, if_pos full]
          apply ih _ _ _ _ blocked
          simpa [full, List.ne_nil_of_length_pos positive] using answers
        · have count : ((nLen + got.length : Nat) : Int) = -2 := Option.some.inj blocked
          omega
      · exact absurd (Option.some.inj blocked) (by decide)
    · rename_i k' returned
      rw [returned] at answers
      exact ih _ _ _ answers blocked
    · rename_i k' returned
      rw [returned] at answers
      simpa using answers
    · rename_i k' returned
      rw [returned] at answers
      exact ih _ _ _ answers blocked

/-- A loop that returned gave a count, the end of the stream or a would-block. -/
theorem readLoop_ret {fd : Fd} {len : Nat} (script : List ReadAnswer) (nLen : Nat) (ptr : Memory)
    (k : Kernel) {recvlen : Int}
    (returned : (readLoop fd len script nLen ptr k).ret = some recvlen) :
    recvlen = -2 ∨ 0 ≤ recvlen := by
  induction script generalizing nLen ptr k with
  | nil => contradiction
  | cons answer rest ih =>
    unfold readLoop at returned
    split at returned
    · split at returned
      · split at returned
        · exact ih _ _ _ returned
        · obtain rfl := Option.some.inj returned
          exact .inr (Int.natCast_nonneg _)
      · obtain rfl := Option.some.inj returned
        exact .inr (le_refl _)
    · exact ih _ _ _ returned
    · obtain rfl := Option.some.inj returned
      exact .inl rfl
    · exact ih _ _ _ returned

/-- The loop stalls no other descriptor. -/
theorem stalled_readData {c : ConnObj} {ptr : Memory} {len : Nat} {script : List ReadAnswer}
    {k : Kernel} {fd : Fd} (other : fd ≠ c.fd)
    (stalls : (readData c ptr len script k).kernel.stalled fd = true) : k.stalled fd = true := by
  have all : (readData c ptr len script k).kernel.stalled fd = true → k.stalled fd = true :=
    readLoop_kernel (P := fun k' => k'.stalled fd = true → k.stalled fd = true)
      (fun k' a before stalls => before (Kernel.stalled_arrive stalls))
      (fun k' answer before stalls => before (Kernel.stalled_read other stalls))
      script 0 ptr k id
  exact all stalls

/-! ## What the answers tell -/

/-- Bytes or a FIN come for the descriptor. -/
def reaches (fd : Fd) (answer : ReadAnswer) : Bool :=
  answer.arrivals.any fun a => a.fd == fd && (!a.bytes.isEmpty || a.fin)

/-- The bytes taken by a loop that these results end on a count: one that does not fill the buffer,
or a full buffer and the count after it. -/
def taken (len : Nat) : List (Except Errno Nat) → Option Nat
  | .ok n :: .ok m :: _ =>
    if n = 0 then none else if n ≠ len then some n else if m = 0 then none else some (n + m)
  | .ok n :: _ => if n = 0 ∨ n = len then none else some n
  | _ => none

/-- The number of calls of `read` whose results end the loop. -/
def callsMade (len : Nat) (results : List (Except Errno Nat)) : Nat :=
  results.inits.findIdx fun first => settles len (deciding first)

/-- A loop over these answers leaves nothing unread that no report covers: it does not end on a
count, or bytes or a FIN come while it runs, or the bytes it takes are all there is. -/
def drains (k : Kernel) (fd : Fd) (len : Nat) (script : List ReadAnswer) : Bool :=
  !k.armed fd || k.due fd ||
    match k.sock fd, taken len (deciding (readResults fd len script k)) with
    | some s, some count =>
      !s.fin && (s.rx.length ≤ count ||
        (script.take (callsMade len (readResults fd len script k))).any (reaches fd))
    | _, _ => true

/-- A descriptor that is stalled after an arrival had shut down before, or was not reached by it. -/
theorem Kernel.stalled_unreached {k : Kernel} {fd : Fd} {a : Kernel.Arrival}
    (stalls : (k.arrive a).stalled fd = true) : ∃ s, k.sock fd = some s ∧
      (s.fin = true ∨ (k.arrive a).sock fd = some s ∧
        (a.fd == fd && (!a.bytes.isEmpty || a.fin)) = false) := by
  have before := Kernel.stalled_arrive stalls
  obtain ⟨s, isOpen⟩ : ∃ s, k.sock fd = some s := by
    apply Option.isSome_iff_exists.mp
    obtain ⟨_, input, _⟩ := Kernel.stalled_iff.mp before
    cases isOpen : k.sock fd with
    | none =>
      rw [Kernel.hasInput, isOpen] at input
      contradiction
    | some s => rfl
  refine ⟨s, isOpen, ?_⟩
  by_cases here : a.fd = fd
  · cases ended : s.fin with
    | true => exact .inl rfl
    | false =>
      have arrived : k.arrive a = { k with
          sock := Function.update k.sock a.fd (some { s with rx := s.rx ++ a.bytes, fin := a.fin })
          due := Function.update k.due a.fd
            (k.due a.fd || (k.armed a.fd && (!a.bytes.isEmpty || a.fin))) } := by
        simp [Kernel.arrive, here, isOpen, ended]
      -- an arrival that reaches the descriptor makes a report due
      have quiet := (Kernel.stalled_iff.mp stalls).2.2
      rw [arrived] at quiet ⊢
      simp only [here, Function.update_self, (Kernel.stalled_iff.mp before).1, Bool.true_and,
        Bool.or_eq_false_iff, Bool.not_eq_false', List.isEmpty_iff] at quiet ⊢
      obtain ⟨_, nothing, open'⟩ := quiet
      refine .inr ⟨?_, by simp [nothing, open']⟩
      rw [nothing, open', List.append_nil, ← ended]
  · refine .inr ⟨?_, by simp [here]⟩
    rw [← isOpen]
    unfold Kernel.arrive
    split
    · rfl
    · split
      · rfl
      · simp [Ne.symm here]

/-- The same of several arrivals. -/
theorem Kernel.stalled_arriveAll {fd : Fd} (arrivals : List Kernel.Arrival) (k : Kernel)
    (stalls : (k.arriveAll arrivals).stalled fd = true) : k.stalled fd = true ∧
      ∃ s, k.sock fd = some s ∧ (s.fin = true ∨ (k.arriveAll arrivals).sock fd = some s ∧
        arrivals.any (fun a => a.fd == fd && (!a.bytes.isEmpty || a.fin)) = false) := by
  induction arrivals generalizing k with
  | nil =>
    refine ⟨stalls, ?_⟩
    obtain ⟨_, input, _⟩ := Kernel.stalled_iff.mp stalls
    cases isOpen : k.sock fd with
    | none =>
      rw [Kernel.hasInput] at input
      simp only [Kernel.arriveAll, List.foldl_nil, isOpen] at input
      contradiction
    | some s => exact ⟨s, rfl, .inr ⟨isOpen, rfl⟩⟩
  | cons a rest ih =>
    obtain ⟨later, s', isOpen', still'⟩ := ih (k.arrive a) stalls
    obtain ⟨s, isOpen, still⟩ := Kernel.stalled_unreached later
    refine ⟨Kernel.stalled_arrive later, s, isOpen, ?_⟩
    rcases still with ended | ⟨same, unreached⟩
    · exact .inl ended
    · obtain rfl : s = s' := Option.some.inj (same.symm.trans isOpen')
      rcases still' with ended | ⟨kept, others⟩
      · exact .inl ended
      · have none : (a :: rest).any (fun a => a.fd == fd && (!a.bytes.isEmpty || a.fin)) =
            false := by
          rw [List.any_cons, unreached, others]
          rfl
        exact .inr ⟨kept, none⟩

/-- A call of `read` that fails is logged. -/
theorem Kernel.read_failed {k k' : Kernel} {fd : Fd} {len : Nat} {answer : Except Errno Nat}
    {e : Errno} (failed : k.read fd len answer = (.error e, k')) : k' = k.log (.read fd []) := by
  unfold Kernel.read at failed
  split at failed
  · exact absurd (congrArg Prod.fst failed) (by simp)
  · exact (congrArg Prod.snd failed).symm
  · exact (congrArg Prod.snd failed).symm

/-- A descriptor that is stalled after a call of `read` was stalled before, with the bytes that the
call returned in front of its queue. -/
theorem Kernel.stalled_returned {k k' : Kernel} {fd : Fd} {len : Nat} {answer : Except Errno Nat}
    {got : List UInt8} (returned : k.read fd len answer = (.ok got, k'))
    (stalls : k'.stalled fd = true) : k.stalled fd = true ∧ ∃ s s', k.sock fd = some s ∧
      k'.sock fd = some s' ∧ s.fin = s'.fin ∧ s.rx.length = got.length + s'.rx.length := by
  unfold Kernel.read at returned
  split at returned
  · rename_i s n isOpen
    obtain ⟨bytes, rfl⟩ := Prod.mk.inj returned
    obtain rfl : s.rx.take (min n len) = got := Except.ok.inj bytes
    obtain ⟨isArmed, input, quiet⟩ := Kernel.stalled_iff.mp stalls
    have longer : s.rx.length =
        (s.rx.take (min n len)).length + (s.rx.drop (min n len)).length := by
      rw [← List.length_append, List.take_append_drop]
    have still : k.hasInput fd = true := by
      rw [Kernel.hasInput, isOpen]
      simp only [Kernel.hasInput, Function.update_self] at input
      rcases Bool.or_eq_true_iff.mp input with more | ended
      · have nonempty : s.rx ≠ [] := by
          intro none
          simp [none] at more
        simp [nonempty]
      · simp only [ended, Bool.or_true]
    have after : Function.update k.sock fd (some { s with rx := s.rx.drop (min n len) }) fd =
        some { s with rx := s.rx.drop (min n len) } := Function.update_self ..
    exact ⟨Kernel.stalled_iff.mpr ⟨isArmed, still, quiet⟩, s, _, isOpen, after, rfl, longer⟩
  · exact absurd (congrArg Prod.fst returned) (by simp)
  · exact absurd (congrArg Prod.fst returned) (by simp)

/-- How many results end the loop after `nLen` bytes. -/
def endsAfter (len nLen : Nat) (results : List (Except Errno Nat)) : Nat :=
  results.inits.findIdx fun first => (verdict len nLen (deciding first)).isSome

/-- A result that does not end the loop counts once. -/
theorem endsAfter_cons {len nLen nLen' : Nat} {result : Except Errno Nat}
    (goes : ∀ first, verdict len nLen (deciding (result :: first)) =
      verdict len nLen' (deciding first)) (rest : List (Except Errno Nat)) :
    endsAfter len nLen (result :: rest) = endsAfter len nLen' rest + 1 := by
  rw [endsAfter, List.inits_cons, List.findIdx_cons, List.findIdx_map]
  simp only [endsAfter, Function.comp_def, goes]
  rfl

/-- A result that ends the loop counts, and no other does. -/
theorem endsAfter_last {len nLen : Nat} {result : Except Errno Nat}
    (ends : ∀ first, (verdict len nLen (deciding (result :: first))).isSome = true)
    (rest : List (Except Errno Nat)) : endsAfter len nLen (result :: rest) = 1 := by
  rw [endsAfter, List.inits_cons, List.findIdx_cons, List.findIdx_map]
  simp only [Function.comp_def, ends]
  cases rest <;> rfl

/-- The descriptor is stalled, and once `count` bytes were taken, of which `nLen` are taken already,
its queue holds more or the end of the stream; none of the answers brings anything for it. -/
def LeftBehind (fd : Fd) (count nLen : Nat) (answers : List ReadAnswer) (k : Kernel) : Prop :=
  k.stalled fd = true ∧ ∃ s, k.sock fd = some s ∧
    (s.fin = true ∨ count < nLen + s.rx.length ∧ answers.any (reaches fd) = false)

section LeftBehind

variable {fd : Fd} {len count nLen : Nat} {answer : ReadAnswer} {rest : List ReadAnswer}
  {k k' : Kernel}

/-- What is behind after the arrivals ahead of a call was there before them. -/
theorem LeftBehind.arrived (behind : LeftBehind fd count nLen rest (k.arriveAll answer.arrivals)) :
    LeftBehind fd count nLen (answer :: rest) k := by
  obtain ⟨later, s', isOpen', left⟩ := behind
  obtain ⟨before, s, isOpen, still⟩ := Kernel.stalled_arriveAll answer.arrivals k later
  refine ⟨before, s, isOpen, ?_⟩
  rcases still with ended | ⟨same, unreached⟩
  · exact .inl ended
  · obtain rfl : s = s' := Option.some.inj (same.symm.trans isOpen')
    refine left.imp_right fun ⟨more, others⟩ => ⟨more, ?_⟩
    rw [List.any_cons, others, Bool.or_false]
    exact unreached

/-- What is behind after a call was behind its bytes before it. -/
theorem LeftBehind.returned {got : List UInt8}
    (result : k.read fd len answer.result = (.ok got, k'))
    (behind : LeftBehind fd count (nLen + got.length) rest k') :
    LeftBehind fd count nLen rest k := by
  obtain ⟨later, s', isOpen', left⟩ := behind
  obtain ⟨before, s, t, isOpen, same, fin, queue⟩ := Kernel.stalled_returned result later
  obtain rfl : t = s' := Option.some.inj (same.symm.trans isOpen')
  refine ⟨before, s, isOpen, ?_⟩
  rw [fin, queue]
  refine left.imp_right fun ⟨more, others⟩ => ⟨?_, others⟩
  omega

/-- A stalled descriptor has something behind the bytes taken. -/
theorem leftBehind_of_stalled (stalls : k.stalled fd = true) : LeftBehind fd count count [] k := by
  have input := (Kernel.stalled_iff.mp stalls).2.1
  cases isOpen : k.sock fd with
  | none =>
    rw [Kernel.hasInput, isOpen] at input
    contradiction
  | some s =>
    refine ⟨stalls, s, isOpen, ?_⟩
    rw [Kernel.hasInput, isOpen] at input
    rcases Bool.or_eq_true_iff.mp input with more | ended
    · have nonempty : 0 < s.rx.length := by
        apply List.length_pos_iff.mpr
        simpa using more
      exact .inr ⟨by omega, rfl⟩
    · exact .inl ended

end LeftBehind

/-- A loop that ends on a count and leaves the descriptor stalled had something behind the bytes it
took, and none of the answers it met brought anything. By induction on the answers: the calls the
loop passes over and a full buffer leave it to the rest, a short count ends it. -/
theorem readLoop_stalled {fd : Fd} {len count : Nat} (script : List ReadAnswer) (nLen : Nat)
    (ptr : Memory) (k : Kernel)
    (returned : (readLoop fd len script nLen ptr k).ret = some (count : Int))
    (positive : 0 < count)
    (stalls : (readLoop fd len script nLen ptr k).kernel.stalled fd = true) :
    LeftBehind fd count nLen (script.take (endsAfter len nLen (readResults fd len script k)))
      k := by
  induction script generalizing nLen ptr k with
  | nil => contradiction
  | cons answer rest ih =>
    unfold readLoop at returned stalls
    unfold readResults
    cases result : (k.arriveAll answer.arrivals).read fd len answer.result with
    | mk called k' =>
    rw [result] at returned stalls
    cases called with
    | ok got =>
      have kept : ∀ first, deciding (.ok got.length :: first) = .ok got.length :: deciding first :=
        fun _ => rfl
      simp only [Except.map] at returned stalls ⊢
      by_cases bytes : got.length > 0
      · rw [if_pos bytes] at returned stalls
        by_cases full : nLen + got.length = len
        · rw [if_pos full] at returned stalls
          have goes : ∀ first, verdict len nLen (deciding (.ok got.length :: first)) =
              verdict len (nLen + got.length) (deciding first) := fun first => by
            rw [kept, verdict, if_pos bytes, if_pos full]
          rw [endsAfter_cons goes, List.take_succ_cons]
          exact .arrived (.returned result (ih _ _ _ returned stalls))
        · rw [if_neg full] at returned stalls
          have ends : ∀ first,
              (verdict len nLen (deciding (.ok got.length :: first))).isSome = true :=
            fun first => by
              rw [kept, verdict, if_pos bytes, if_neg full]
              rfl
          have total : nLen + got.length = count := Int.ofNat_inj.mp (Option.some.inj returned)
          rw [endsAfter_last ends, List.take_succ_cons, List.take_zero]
          exact .arrived (.returned result (total ▸ leftBehind_of_stalled stalls))
      · rw [if_neg bytes] at returned
        have zero : (0 : Int) = count := Option.some.inj returned
        omega
    | error e =>
      obtain rfl := Kernel.read_failed result
      have passed : e ≠ .eagain →
          ∀ first, verdict len nLen (deciding (.error e :: first)) =
            verdict len nLen (deciding first) := by
        intro other first
        cases e <;> trivial
      cases e with
      | eagain =>
        have blocked : (-2 : Int) = count := Option.some.inj returned
        omega
      | eintr =>
        simp only [Except.map, endsAfter_cons (passed (by decide)), List.take_succ_cons]
        exact .arrived (ih _ _ _ returned stalls)
      | other =>
        simp only [Except.map, endsAfter_cons (passed (by decide)), List.take_succ_cons]
        exact .arrived (ih _ _ _ returned stalls)

/-- Results by which `readData` returns a count are counts of that many bytes. -/
theorem taken_of_verdict {len count : Nat} {results : List (Except Errno Nat)}
    (returned : verdict len 0 results = some (count : Int)) (positive : 0 < count) :
    taken len results = some count := by
  have natural : ∀ n : Nat, some (n : Int) = some (count : Int) → some n = some count :=
    fun n same => congrArg some (Int.ofNat_inj.mp (Option.some.inj same))
  cases results with
  | nil => contradiction
  | cons result rest =>
    cases result with
    | error e => exact absurd (Option.some.inj returned) (by omega)
    | ok n =>
      rw [verdict, Nat.zero_add] at returned
      by_cases none : n = 0
      · rw [if_neg (by omega)] at returned
        exact absurd (Option.some.inj returned) (by omega)
      · rw [if_pos (Nat.pos_of_ne_zero none)] at returned
        by_cases full : n = len
        · -- a full buffer: the next result decides
          subst full
          rw [if_pos rfl] at returned
          cases rest with
          | nil => contradiction
          | cons second later =>
            cases second with
            | error e => exact absurd (Option.some.inj returned) (by omega)
            | ok m =>
              rw [verdict] at returned
              by_cases last : m = 0
              · rw [if_neg (by omega)] at returned
                exact absurd (Option.some.inj returned) (by omega)
              · rw [if_pos (Nat.pos_of_ne_zero last), if_neg (by omega)] at returned
                simpa [taken, none, last] using natural _ returned
        · rw [if_neg full] at returned
          cases rest with
          | nil => simpa [taken, none, full] using natural _ returned
          | cons second later =>
            cases second with
            | error e => simpa [taken, none, full] using natural _ returned
            | ok m => simpa [taken, none, full] using natural _ returned

/-- A loop whose answers drain the descriptor does not leave it stalled. -/
theorem not_stalled_of_drains {c : ConnObj} {ptr : Memory} {len : Nat} {script : List ReadAnswer}
    {k : Kernel} {recvlen : Int} (all : drains k c.fd len script = true)
    (returned : (readData c ptr len script k).ret = some recvlen) (positive : 0 < recvlen) :
    (readData c ptr len script k).kernel.stalled c.fd ≠ true := by
  intro stalls
  obtain ⟨count, rfl⟩ := Int.eq_ofNat_of_zero_le (le_of_lt positive)
  have more : 0 < count := Int.natCast_pos.mp positive
  obtain ⟨before, s, isOpen, left⟩ := readLoop_stalled script 0 ptr k returned more stalls
  obtain ⟨isArmed, _, quiet⟩ := Kernel.stalled_iff.mp before
  have met : endsAfter len 0 (readResults c.fd len script k) =
      callsMade len (readResults c.fd len script k) := by
    simp only [endsAfter, callsMade, verdict_isSome]
  have counted : taken len (deciding (readResults c.fd len script k)) = some count :=
    taken_of_verdict ((readLoop_verdict script).symm.trans returned) more
  rw [met] at left
  simp only [drains, isArmed, quiet, isOpen, counted, Bool.not_true, Bool.false_or,
    Bool.and_eq_true, Bool.not_eq_true', Bool.or_eq_true, decide_eq_true_eq] at all
  obtain ⟨open', few | reached⟩ := all
  · rcases left with ended | ⟨most, _⟩
    · rw [open'] at ended
      contradiction
    · omega
  · rcases left with ended | ⟨_, unreached⟩
    · rw [open'] at ended
      contradiction
    · rw [unreached] at reached
      contradiction

end EpollNet
