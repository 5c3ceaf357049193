import Mathlib.Data.Finset.Card
import Mathlib.Data.List.Nodup

/-!
# Pooled objects lent to handles

Objects are numbered in the order they are created. An object that is lent out carries a
handle, the handle names the object back, and the handle is open. A returned object waits in a
queue from which the next loan takes it; a new object is created only when the queue is empty.
An object may keep a stale handle, one that was closed under it, in two ways: its handle is
severed while it is lent, or its loan bounces and it goes back to the queue.

`Sound` is the safety of the arrangement and `Sound.pool_lt` bounds the queue: objects are
created one per simultaneous loan, so the queue never outgrows the supply of handles.
-/

namespace EpollNet.Basis

variable {H : Type}

/-- Objects, the handles they carry and the queue of idle objects. -/
structure Roster (H : Type) where
  /-- The handle is open. -/
  opened : H → Prop
  /-- The object a handle is registered for. -/
  owner : H → Option Nat
  /-- The handle an object carries, possibly a stale one. -/
  handle : Nat → H
  /-- Idle objects, the next to be lent first. -/
  pool : List Nat
  /-- Objects `0` to `size - 1` exist. -/
  size : Nat

namespace Roster

/-- The object's own handle is registered for it. -/
def Live (r : Roster H) (o : Nat) : Prop := r.owner (r.handle o) = some o

/-- The object is live, or its handle is closed. -/
def Settled (r : Roster H) (o : Nat) : Prop := r.Live o ∨ ¬r.opened (r.handle o)

/-- No idle object twice, and every registration is that of an open handle for the object that
carries it and is not idle. -/
structure Sound (r : Roster H) : Prop where
  /-- Idle objects are distinct. -/
  nodup : r.pool.Nodup
  /-- Idle objects exist. -/
  pooled : ∀ o ∈ r.pool, o < r.size
  /-- Registered handles are open. -/
  isOpen : ∀ h o, r.owner h = some o → r.opened h
  /-- The registered object carries the handle. -/
  carries : ∀ h o, r.owner h = some o → r.handle o = h
  /-- The registered object exists. -/
  exists' : ∀ h o, r.owner h = some o → o < r.size
  /-- The registered object is not idle. -/
  busy : ∀ h o, r.owner h = some o → o ∉ r.pool

/-- The next object to lend is `o`, leaving the queue `rest` and `size` objects. -/
inductive Next (r : Roster H) : Nat → List Nat → Nat → Prop
  /-- The queue's first object is lent. -/
  | pooled {o : Nat} {rest : List Nat} : r.pool = o :: rest → Next r o rest r.size
  /-- With an empty queue an object is created. -/
  | fresh : r.pool = [] → Next r r.size [] (r.size + 1)

/-- The next object is given a newly opened handle that is not registered yet. -/
def take (r : Roster H) (o : Nat) (rest : List Nat) (size : Nat) (h : H) : Roster H :=
  { r with
    opened := fun x => x = h ∨ r.opened x
    handle := Function.update r.handle o h
    pool := rest
    size := size }

/-- The next object's loan fails after it was given a handle, which is closed again. -/
def bounce (r : Roster H) (o : Nat) (rest : List Nat) (size : Nat) (h : H) : Roster H :=
  { r with handle := Function.update r.handle o h, pool := rest ++ [o], size := size }

section Operations

variable [DecidableEq H]

/-- Lend the next object under a newly opened handle. -/
def lend (r : Roster H) (o : Nat) (rest : List Nat) (size : Nat) (h : H) : Roster H where
  opened x := x = h ∨ r.opened x
  owner := Function.update r.owner h (some o)
  handle := Function.update r.handle o h
  pool := rest
  size := size

/-- Close an object's handle, park the object at another one and return it to the queue. -/
def retire (r : Roster H) (o : Nat) (parked : H) : Roster H :=
  { r with
    opened := fun x => x ≠ r.handle o ∧ r.opened x
    owner := Function.update r.owner (r.handle o) none
    handle := Function.update r.handle o parked
    pool := r.pool ++ [o] }

/-- Close an object's handle under it. -/
def sever (r : Roster H) (o : Nat) : Roster H :=
  { r with
    opened := fun x => x ≠ r.handle o ∧ r.opened x
    owner := Function.update r.owner (r.handle o) none }

end Operations

variable {r : Roster H} {o p : Nat} {rest : List Nat} {size : Nat} {h parked : H}

/-- A live object exists. -/
theorem Sound.live_lt (sound : r.Sound) (live : r.Live o) : o < r.size :=
  sound.exists' _ _ live

/-- A live object is not idle. -/
theorem Sound.live_busy (sound : r.Sound) (live : r.Live o) : o ∉ r.pool := sound.busy _ _ live

/-- A live object's handle is open. -/
theorem Sound.live_opened (sound : r.Sound) (live : r.Live o) : r.opened (r.handle o) :=
  sound.isOpen _ _ live

/-- A settled object with an open handle is live. -/
theorem Settled.live (settled : r.Settled o) (isOpen : r.opened (r.handle o)) : r.Live o :=
  settled.resolve_right (not_not_intro isOpen)

/-- The registered object is live. -/
theorem Sound.owner_live (sound : r.Sound) (owned : r.owner h = some o) : r.Live o := by
  unfold Live
  rw [sound.carries _ _ owned, owned]

/-- Two live objects with one handle are one. -/
theorem Live.unique (first : r.Live o) (second : r.Live p) (same : r.handle o = r.handle p) :
    o = p := by
  unfold Live at first second
  rw [same, second] at first
  exact (Option.some.inj first).symm

/-- A live object does not carry the handle another object is registered under. -/
theorem Live.handle_ne (first : r.Live o) (second : r.Live p) (distinct : o ≠ p) :
    r.handle o ≠ r.handle p := fun same => distinct (first.unique second same)

/-- The next object to lend is not live. -/
theorem Next.not_live (sound : r.Sound) (next : r.Next o rest size) : ¬r.Live o := by
  intro live
  cases next with
  | pooled queue => exact sound.live_busy live (queue ▸ List.mem_cons_self)
  | fresh _ => exact absurd (sound.live_lt live) (lt_irrefl _)

/-- The next object exists afterwards. -/
theorem Next.lt (sound : r.Sound) (next : r.Next o rest size) : o < size := by
  cases next with
  | pooled queue => exact sound.pooled _ (queue ▸ List.mem_cons_self)
  | fresh _ => exact Nat.lt_succ_self _

/-- Lending forgets no object. -/
theorem Next.size_le (next : r.Next o rest size) : r.size ≤ size := by
  cases next with
  | pooled _ => exact le_refl _
  | fresh _ => exact Nat.le_succ _

/-- An object other than the one lent existed before. -/
theorem Next.lt_of_ne (next : r.Next o rest size) (exists' : p < size) (distinct : p ≠ o) :
    p < r.size := by
  cases next with
  | pooled _ => exact exists'
  | fresh _ => exact lt_of_le_of_ne (Nat.lt_succ_iff.mp exists') distinct

/-- An object other than the one lent stays in the queue. -/
theorem Next.mem_of_ne (next : r.Next o rest size) (idle : p ∈ r.pool) (distinct : p ≠ o) :
    p ∈ rest := by
  cases next with
  | pooled queue =>
    rw [queue] at idle
    exact (List.mem_cons.mp idle).resolve_left distinct
  | fresh queue =>
    rw [queue] at idle
    contradiction

/-- The remaining queue is a part of the old one without the object lent. -/
theorem Next.remaining (sound : r.Sound) (next : r.Next o rest size) :
    rest.Nodup ∧ o ∉ rest ∧ ∀ p ∈ rest, p ∈ r.pool := by
  cases next with
  | pooled queue =>
    have nodup := sound.nodup
    rw [queue] at nodup
    obtain ⟨absent, tail⟩ := List.nodup_cons.mp nodup
    exact ⟨tail, absent, fun p member => queue ▸ List.mem_cons_of_mem _ member⟩
  | fresh _ => simp

/-! ## The size of the queue -/

open Classical in
/-- Objects lent under one of the given handles. -/
noncomputable def lent (r : Roster H) (supply : Finset H) : Finset Nat :=
  (Finset.range r.size).filter fun o => r.Live o ∧ r.handle o ∈ supply

/-- Idle and lent objects together are no more than the supply of handles. -/
def Bounded (r : Roster H) (supply : Finset H) : Prop :=
  r.pool.length + (r.lent supply).card ≤ supply.card

/-- Membership in `lent`. -/
theorem mem_lent {supply : Finset H} (sound : r.Sound) :
    o ∈ r.lent supply ↔ r.Live o ∧ r.handle o ∈ supply := by
  simp only [lent, Finset.mem_filter, Finset.mem_range, and_iff_right_iff_imp]
  exact fun lentOut => sound.live_lt lentOut.1

/-! ## Bouncing -/

/-- A bounced loan keeps the roster sound. -/
theorem Sound.bounce (sound : r.Sound) (next : r.Next o rest size) :
    (r.bounce o rest size h).Sound := by
  obtain ⟨nodup, absent, part⟩ := next.remaining sound
  have apart : ∀ x p, r.owner x = some p → p ≠ o := by
    rintro x _ owned rfl
    exact next.not_live sound (sound.owner_live owned)
  constructor
  · exact List.nodup_append.mpr ⟨nodup, List.nodup_singleton _, fun a left b right same => by
      rw [List.mem_singleton] at right
      exact absent (right ▸ same ▸ left)⟩
  · intro p member
    rcases List.mem_append.mp member with member | member
    · exact lt_of_lt_of_le (sound.pooled _ (part p member)) next.size_le
    · rw [List.mem_singleton.mp member]
      exact next.lt sound
  · exact sound.isOpen
  · intro x p owned
    simp only [Roster.bounce, Function.update_of_ne (apart x p owned)]
    exact sound.carries _ _ owned
  · exact fun x p owned => lt_of_lt_of_le (sound.exists' _ _ owned) next.size_le
  · intro x p owned member
    rcases List.mem_append.mp member with member | member
    · exact sound.busy _ _ owned (part p member)
    · exact apart x p owned (List.mem_singleton.mp member)

/-- A bounced loan leaves live objects live. -/
theorem Live.bounce (live : r.Live p) (sound : r.Sound) (next : r.Next o rest size) :
    (r.bounce o rest size h).Live p := by
  have distinct : p ≠ o := by
    rintro rfl
    exact next.not_live sound live
  simpa only [Live, Roster.bounce, Function.update_of_ne distinct] using live

/-- After a bounced loan the object's handle is closed. -/
theorem settled_bounce (closed : ¬r.opened h) : (r.bounce o rest size h).Settled o :=
  .inr (by simpa [Roster.bounce] using closed)

variable [DecidableEq H]

/-! ## Lending -/

/-- Lending keeps the roster sound. -/
theorem Sound.lend (sound : r.Sound) (next : r.Next o rest size) (closed : ¬r.opened h) :
    (r.lend o rest size h).Sound := by
  obtain ⟨nodup, absent, part⟩ := next.remaining sound
  have other : ∀ x p, (r.lend o rest size h).owner x = some p →
      (x = h ∧ p = o) ∨ (x ≠ h ∧ r.owner x = some p ∧ p ≠ o) := by
    intro x p owned
    by_cases same : x = h
    · subst same
      simp only [Roster.lend, Function.update_self, Option.some.injEq] at owned
      exact .inl ⟨rfl, owned.symm⟩
    · simp only [Roster.lend, Function.update_of_ne same] at owned
      refine .inr ⟨same, owned, ?_⟩
      rintro rfl
      exact next.not_live sound (sound.owner_live owned)
  constructor
  · exact nodup
  · exact fun p member => lt_of_lt_of_le (sound.pooled _ (part p member)) next.size_le
  · intro x p owned
    rcases other x p owned with ⟨rfl, rfl⟩ | ⟨_, old, _⟩
    · exact .inl rfl
    · exact .inr (sound.isOpen _ _ old)
  · intro x p owned
    rcases other x p owned with ⟨rfl, rfl⟩ | ⟨_, old, distinct⟩
    · simp [Roster.lend]
    · simp only [Roster.lend, Function.update_of_ne distinct]
      exact sound.carries _ _ old
  · intro x p owned
    rcases other x p owned with ⟨rfl, rfl⟩ | ⟨_, old, _⟩
    · exact next.lt sound
    · exact lt_of_lt_of_le (sound.exists' _ _ old) next.size_le
  · intro x p owned
    rcases other x p owned with ⟨rfl, rfl⟩ | ⟨_, old, _⟩
    · exact absent
    · exact fun member => sound.busy _ _ old (part p member)

/-- The object lent is live. -/
theorem live_lend : (r.lend o rest size h).Live o := by simp [Live, lend]

/-- Lending leaves live objects live. -/
theorem Live.lend (live : r.Live p) (sound : r.Sound) (next : r.Next o rest size)
    (closed : ¬r.opened h) : (r.lend o rest size h).Live p := by
  have distinct : p ≠ o := by
    rintro rfl
    exact next.not_live sound live
  have apart : r.handle p ≠ h := fun same => closed (same ▸ sound.live_opened live)
  simpa only [Live, Roster.lend, Function.update_of_ne distinct, Function.update_of_ne apart]
    using live

/-! ## Retiring and severing -/

/-- A registration other than the closed handle's is the old one, of another object. -/
theorem owner_closed (sound : r.Sound) {x : H}
    (owned : Function.update r.owner (r.handle o) none x = some p) :
    x ≠ r.handle o ∧ r.owner x = some p ∧ p ≠ o := by
  by_cases same : x = r.handle o
  · subst same
    simp at owned
  · rw [Function.update_of_ne same] at owned
    refine ⟨same, owned, ?_⟩
    rintro rfl
    exact same (sound.carries _ _ owned).symm

/-- Retiring a live object keeps the roster sound. -/
theorem Sound.retire (sound : r.Sound) (live : r.Live o) : (r.retire o parked).Sound := by
  constructor
  · exact List.nodup_append.mpr ⟨sound.nodup, List.nodup_singleton _,
      fun a left b right same => by
        rw [List.mem_singleton] at right
        exact sound.live_busy live (right ▸ same ▸ left)⟩
  · intro p member
    rcases List.mem_append.mp member with member | member
    · exact sound.pooled p member
    · rw [List.mem_singleton.mp member]
      exact sound.live_lt live
  · intro x p owned
    obtain ⟨apart, old, _⟩ := owner_closed sound owned
    exact ⟨apart, sound.isOpen _ _ old⟩
  · intro x p owned
    obtain ⟨_, old, distinct⟩ := owner_closed sound owned
    simp only [Roster.retire, Function.update_of_ne distinct]
    exact sound.carries _ _ old
  · intro x p owned
    exact sound.exists' _ _ (owner_closed sound owned).2.1
  · intro x p owned member
    obtain ⟨_, old, distinct⟩ := owner_closed sound owned
    rcases List.mem_append.mp member with member | member
    · exact sound.busy _ _ old member
    · exact distinct (List.mem_singleton.mp member)

/-- Retiring an object leaves other live objects live. -/
theorem Live.retire (live : r.Live p) (retired : r.Live o) (distinct : p ≠ o) :
    (r.retire o parked).Live p := by
  simpa only [Live, Roster.retire, Function.update_of_ne distinct,
    Function.update_of_ne (live.handle_ne retired distinct)] using live

/-- A retired object parked at a handle that is not open is settled. -/
theorem settled_retire (closed : ¬r.opened parked) : (r.retire o parked).Settled o :=
  .inr (by simp [Roster.retire, closed])

/-- Severing a handle keeps the roster sound. -/
theorem Sound.sever (sound : r.Sound) : (r.sever o).Sound := by
  constructor
  · exact sound.nodup
  · exact sound.pooled
  · intro x p owned
    obtain ⟨apart, old, _⟩ := owner_closed sound owned
    exact ⟨apart, sound.isOpen _ _ old⟩
  · exact fun x p owned => sound.carries _ _ (owner_closed sound owned).2.1
  · exact fun x p owned => sound.exists' _ _ (owner_closed sound owned).2.1
  · exact fun x p owned => sound.busy _ _ (owner_closed sound owned).2.1

/-- Severing an object's handle leaves other live objects live. -/
theorem Live.sever (live : r.Live p) (severed : r.Live o) (distinct : p ≠ o) :
    (r.sever o).Live p := by
  simpa only [Live, Roster.sever, Function.update_of_ne (live.handle_ne severed distinct)]
    using live

/-- The object whose handle was severed is settled. -/
theorem settled_sever : (r.sever o).Settled o := .inr (by simp [Roster.sever])

/-! ## Loans and the bound -/

/-- With a closed handle in the supply, fewer objects are lent than there are handles. -/
theorem Sound.lent_lt {supply : Finset H} (sound : r.Sound) (offered : h ∈ supply)
    (closed : ¬r.opened h) : (r.lent supply).card < supply.card := by
  have image : (r.lent supply).card ≤ (supply.erase h).card := by
    apply Finset.card_le_card_of_injOn r.handle
    · intro p member
      obtain ⟨live, supplied⟩ := (mem_lent sound).mp member
      refine Finset.mem_coe.mpr (Finset.mem_erase.mpr ⟨?_, supplied⟩)
      exact fun same => closed (same ▸ sound.live_opened live)
    · intro p left q right same
      exact ((mem_lent sound).mp left).1.unique ((mem_lent sound).mp right).1 same
  exact lt_of_le_of_lt image (Finset.card_erase_lt_of_mem offered)

/-- Objects lent after a loan are those lent before and the new one. -/
theorem lent_lend {supply : Finset H} (sound : r.Sound) (next : r.Next o rest size)
    (closed : ¬r.opened h) (offered : h ∈ supply) :
    (r.lend o rest size h).lent supply = insert o (r.lent supply) := by
  ext p
  rw [mem_lent (sound.lend next closed), Finset.mem_insert, mem_lent sound]
  by_cases same : p = o
  · subst same
    have carried : (r.lend p rest size h).handle p = h := by simp [Roster.lend]
    simp only [live_lend, carried, offered, and_self, true_or]
  · have handle : (r.lend o rest size h).handle p = r.handle p := by
      simp [Roster.lend, Function.update_of_ne same]
    simp only [same, false_or, handle]
    refine and_congr_left fun _ => ⟨fun live => ?_, fun live => live.lend sound next closed⟩
    unfold Live at live ⊢
    rw [handle] at live
    have apart : r.handle p ≠ h := by
      intro equal
      simp only [equal, Roster.lend, Function.update_self, Option.some.injEq] at live
      exact same live.symm
    simpa only [Roster.lend, Function.update_of_ne apart] using live

/-- A loan keeps the bound. -/
theorem Bounded.lend {supply : Finset H} (bounded : r.Bounded supply) (sound : r.Sound)
    (next : r.Next o rest size) (closed : ¬r.opened h) (offered : h ∈ supply) :
    (r.lend o rest size h).Bounded supply := by
  have absent : o ∉ r.lent supply := fun member =>
    next.not_live sound ((mem_lent sound).mp member).1
  unfold Bounded at bounded ⊢
  rw [lent_lend sound next closed offered, Finset.card_insert_of_notMem absent]
  cases next with
  | pooled queue =>
    rw [queue, List.length_cons] at bounded
    simp only [Roster.lend]
    omega
  | fresh _ =>
    have room := sound.lent_lt offered closed
    simp only [Roster.lend, List.length_nil]
    omega

/-- A bounced loan keeps the bound. -/
theorem Bounded.bounce {supply : Finset H} (bounded : r.Bounded supply) (sound : r.Sound)
    (next : r.Next o rest size) (closed : ¬r.opened h) (offered : h ∈ supply) :
    (r.bounce o rest size h).Bounded supply := by
  have lentSame : (r.bounce o rest size h).lent supply = r.lent supply := by
    ext p
    rw [mem_lent (sound.bounce next), mem_lent sound]
    by_cases same : p = o
    · subst same
      have idle : ¬(r.bounce p rest size h).Live p := fun live =>
        next.not_live sound (sound.owner_live live)
      simp [idle, next.not_live sound]
    · simp [Live, Roster.bounce, Function.update_of_ne same]
  unfold Bounded at bounded ⊢
  rw [lentSame]
  cases next with
  | pooled queue =>
    rw [queue, List.length_cons] at bounded
    simp only [Roster.bounce, List.length_append, List.length_singleton]
    omega
  | fresh _ =>
    have room := sound.lent_lt offered closed
    simp only [Roster.bounce, List.nil_append, List.length_singleton]
    omega

/-- Retiring an object lent under the supply keeps the bound. -/
theorem Bounded.retire {supply : Finset H} (bounded : r.Bounded supply) (sound : r.Sound)
    (live : r.Live o) (supplied : r.handle o ∈ supply) :
    (r.retire o parked).Bounded supply := by
  have part : (r.retire o parked).lent supply ⊆ (r.lent supply).erase o := by
    intro p member
    obtain ⟨still, inside⟩ := (mem_lent (sound.retire live)).mp member
    obtain ⟨_, old, distinct⟩ := owner_closed sound still
    simp only [Roster.retire, Function.update_of_ne distinct] at old inside
    exact Finset.mem_erase.mpr ⟨distinct, (mem_lent sound).mpr ⟨old, inside⟩⟩
  have fewer := Finset.card_le_card part
  have member : o ∈ r.lent supply := (mem_lent sound).mpr ⟨live, supplied⟩
  have positive := Finset.card_pos.mpr ⟨o, member⟩
  rw [Finset.card_erase_of_mem member] at fewer
  unfold Bounded at bounded ⊢
  simp only [Roster.retire, List.length_append, List.length_singleton] at fewer ⊢
  omega

/-- Severing a handle keeps the bound. -/
theorem Bounded.sever {supply : Finset H} (bounded : r.Bounded supply) (sound : r.Sound) :
    (r.sever o).Bounded supply := by
  have part : (r.sever o).lent supply ⊆ r.lent supply := by
    intro p member
    obtain ⟨still, inside⟩ := (mem_lent sound.sever).mp member
    exact (mem_lent sound).mpr ⟨(owner_closed sound still).2.1, inside⟩
  exact le_trans (Nat.add_le_add_left (Finset.card_le_card part) _) bounded

end Roster

end EpollNet.Basis
