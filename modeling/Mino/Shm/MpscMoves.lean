import Mino.Shm.MpscSafety

/-! # What the steps of the MPSC channel do to the queue

Each step of a producer or of the consumer is one of a few moves of the ring: a position
is reserved, its holder writes to the slot, it becomes a tombstone or a message, its slot
is marked free, or the consumer cursor passes it. -/

namespace Mino.Shm.MpscRing

open List Function EventLog Interleaving MpscProducer MpscSystem

variable {μ : Type} {crc : SlotCrc μ} {r : MpscRing μ} {producers : Nat → MpscProducer}
  {consumer : MpscConsumer μ}

/-! ### The log -/

/-- How far one event moves the consumer cursor. -/
def retires (e : MpscEvent μ) (p : Nat) : Nat :=
  (if e.ackedSequence = some p then 1 else 0) + (if e.droppedSequence = some p then 1 else 0) +
    if e.skippedSequence = some p then 1 else 0

variable {reserved cons p t q : Nat} {log : List (MpscEvent μ)} {e : MpscEvent μ}
  {next : MpscReturn} {l : MpscProducer} {f : MpscProducer → Option Nat} {P : Nat → Prop}
  {r' : MpscRing μ}

/-- What the log says already when an event is added to it. -/
def Allowed (reserved cons : Nat) (log : List (MpscEvent μ)) : MpscEvent μ → Prop
  | .committed p _ => p < reserved ∧ .tombstoned p ∉ log ∧ ∀ m, .committed p m ∉ log
  | .tombstoned p => p < reserved ∧ ∀ m, .committed p m ∉ log
  | .aborted p => .tombstoned p ∈ log
  | .polled p m => p = cons ∧ .committed p m ∈ log
  | .skipped p => .tombstoned p ∈ log
  | .acked p => ∃ m, .polled p m ∈ log
  | .corrupted _ => False
  | _ => True

theorem Logged.emit {reserved' cons'} (h : Logged reserved cons log)
    (hreserved : reserved ≤ reserved') (hcons : cons ≤ cons') (he : Allowed reserved cons log e)
    (hretires : ∀ p, retires e p = if cons ≤ p ∧ p < cons' then 1 else 0) :
    Logged reserved' cons' (log ++ [e]) where
  committed_lt p m hp := by
    rcases mem_or_eq hp with hp | rfl
    · exact Nat.lt_of_lt_of_le (h.committed_lt p m hp) hreserved
    · exact Nat.lt_of_lt_of_le he.1 hreserved
  tombstoned_lt p hp := by
    rcases mem_or_eq hp with hp | rfl
    · exact Nat.lt_of_lt_of_le (h.tombstoned_lt p hp) hreserved
    · exact Nat.lt_of_lt_of_le he.1 hreserved
  apart p m hp hm := by
    rcases mem_or_eq hp with hold | rfl <;> rcases mem_or_eq hm with hm | hm
    · exact h.apart p m hold hm
    · subst hm
      exact he.2.1 hold
    · exact he.2 m hm
    · cases hm
  committedOnce p m m' hm hm' := by
    rcases mem_or_eq hm with hold | rfl <;> rcases mem_or_eq hm' with hm' | hm'
    · exact h.committedOnce p m m' hold hm'
    · subst hm'
      exact absurd hold (he.2.2 m)
    · exact absurd hm' (he.2.2 m')
    · cases hm'
      rfl
  abortedTombstoned p hp := by
    rcases mem_or_eq hp with hp | rfl
    · exact mem_append_left _ (h.abortedTombstoned p hp)
    · exact mem_append_left _ he
  polledInOrder := by
    refine pairwise_append h.polledInOrder fun x hx a b ha hb => ?_
    cases x with
    | polled q m =>
      cases e with
      | polled q' m' =>
        cases ha
        cases hb
        obtain ⟨rfl, -⟩ := he
        exact h.polled_le _ _ hx
      | _ => cases hb
    | _ => cases ha
  polled_le p m hp := by
    rcases mem_or_eq hp with hp | rfl
    · exact Nat.le_trans (h.polled_le p m hp) hcons
    · exact Nat.le_trans (Nat.le_of_eq he.1) hcons
  polledCommitted p m hp := by
    rcases mem_or_eq hp with hp | rfl
    · exact mem_append_left _ (h.polledCommitted p m hp)
    · exact mem_append_left _ he.2
  skippedTombstoned p hp := by
    rcases mem_or_eq hp with hp | rfl
    · exact mem_append_left _ (h.skippedTombstoned p hp)
    · exact mem_append_left _ he
  ackedPolled p hp := by
    rcases mem_or_eq hp with hp | rfl
    · exact (h.ackedPolled p hp).imp fun m hm => mem_append_left _ hm
    · exact he.imp fun m hm => mem_append_left _ hm
  finished := by
    refine List.pairwise_append.mpr ⟨h.finished, pairwise_singleton _ _, ?_⟩
    rintro _ hx _ hy p m rfl rfl
    obtain rfl := mem_singleton.mp hy
    obtain ⟨rfl, -⟩ := he
    -- the cursor has not passed the position that is returned
    have honce := h.retiredOnce p
    rw [if_neg (Nat.lt_irrefl p)] at honce
    have hacked : 0 < times MpscEvent.ackedSequence log p :=
      countP_pos_iff.mpr ⟨_, hx, by simp [MpscEvent.ackedSequence]⟩
    omega
  retiredOnce p := by
    have hold := h.retiredOnce p
    have hnew := hretires p
    unfold retires at hnew
    rw [times_append, times_append, times_append]
    have hcases := ite_lt_add_ite_range (p := p) hcons
    omega
  uncorrupted p hp := by
    rcases mem_or_eq hp with hp | rfl
    · exact h.uncorrupted p hp
    · exact he

/-- Events that change nothing of what the log says. -/
def Quiet : MpscEvent μ → Prop
  | .reserved _ | .refused _ | .commitFailed _ | .abortFailed _ | .wouldBlock | .overtaken _ => True
  | _ => False

theorem retires_one (he : e = .acked cons ∨ e = .dropped cons ∨ e = .skipped cons) (p : Nat) :
    retires e p = if cons ≤ p ∧ p < cons + 1 then 1 else 0 := by
  rw [← EventLog.ite_eq_ite_range]
  rcases he with rfl | rfl | rfl <;>
    simp [retires, MpscEvent.ackedSequence, MpscEvent.droppedSequence, MpscEvent.skippedSequence]

section

variable (h : Logged reserved cons log)
include h

theorem Logged.emit_quiet (he : Quiet e) {reserved'}
    (hle : reserved ≤ reserved') : Logged reserved' cons (log ++ [e]) := by
  cases e with
  | reserved | refused | commitFailed | abortFailed | wouldBlock | overtaken =>
    exact h.emit hle le_rfl trivial fun _ => zero_eq_ite_range
  | _ => exact he.elim

theorem Logged.commit {m} (hlt : p < reserved)
    (htomb : .tombstoned p ∉ log) (hcom : ∀ m', .committed p m' ∉ log) :
    Logged reserved cons (log ++ [.committed p m]) :=
  h.emit le_rfl le_rfl ⟨hlt, htomb, hcom⟩ fun _ => zero_eq_ite_range

theorem Logged.tombstone (hlt : p < reserved)
    (hcom : ∀ m, .committed p m ∉ log) : Logged reserved cons (log ++ [.tombstoned p]) :=
  h.emit le_rfl le_rfl ⟨hlt, hcom⟩ fun _ => zero_eq_ite_range

theorem Logged.abort (htomb : .tombstoned p ∈ log) : Logged reserved cons (log ++ [.aborted p]) :=
  h.emit le_rfl le_rfl htomb fun _ => zero_eq_ite_range

theorem Logged.poll {m} (hcom : .committed cons m ∈ log) :
    Logged reserved cons (log ++ [.polled cons m]) :=
  h.emit le_rfl le_rfl ⟨rfl, hcom⟩ fun _ => zero_eq_ite_range

/-- The consumer retires the position of its cursor. -/
theorem Logged.retire (hnext : Retirable log cons next) :
    Logged reserved (cons + 1) (log ++ [retirement cons next]) := by
  cases next with
  | poll => exact h.emit le_rfl (Nat.le_succ _) hnext (retires_one (.inr (.inr rfl)))
  | ack => exact h.emit le_rfl (Nat.le_succ _) hnext (retires_one (.inl rfl))
  | corruption => exact hnext.elim

theorem Logged.drop : Logged reserved (cons + 1) (log ++ [.dropped cons]) :=
  h.emit le_rfl (Nat.le_succ _) trivial (retires_one (.inr (.inl rfl)))

end

/-! ### Moves of the producers -/

/-- Whether any of the producers is at a position does not change if the one that moves
stays at it. -/
theorem exists_update (hl : f l = f (producers t))
    (h : ∃ u, f (producers u) = some p) : ∃ u, f (update producers t l u) = some p := by
  obtain ⟨u, hu⟩ := h
  refine ⟨u, ?_⟩
  by_cases hut : u = t
  · subst hut
    rw [update_self, hl]
    exact hu
  · rw [update_of_ne hut]
    exact hu

theorem eq_update_of_ne {u} (ht : f (producers t) ≠ some p)
    (hu : f (producers u) = some p) : f (update producers t l u) = some p := by
  have hut : u ≠ t := fun hut => ht (hut ▸ hu)
  rw [update_of_ne hut]
  exact hu

theorem drops_update (hl : l.drops = (producers t).drops) :
    (∃ u q, (producers u).drops = some q ∧ P q) →
      ∃ u q, (update producers t l u).drops = some q ∧ P q := fun ⟨u, q, hu, hq⟩ =>
  (exists_update hl ⟨u, hu⟩).imp fun _ hu' => ⟨q, hu', hq⟩

theorem of_eq_none {o} (h : o = none) (p : Nat) (hp : o = some p) : P p :=
  nomatch h.symm.trans hp

theorem forall_update {P : MpscProducer → Prop} (hl : P l) (h : ∀ u, u ≠ t → P (producers u))
    (u : Nat) : P (update producers t l u) :=
  (forall_update_iff producers fun _ => P).mpr ⟨hl, h⟩ u

/-- A producer goes on without touching the ring. -/
theorem Inv.move (h : Inv crc r producers consumer) (hl : ProducerOk crc r l)
    (hholds : l.holds = (producers t).holds) (hdrops : l.drops = (producers t).drops) :
    Inv crc r (update producers t l) consumer where
  capacity := h.capacity
  frontier := h.frontier
  le := h.le
  room := h.room
  free p hle hlt := (h.free p hle hlt).imp id (drops_update hdrops)
  window p hle hlt := (h.window p hle hlt).imp (exists_update hholds) id
  each := forall_update hl fun u _ => h.each u
  holdsAlone := alone_update h.holdsAlone fun p hp u hut hu =>
    hut (h.holdsAlone u t p hu (hholds ▸ hp))
  dropsAlone := alone_update h.dropsAlone fun p hp u hut hu =>
    hut (h.dropsAlone u t p hu (hdrops ▸ hp))
  reader := h.reader
  logged := h.logged

theorem ProducerOk.of_none (hholds : l.holds = none) (hprobes : l.probes = none) (haims : l.aims =
    none) (hdrops : l.drops = none) (hburies : l.buries = none) : ProducerOk crc r l :=
  ⟨of_eq_none hholds, of_eq_none hprobes, of_eq_none haims, of_eq_none hdrops, of_eq_none hburies⟩

/-- All that is asked of the holder of a position. -/
theorem ProducerOk.of_held (hp : l.holds = some p) (h : Held crc r l p) : ProducerOk crc r l := by
  obtain ⟨hdrops, haims, hprobes, hburies⟩ := of_holds hp
  refine ⟨fun q hq => ?_, of_eq_none hprobes, of_eq_none haims,
    of_eq_none hdrops, of_eq_none hburies⟩
  obtain rfl : p = q := Option.some.inj (hp.symm.trans hq)
  exact h

/-- What a producer has made sure of stays true of a ring that agrees on its positions. -/
theorem ProducerOk.frame (h : ProducerOk crc r l) (hreserved : r.reserved ≤ r'.reserved)
    (hholds : ∀ p, l.holds = some p → r'.frontier ≤ p ∧ r'.slotAt p = r.slotAt p ∧
      .tombstoned p ∉ r'.log ∧ ∀ m, .committed p m ∉ r'.log)
    (haims : ∀ p, l.aims = some p → p = r'.reserved → (r'.slotAt p).turn = p)
    (hdrops : ∀ p, l.drops = some p → p < r'.cons ∧ r'.reserved ≤ p + r'.capacity ∧
      (r'.slotAt p).turn = p + 1) (hlog : ∀ e ∈ r.log, e ∈ r'.log) : ProducerOk crc r' l where
  held p hp := by
    have hheld := h.held p hp
    obtain ⟨hle, hslot, htomb, hcom⟩ := hholds p hp
    exact ⟨hle, Nat.lt_of_lt_of_le hheld.lt hreserved, by rw [hslot]; exact hheld.turn, htomb,
      hcom, by rw [hslot]; exact hheld.written⟩
  probed p hp := Nat.le_trans (h.probed p hp) hreserved
  aimed p hp := ⟨Nat.le_trans (h.aimed p hp).1 hreserved, haims p hp⟩
  dropped := hdrops
  buried p hp := hlog _ (h.buried p hp)

theorem ConsumerOk.frame {l} (h : ConsumerOk r l)
    (hcons : r'.cons = r.cons) (hreserved : r.reserved ≤ r'.reserved) (hlog : ∀ e ∈ r.log,
    e ∈ r'.log) (hslot : r.cons < r.reserved → (r.slotAt r.cons).turn = r.cons + 1 →
      r'.slotAt r.cons = r.slotAt r.cons) : ConsumerOk r' l := by
  have hhead : ∀ {cons}, r.AtHead cons → r'.AtHead cons := fun hat =>
    ⟨hat.1.trans hcons.symm, Nat.lt_of_lt_of_le hat.2 hreserved⟩
  have hsame : ∀ {cons}, r.AtHead cons → (r.slotAt cons).turn = cons + 1 →
      r'.slotAt cons = r.slotAt cons := by
    rintro cons ⟨rfl, hlt⟩ hturn
    exact hslot hlt hturn
  have hret : ∀ {cons next}, Retirable r.log cons next → Retirable r'.log cons next := by
    intro cons next hnext
    cases next with
    | poll => exact hlog _ hnext
    | ack => exact hnext.imp fun m hm => hlog _ hm
    | corruption => exact hnext
  cases l with
  | comparing cons => exact Eq.trans h hcons.symm
  | probing cons => exact hhead h
  | judging cons turn =>
    refine ⟨hhead h.1, fun hturn => ?_⟩
    rw [hsame h.1 (h.2 hturn)]
    exact h.2 hturn
  | checking cons | copying cons => exact ⟨hhead h.1, by rw [hsame h.1 h.2]; exact h.2⟩
  | copied cons content | verifying cons content sequenceNum =>
    exact ⟨hhead h.1, by rw [hsame h.1 h.2.1]; exact h.2⟩
  | retiring cons next | advancing cons next => exact ⟨hhead h.1, hret h.2⟩
  | _ => trivial

/-- A slot that is marked free is at the turn of its next position. -/
theorem turn_setTurn_again (hp : p = q + r.capacity) :
    ((r.setTurn q (q + r.capacity)).slotAt p).turn = p := by
  have hmod : p % r.capacity = q % r.capacity := by rw [hp, Nat.add_mod_right]
  have hat : (r.setTurn q (q + r.capacity)).slotAt p = (r.setTurn q (q + r.capacity)).slotAt q :=
    congrArg (r.setTurn q (q + r.capacity)).slots hmod
  rw [hat, hp, setTurn, slotAt_setSlot_self]

/-- Positions whose turns stand in their slots have different slots. -/
theorem Inv.slot_ne (h : Inv crc r producers consumer)
    (hp : (r.slotAt p).turn = p ∨ (r.slotAt p).turn = p + 1)
    (hq : (r.slotAt q).turn = q ∨ (r.slotAt q).turn = q + 1) (hne : p ≠ q) :
    p % r.capacity ≠ q % r.capacity := by
  intro hmod
  have hslot : r.slotAt p = r.slotAt q := congrArg r.slots hmod
  rw [← hslot] at hq
  exact hne (eq_of_turn h.capacity hmod hp hq)

/-- An event about something else leaves a held position open. -/
theorem Held.unsettled (h : Held crc r l p) (htomb : e ≠ .tombstoned p) (hcom : ∀ m,
    e ≠ .committed p m) : .tombstoned p ∉ r.log ++ [e] ∧ ∀ m, .committed p m ∉ r.log ++ [e] :=
  ⟨fun hmem => (mem_or_eq hmem).elim h.untombstoned fun heq => htomb heq.symm,
    fun m hmem => (mem_or_eq hmem).elim (h.uncommitted m) fun heq => hcom m heq.symm⟩

theorem settled_mono {slot} (h : Tombstone slot log p ∨ Committed crc slot log p) :
    Tombstone slot (log ++ [e]) p ∨ Committed crc slot (log ++ [e]) p :=
  h.imp (·.mono e) (·.mono e)

section

variable (h : Inv crc r producers consumer)
include h

section

variable (hq : (producers t).holds = some q)
include hq

/-- The slot of the head, once committed, is none that a producer writes to. -/
theorem Inv.head_ne (hturn : (r.slotAt r.cons).turn = r.cons + 1) :
    r.cons % r.capacity ≠ q % r.capacity := by
  have hheld := (h.each t).held q hq
  refine h.slot_ne (.inr hturn) (.inl hheld.turn) fun heq => ?_
  rw [heq, hheld.turn] at hturn
  omega

/-- The holder of a position writes to its slot. -/
theorem Inv.write (hl : l.holds = some q) {f : IndexSlot μ → IndexSlot μ}
    (hf : (f (r.slotAt q)).turn = (r.slotAt q).turn) (hwritten : Written crc (f (r.slotAt q)) l) :
    Inv crc (r.setSlot q f) (update producers t l) consumer := by
  have hheld := (h.each t).held q hq
  have hother : ∀ p, r.frontier ≤ p → p < r.reserved → p ≠ q →
      (r.setSlot q f).slotAt p = r.slotAt p := fun p hle hlt hne =>
    slotAt_setSlot_of_ne f (h.window_ne hle hlt hheld.le hheld.lt hne)
  have hdrops' := (of_holds hl).1
  have hdrops := hdrops'.trans (of_holds hq).1.symm
  refine ⟨h.capacity, h.frontier, h.le, h.room, fun p hle hlt => ?_, fun p hle hlt => ?_,
    forall_update ?_ fun u hut => ?_, ?_, ?_, ?_, h.logged⟩
  · rw [turn_setSlot hf]
    exact (h.free p hle hlt).imp id (drops_update hdrops)
  · by_cases hpq : p = q
    · exact .inl ⟨t, by rw [update_self, hl, hpq]⟩
    · rw [hother p hle hlt hpq]
      exact (h.window p hle hlt).imp (exists_update (hl.trans hq.symm)) id
  · exact .of_held hl ⟨hheld.le, hheld.lt, by rw [turn_setSlot hf]; exact hheld.turn, hheld.untombstoned,
      hheld.uncommitted, by rw [slotAt_setSlot_self]; exact hwritten⟩
  · refine (h.each u).frame le_rfl (fun p hp => ?_) (fun p hp heq => ?_) (fun p hp => ?_) ?_
    · have hheld' := (h.each u).held p hp
      refine ⟨hheld'.le, hother p hheld'.le hheld'.lt ?_, hheld'.untombstoned, hheld'.uncommitted⟩
      rintro rfl
      exact hut (h.holdsAlone u t p hp hq)
    · rw [turn_setSlot hf]
      exact ((h.each u).aimed p hp).2 heq
    · rw [turn_setSlot hf]
      exact (h.each u).dropped p hp
    · exact fun _ he => he
  · exact alone_update h.holdsAlone fun p hp u hut hu =>
      hut (h.holdsAlone u t p hu (hq.trans (hl.symm.trans hp)))
  · exact alone_update h.dropsAlone (of_eq_none hdrops')
  · exact h.reader.frame rfl le_rfl (fun _ he => he) fun _ hturn =>
      slotAt_setSlot_of_ne f (h.head_ne hq hturn)

/-- A position that its holder finishes: as a tombstone or as a message. -/
theorem Inv.finish (hholds : l.holds = none) (hdrops : l.drops = none) (haims : l.aims = none)
    (hprobes : l.probes = none) {f : IndexSlot μ → IndexSlot μ}
    (hdone : Tombstone (f (r.slotAt q)) (r.log ++ [e]) q ∨
      Committed crc (f (r.slotAt q)) (r.log ++ [e]) q)
    (he : ∀ p m, e = .tombstoned p ∨ e = .committed p m → p = q)
    (hburies : ∀ p, l.buries = some p → .tombstoned p ∈ r.log ++ [e])
    (hlog : Logged r.reserved r.cons (r.log ++ [e])) :
    Inv crc ((r.setSlot q f).emit e) (update producers t l) consumer := by
  have hheld := (h.each t).held q hq
  have hslot : ∀ p, p % r.capacity ≠ q % r.capacity →
      ((r.setSlot q f).emit e).slotAt p = r.slotAt p := fun p hne => slotAt_setSlot_of_ne f hne
  have hother : ∀ p, r.frontier ≤ p → p < r.reserved → p ≠ q →
      ((r.setSlot q f).emit e).slotAt p = r.slotAt p := fun p hle hlt hne =>
    hslot p (h.window_ne hle hlt hheld.le hheld.lt hne)
  have hself : ((r.setSlot q f).emit e).slotAt q = f (r.slotAt q) := slotAt_setSlot_self r q f
  have hpt := (of_holds hq).1
  -- The slot of a free position is in another lap than that of a held one.
  have hfree : ∀ p, (r.slotAt p).turn = p → p ≠ q → p % r.capacity ≠ q % r.capacity :=
    fun p hturn hne => h.slot_ne (.inl hturn) (.inl hheld.turn) hne
  refine ⟨h.capacity, h.frontier, h.le, h.room, fun p hle hlt => ?_, fun p hle hlt => ?_,
    forall_update ?_ fun u hut => ?_, ?_, ?_, ?_, hlog⟩
  · refine (h.free p hle hlt).imp (fun hturn => ?_) (drops_update (hdrops.trans hpt.symm))
    have hne : p ≠ q := by
      have := hheld.lt
      change r.reserved ≤ p at hle
      omega
    rw [hslot p (hfree p hturn hne)]
    exact hturn
  · by_cases hpq : p = q
    · subst hpq
      rw [hself]
      exact .inr hdone
    · rw [hother p hle hlt hpq]
      have ht : (producers t).holds ≠ some p := fun hp => hpq (Option.some.inj (hp.symm.trans hq))
      exact (h.window p hle hlt).imp (·.imp fun _ => eq_update_of_ne ht) settled_mono
  · exact ⟨of_eq_none hholds, of_eq_none hprobes, of_eq_none haims, of_eq_none hdrops, hburies⟩
  · refine (h.each u).frame le_rfl (fun p hp => ?_) (fun p hp heq => ?_) (fun p hp => ?_) ?_
    · have hheld' := (h.each u).held p hp
      have hpq : p ≠ q := by
        rintro rfl
        exact hut (h.holdsAlone u t p hp hq)
      exact ⟨hheld'.le, hother p hheld'.le hheld'.lt hpq, hheld'.unsettled
        (fun heq => hpq (he p (r.slotAt q).content (.inl heq))) fun m heq => hpq (he p m (.inr heq))⟩
    · have hturn := ((h.each u).aimed p hp).2 heq
      have hne : p ≠ q := by
        have := hheld.lt
        change p = r.reserved at heq
        omega
      rw [hslot p (hfree p hturn hne)]
      exact hturn
    · have hne : p % r.capacity ≠ q % r.capacity := fun hmod => h.holds_ne_drops hq hp hmod.symm
      rw [hslot p hne]
      exact (h.each u).dropped p hp
    · exact fun _ he => mem_append_left _ he
  · exact alone_update h.holdsAlone (of_eq_none hholds)
  · exact alone_update h.dropsAlone (of_eq_none hdrops)
  · exact h.reader.frame rfl le_rfl (fun _ he => mem_append_left _ he) fun _ hturn => hslot _
      (h.head_ne hq hturn)

end

/-- The producer that moves the reservation cursor holds the position it was at. -/
theorem Inv.reserve (hturn : (r.slotAt r.reserved).turn = r.reserved)
    (hpt : (producers t).holds = none) (hdt : (producers t).drops = none)
    (hl : l.holds = some r.reserved) (hwritten : Written crc (r.slotAt r.reserved) l) :
    Inv crc ({ r with reserved := r.reserved + 1 }.emit (.reserved r.reserved))
      (update producers t l) consumer := by
  have hroom := h.room_of_turn hturn
  have hle := h.le
  have hdrops := (of_holds hl).1
  have hlog : ∀ {e : MpscEvent μ}, e ∈ r.log ++ [.reserved r.reserved] → e = .reserved r.reserved ∨
      e ∈ r.log := fun he => (mem_or_eq he).symm
  refine ⟨h.capacity, h.frontier, Nat.le_succ_of_le hle, hroom, fun p hle hlt => ?_,
    fun p hle hlt => ?_, forall_update ?_ fun u hut => ?_, ?_, ?_, ?_,
    h.logged.emit_quiet (e := .reserved r.reserved) trivial (Nat.le_succ _)⟩
  · exact (h.free p (Nat.le_of_succ_le hle) hlt).imp id (drops_update (hdrops.trans hdt.symm))
  · rcases Nat.lt_succ_iff_lt_or_eq.mp hlt with hlt | rfl
    · have ht : (producers t).holds ≠ some p := by rw [hpt]; nofun
      exact (h.window p hle hlt).imp (·.imp fun _ => eq_update_of_ne ht) settled_mono
    · exact .inl ⟨t, by rw [update_self, hl]⟩
  · refine .of_held hl ⟨hle, Nat.lt_succ_self _, hturn, fun hmem => ?_, fun m hmem => ?_, hwritten⟩
    · rcases hlog hmem with hmem | hmem
      · cases hmem
      · exact Nat.lt_irrefl _ (h.logged.tombstoned_lt _ hmem)
    · rcases hlog hmem with hmem | hmem
      · cases hmem
      · exact Nat.lt_irrefl _ (h.logged.committed_lt _ m hmem)
  · refine (h.each u).frame (Nat.le_succ _) (fun p hp => ?_) (fun p hp heq => ?_) (fun p hp => ?_) ?_
    · have hheld := (h.each u).held p hp
      exact ⟨hheld.le, rfl, hheld.unsettled nofun nofun⟩
    · have := ((h.each u).aimed p hp).1
      change p = r.reserved + 1 at heq
      omega
    · obtain ⟨hlt, hroom', hturn'⟩ := (h.each u).dropped p hp
      refine ⟨hlt, ?_, hturn'⟩
      rcases Nat.lt_or_eq_of_le hroom' with hlt' | heq
      · exact hlt'
      have hmod : r.reserved % r.capacity = p % r.capacity := by rw [heq, Nat.add_mod_right]
      have hslot : r.slotAt r.reserved = r.slotAt p := congrArg r.slots hmod
      have := eq_of_turn h.capacity hmod (.inl hturn) (.inr (hslot ▸ hturn'))
      omega
    · exact fun _ he => mem_append_left _ he
  · refine alone_update h.holdsAlone fun p hp u hut hu => ?_
    obtain rfl : r.reserved = p := Option.some.inj (hl.symm.trans hp)
    exact Nat.lt_irrefl _ ((h.each u).held _ hu).lt
  · exact alone_update h.dropsAlone (of_eq_none hdrops)
  · exact h.reader.frame rfl (Nat.le_succ _) (fun _ he => mem_append_left _ he) fun _ _ => rfl

/-- The slot of a position that was dropped is marked free. -/
theorem Inv.clear (hq : (producers t).drops = some q) (hl : ProducerOk crc r l)
    (hholds : l.holds = none) (hdrops : l.drops = none) (haims : l.aims = none) :
    Inv crc (r.setTurn q (q + r.capacity)) (update producers t l) consumer := by
  obtain ⟨hlt, hroom, hturn⟩ := (h.each t).dropped q hq
  have hcap := h.capacity
  have hfrontier := h.frontier
  have hle := h.le
  have hslot : ∀ p, p % r.capacity ≠ q % r.capacity →
      (r.setTurn q (q + r.capacity)).slotAt p = r.slotAt p := fun p hne =>
    slotAt_setSlot_of_ne _ hne
  have hpt := (of_drops hq).1
  -- From the dropped position on, its slot comes round again at `q + capacity` only.
  have hnear : ∀ p, q < p → p < q + r.capacity → p % r.capacity ≠ q % r.capacity :=
    fun p hlt hlt' => mod_ne_of_lt hlt hlt'
  refine ⟨h.capacity, h.frontier, h.le, h.room, fun p hle' hlt' => ?_, fun p hle' hlt' => ?_,
    forall_update ?_ fun u hut => ?_, ?_, ?_, ?_, h.logged⟩
  · change r.reserved ≤ p at hle'
    by_cases hpq : p = q + r.capacity
    · exact .inl (turn_setTurn_again hpq)
    rcases h.free p hle' hlt' with hfree | ⟨u, q', hu, hq'⟩
    · left
      rw [hslot p (h.slot_ne (.inl hfree) (.inr hturn) (by omega))]
      exact hfree
    · have ht : (producers t).drops ≠ some q' := by
        rw [hq, Ne, Option.some.injEq]
        omega
      exact .inr ⟨u, q', eq_update_of_ne ht hu, hq'⟩
  · change r.frontier ≤ p at hle'
    change p < r.reserved at hlt'
    rw [hslot p (hnear p (by omega) (by omega))]
    exact (h.window p hle' hlt').imp (exists_update (hholds.trans hpt.symm)) id
  · exact ⟨of_eq_none hholds, hl.probed, of_eq_none haims, of_eq_none hdrops, hl.buried⟩
  · refine (h.each u).frame le_rfl (fun p hp => ?_) (fun p hp heq => ?_) (fun p hp => ?_) ?_
    · have hheld := (h.each u).held p hp
      exact ⟨hheld.le, hslot p (h.holds_ne_drops hp hq), hheld.untombstoned, hheld.uncommitted⟩
    · have hfree := ((h.each u).aimed p hp).2 heq
      change p = r.reserved at heq
      rw [hslot p (h.slot_ne (.inl hfree) (.inr hturn) (by omega))]
      exact hfree
    · obtain ⟨hlt', hroom', hturn'⟩ := (h.each u).dropped p hp
      have hpq : p ≠ q := by
        rintro rfl
        exact hut (h.dropsAlone u t p hp hq)
      refine ⟨hlt', hroom', ?_⟩
      have hne : p % r.capacity ≠ q % r.capacity := by
        rcases Nat.lt_or_gt_of_ne hpq with hpq | hpq
        · exact (mod_ne_of_lt hpq (by omega)).symm
        · exact mod_ne_of_lt hpq (by omega)
      rw [hslot p hne]
      exact hturn'
    · exact fun _ he => he
  · exact alone_update h.holdsAlone (of_eq_none hholds)
  · exact alone_update h.dropsAlone (of_eq_none hdrops)
  · exact h.reader.frame rfl le_rfl (fun _ he => he) fun hlt' _ =>
      hslot _ (hnear _ (by omega) (by omega))

/-! ### Moves of the consumer -/

/-- The consumer goes on without touching the ring. -/
theorem Inv.turnTo {l}
    (hahead : l.ahead = consumer.ahead) (hl : ConsumerOk r l) : Inv crc r producers l :=
  ⟨h.capacity, h.frontier.trans (by rw [hahead]), h.le, h.room, h.free, h.window, h.each,
    h.holdsAlone, h.dropsAlone, hl, h.logged⟩

/-- An event that neither makes a tombstone nor a message. -/
theorem Inv.record (he : ∀ p m, e ≠ .tombstoned p ∧ e ≠ .committed p m)
    (hlog : Logged r.reserved r.cons (r.log ++ [e])) : Inv crc (r.emit e) producers consumer := by
  refine ⟨h.capacity, h.frontier, h.le, h.room, h.free, fun p hle hlt => ?_, fun t => ?_,
    h.holdsAlone, h.dropsAlone, ?_, hlog⟩
  · exact (h.window p hle hlt).imp id settled_mono
  · refine (h.each t).frame le_rfl (fun p hp => ?_) (fun p hp heq => ?_)
      (h.each t).dropped fun _ he => mem_append_left _ he
    · have hheld := (h.each t).held p hp
      exact ⟨hheld.le, rfl, hheld.unsettled (he p (r.slotAt p).content).1 fun m => (he p m).2⟩
    · exact ((h.each t).aimed p hp).2 heq
  · exact h.reader.frame rfl le_rfl (fun _ hmem => mem_append_left _ hmem) fun _ _ => rfl

theorem Inv.not_holds (hp : .tombstoned p ∈ r.log ∨ ∃ m, .committed p m ∈ r.log) (t : Nat) :
    (producers t).holds ≠ some p := by
  intro ht
  have hheld := (h.each t).held p ht
  rcases hp with hp | ⟨m, hp⟩
  · exact hheld.untombstoned hp
  · exact hheld.uncommitted m hp

theorem Inv.settled (hnext : Retirable r.log cons next) :
    .tombstoned cons ∈ r.log ∨ ∃ m, .committed cons m ∈ r.log := by
  cases next with
  | poll => exact .inl hnext
  | ack =>
    obtain ⟨m, hm⟩ := hnext
    exact .inr ⟨m, h.logged.polledCommitted _ _ hm⟩
  | corruption => exact hnext.elim

/-- The consumer marks the slot of its position free. -/
theorem Inv.mark (hahead : consumer.ahead = 0)
    (hlt : r.cons < r.reserved) (hnext : Retirable r.log r.cons next) :
    Inv crc { r.setTurn r.cons (r.cons + r.capacity) with frontier := r.cons + 1 } producers
      (.advancing r.cons next) := by
  have hfrontier : r.frontier = r.cons := by
    rw [h.frontier, hahead, Nat.add_zero]
  have hcap := h.capacity
  have hroom := h.room
  have hturn := h.turn_window (p := r.cons) (by omega) hlt
  have hslot : ∀ p, p % r.capacity ≠ r.cons % r.capacity →
      (r.setTurn r.cons (r.cons + r.capacity)).slotAt p = r.slotAt p := fun p hne =>
    slotAt_setSlot_of_ne _ hne
  have hnear : ∀ p, r.cons < p → p < r.cons + r.capacity →
      (r.setTurn r.cons (r.cons + r.capacity)).slotAt p = r.slotAt p := fun p hlt hlt' =>
    hslot p (mod_ne_of_lt hlt hlt')
  refine ⟨h.capacity, rfl, hlt, ?_, fun p hle' hlt' => ?_, fun p hle' hlt' => ?_, fun t => ?_,
    h.holdsAlone, h.dropsAlone, ⟨⟨rfl, hlt⟩, hnext⟩, h.logged⟩
  · change r.reserved ≤ r.cons + 1 + r.capacity
    omega
  · change r.reserved ≤ p at hle'
    change p < r.cons + 1 + r.capacity at hlt'
    change ((r.setTurn r.cons (r.cons + r.capacity)).slotAt p).turn = p ∨ _
    by_cases hp : p = r.cons + r.capacity
    · exact .inl (turn_setTurn_again hp)
    · rw [hnear p (by omega) (by omega)]
      exact h.free p hle' (by omega)
  · change r.cons + 1 ≤ p at hle'
    change p < r.reserved at hlt'
    change (∃ t, _) ∨ Tombstone ((r.setTurn r.cons (r.cons + r.capacity)).slotAt p) r.log p ∨
      Committed crc ((r.setTurn r.cons (r.cons + r.capacity)).slotAt p) r.log p
    rw [hnear p (by omega) (by omega)]
    exact h.window p (by omega) hlt'
  · refine (h.each t).frame le_rfl (fun p hp => ?_) (fun p hp heq => ?_) (fun p hp => ?_) ?_
    · have hheld := (h.each t).held p hp
      have hne : p ≠ r.cons := fun heq => h.not_holds (h.settled hnext) t (heq ▸ hp)
      have := hheld.le
      have := hheld.lt
      exact ⟨show r.cons + 1 ≤ p by omega, hnear p (by omega) (by omega), hheld.untombstoned,
        hheld.uncommitted⟩
    · have hfree := ((h.each t).aimed p hp).2 heq
      change p = r.reserved at heq
      change ((r.setTurn r.cons (r.cons + r.capacity)).slotAt p).turn = p
      rw [hslot p (h.slot_ne (.inl hfree) hturn (by omega))]
      exact hfree
    · obtain ⟨hltp, hroomp, hturnp⟩ := (h.each t).dropped p hp
      refine ⟨hltp, hroomp, ?_⟩
      change ((r.setTurn r.cons (r.cons + r.capacity)).slotAt p).turn = p + 1
      rw [hslot p (mod_ne_of_lt hltp (by omega)).symm]
      exact hturnp
    · exact fun _ he => he

end

/-- The consumer cursor passes the position whose slot is marked free. -/
theorem Inv.pass (h : Inv crc r producers (.advancing r.cons next)) {l}
    (hahead : l.ahead = 0) (hl : ∀ r : MpscRing μ, ConsumerOk r l)
    (hnext : Retirable r.log r.cons next) : Inv crc
    ({ r with cons := r.cons + 1 }.emit (retirement r.cons next)) producers l := by
  have hquiet : ∀ (p : Nat) (m : μ),
      (retirement r.cons next : MpscEvent μ) ≠ .tombstoned p ∧
        retirement r.cons next ≠ .committed p m := by
    intro p m
    cases next <;> exact ⟨by rintro ⟨⟩, by rintro ⟨⟩⟩
  refine ⟨h.capacity, ?_, h.le, h.room, h.free, fun p hle hlt => ?_, fun t => ?_, h.holdsAlone,
    h.dropsAlone, hl _, h.logged.retire hnext⟩
  · change r.frontier = r.cons + 1 + l.ahead
    rw [hahead]
    exact h.frontier
  · exact (h.window p hle hlt).imp id settled_mono
  · refine (h.each t).frame le_rfl (fun p hp => ?_) (fun p hp heq => ?_) (fun p hp => ?_) ?_
    · have hheld := (h.each t).held p hp
      exact ⟨hheld.le, rfl,
        hheld.unsettled (hquiet p (r.slotAt p).content).1 fun m => (hquiet p m).2⟩
    · exact ((h.each t).aimed p hp).2 heq
    · exact ⟨Nat.lt_succ_of_lt ((h.each t).dropped p hp).1, ((h.each t).dropped p hp).2⟩
    · exact fun _ he => mem_append_left _ he

/-- A producer moves the consumer cursor past a committed message. -/
theorem Inv.drop (h : Inv crc r producers consumer) (hcursor : consumer.holdsCursor = false)
    (hturn : (r.slotAt r.cons).turn = r.cons + 1)
    (hpt : (producers t).holds = none) (hdt : (producers t).drops = none)
    (hdrops : l.drops = some r.cons) :
    Inv crc ({ r with cons := r.cons + 1, frontier := r.cons + 1 }.emit (.dropped r.cons))
      (update producers t l) consumer := by
  have hahead : consumer.ahead = 0 := by cases consumer <;> first | rfl | cases hcursor
  have hfrontier : r.frontier = r.cons := by
    rw [h.frontier, hahead, Nat.add_zero]
  obtain ⟨hholds, haims, hprobes, hburies⟩ := of_drops hdrops
  have hcap := h.capacity
  have hroom := h.room
  have hle := h.le
  -- The head is below the reservation cursor: a free slot has another turn.
  have hlt : r.cons < r.reserved := by
    by_contra hge
    rcases h.free r.cons (by omega) (by omega) with hfree | ⟨u, q, hu, hq⟩
    · omega
    obtain ⟨-, -, hturnq⟩ := (h.each u).dropped q hu
    have hmod : r.cons % r.capacity = q % r.capacity := by rw [hq, Nat.add_mod_right]
    have hslot : r.slotAt r.cons = r.slotAt q := congrArg r.slots hmod
    rw [hslot, hturnq] at hturn
    omega
  refine ⟨h.capacity, ?_, hlt, ?_, fun p hle' hlt' => ?_, fun p hle' hlt' => ?_,
    forall_update ?_ fun u hut => ?_, ?_, ?_, ?_, h.logged.drop⟩
  · change r.cons + 1 = r.cons + 1 + consumer.ahead
    rw [hahead]
  · change r.reserved ≤ r.cons + 1 + r.capacity
    omega
  · change r.reserved ≤ p at hle'
    change p < r.cons + 1 + r.capacity at hlt'
    by_cases hp : p = r.cons + r.capacity
    · exact .inr ⟨t, r.cons, by rw [update_self, hdrops], hp⟩
    · refine (h.free p hle' (by omega)).imp id fun ⟨u, q, hu, hq⟩ => ⟨u, q, ?_, hq⟩
      exact eq_update_of_ne (by rw [hdt]; nofun) hu
  · change r.cons + 1 ≤ p at hle'
    exact (h.window p (by omega) hlt').imp (exists_update (hholds.trans hpt.symm)) settled_mono
  · refine ⟨of_eq_none hholds, of_eq_none hprobes,
      of_eq_none haims, fun p hp => ?_, of_eq_none hburies⟩
    obtain rfl : r.cons = p := Option.some.inj (hdrops.symm.trans hp)
    refine ⟨Nat.lt_succ_self _, ?_, hturn⟩
    change r.reserved ≤ r.cons + r.capacity
    omega
  · refine (h.each u).frame le_rfl (fun p hp => ?_) (fun p hp heq => ?_) (fun p hp => ?_) ?_
    · have hheld := (h.each u).held p hp
      have hne : p ≠ r.cons := by
        rintro rfl
        have := hheld.turn
        omega
      have := hheld.le
      exact ⟨show r.cons + 1 ≤ p by omega, rfl, hheld.unsettled nofun nofun⟩
    · exact ((h.each u).aimed p hp).2 heq
    · exact ⟨Nat.lt_succ_of_lt ((h.each u).dropped p hp).1, ((h.each u).dropped p hp).2⟩
    · exact fun _ he => mem_append_left _ he
  · exact alone_update h.holdsAlone (of_eq_none hholds)
  · refine alone_update h.dropsAlone fun p hp u hut hu => ?_
    obtain rfl : r.cons = p := Option.some.inj (hdrops.symm.trans hp)
    exact Nat.lt_irrefl _ ((h.each u).dropped _ hu).1
  · cases consumer <;> trivial

end Mino.Shm.MpscRing
