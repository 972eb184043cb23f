import Mino.Bridge.DedupWindow
import Mino.Bridge.Frames
import Mino.Lib.SwapTable

/-! # The sender's retransmission window

Every reliable frame that was admitted stays here until an ACK covers it or it
grows too old. Frames are removed by moving the last one into the hole, so after
the first removal the window no longer holds them in the order of admission. -/

namespace Mino.Bridge

open List SwapTable

structure RetransmitWindowOptions where
  maxEntries : Nat := 4096
  maxBytes : Nat := 64 * 1024 * 1024
  maxAgeNs : Nat := 30 * 1000 * 1000 * 1000
  deriving DecidableEq, Repr

/-- An admitted frame with the size of its encoding. -/
structure RetransmitEntry where
  source : SourceIdentity
  sequence : Nat
  enqueuedNs : Nat
  frame : DataFrame
  frameBytes : Nat
  deriving DecidableEq, Repr

namespace RetransmitEntry

def key (e : RetransmitEntry) : SourceIdentity × Nat := (e.source, e.sequence)

end RetransmitEntry

structure RetransmitAckResult where
  removedEntries : Nat := 0
  removedBytes : Nat := 0
  deriving DecidableEq, Repr

structure RetransmitWindow where
  options : RetransmitWindowOptions
  sessionActive : Bool := false
  localSessionEpoch : Nat := 0
  remoteSessionEpoch : Nat := 0
  sessionStartedNs : Nat := 0
  table : SwapTable RetransmitEntry SourceIdentity := {}
  bytes : Nat := 0

variable (w : RetransmitWindow)

namespace RetransmitWindow

def entries : List RetransmitEntry := w.table.entries

def find (source : SourceIdentity) (sequence : Nat) :
    Option RetransmitEntry := w.table.find (source, sequence)

def create (options : RetransmitWindowOptions) : Result RetransmitWindow :=
  if options.maxEntries = 0 ∨ options.maxBytes = 0 ∨ options.maxAgeNs = 0 then
    .error (.error .invalidArgument "retransmit limits must be nonzero")
  else .ok { options }

/-- Frames survive the change of session; the resume ACKs trim them later. -/
def beginSession (localEpoch remoteEpoch nowNs : Nat) : RetransmitWindow :=
  if w.sessionActive && w.localSessionEpoch == localEpoch &&
      w.remoteSessionEpoch == remoteEpoch then w
  else
    { w with
      sessionActive := true
      localSessionEpoch := localEpoch
      remoteSessionEpoch := remoteEpoch
      sessionStartedNs := nowNs }

def add (source : SourceIdentity) (sequence : Nat) (frame : DataFrame) (frameBytes nowNs : Nat) :
    Status × RetransmitWindow :=
  if !w.sessionActive then
    (.error .invalidArgument "retransmit session is not active", w)
  else if sequence = 0 then
    (.error .invalidArgument "sequence zero is not reliable data", w)
  else if frameBytes = 0 then (.error .invalidArgument "encoded frame is empty", w)
  else if frameBytes > w.options.maxBytes then
    (.error .resourceExhausted "encoded frame exceeds retransmit byte limit", w)
  else if (w.table.index (source, sequence)).isSome then
    (.error .alreadyExists "retransmit entry already exists", w)
  else if w.table.entries.length ≥ w.options.maxEntries then
    (.error .resourceExhausted "retransmit entry limit reached", w)
  else if w.bytes > w.options.maxBytes - frameBytes then
    (.error .resourceExhausted "retransmit byte limit reached", w)
  else
    (.success, { w with
      table := w.table.push RetransmitEntry.key ⟨source, sequence, nowNs, frame, frameBytes⟩
      bytes := w.bytes + frameBytes })

def removeAt (index : Nat) : RetransmitWindow :=
  match w.table.entries[index]? with
  | none => w
  | some e =>
    { w with
      table := w.table.removeAt RetransmitEntry.key index
      bytes := w.bytes - e.frameBytes }

/-- The cumulative part of an ACK: drop the least sequence of the source while it
is at or below the mark. -/
def removeThrough (source : SourceIdentity) (highest : Nat) :
    Nat → RetransmitWindow → RetransmitWindow
  | 0, w => w
  | fuel + 1, w =>
    match (w.table.group source).head? with
    | none => w
    | some (sequence, index) =>
      if sequence > highest then w else removeThrough source highest fuel (w.removeAt index)

/-- The selective part: an accepted ACK also drops the frame it observed. -/
def removeObserved (ack : AckPayload) : RetransmitWindow :=
  if ack.disposition = .accepted ∧ ack.observedSequence > ack.highest then
    match w.table.index (ack.source, ack.observedSequence) with
    | none => w
    | some index => w.removeAt index
  else w

def removed (before after : RetransmitWindow) : RetransmitAckResult where
  removedEntries := before.entries.length - after.entries.length
  removedBytes := before.bytes - after.bytes

def applyAck (ack : AckPayload) : Result RetransmitAckResult × RetransmitWindow :=
  if !w.sessionActive || ack.receiverSessionEpoch != w.localSessionEpoch ||
      ack.senderSessionEpoch != w.remoteSessionEpoch then
    (.error (.error .unavailable ""), w)
  else if ack.disposition = .nackWithHighest ∧ ack.highestContiguousSequence = none then
    (.error (.error .invalidArgument "NACK_WITH_HIGHEST requires highest sequence"), w)
  else
    let trimmed := if ack.highestContiguousSequence.isSome then
      removeThrough ack.source ack.highest w.entries.length w else w
    let after := trimmed.removeObserved ack
    (.ok (removed w after), after)

def purgeFrom (nowNs : Nat) : Nat → Nat → RetransmitWindow → RetransmitWindow
  | 0, _, w => w
  | fuel + 1, i, w =>
    match w.table.entries[i]? with
    | none => w
    | some e =>
      if isExpired nowNs e.enqueuedNs w.options.maxAgeNs then
        purgeFrom nowNs fuel i (w.removeAt i)
      else purgeFrom nowNs fuel (i + 1) w

/-- The number of frames given up, and what is left. -/
def purgeExpired (nowNs : Nat) : Nat × RetransmitWindow :=
  let after := purgeFrom nowNs w.entries.length 0 w
  (w.entries.length - after.entries.length, after)

/-! ### What the operations keep and drop -/

/-- Both indices of the window agree with its frames. -/
def Valid : Prop := w.table.Valid RetransmitEntry.key

variable {w : RetransmitWindow} {source : SourceIdentity} {sequence frameBytes nowNs : Nat}
  {e r : RetransmitEntry} {frame : DataFrame}

theorem create_valid {options} (h : create options = .ok w) : w.Valid ∧ w.entries = [] := by
  unfold create at h
  split at h
  · cases h
  · cases h
    exact ⟨valid_empty, rfl⟩

theorem beginSession_table (w : RetransmitWindow) (localEpoch remoteEpoch nowNs : Nat) :
    (w.beginSession localEpoch remoteEpoch nowNs).table = w.table := by
  unfold beginSession
  split <;> rfl

theorem add_cases (w : RetransmitWindow) (source : SourceIdentity) (sequence : Nat)
    (frame : DataFrame) (frameBytes nowNs : Nat) :
    ((w.add source sequence frame frameBytes nowNs).1.ok = false ∧
      (w.add source sequence frame frameBytes nowNs).2 = w) ∨
    (w.table.index (source, sequence) = none ∧ sequence ≠ 0 ∧
      w.add source sequence frame frameBytes nowNs = (.success, { w with
        table := w.table.push RetransmitEntry.key ⟨source, sequence, nowNs, frame, frameBytes⟩
        bytes := w.bytes + frameBytes })) := by
  unfold add
  repeat' split
  all_goals first | exact .inl ⟨rfl, rfl⟩ | skip
  rename_i _ hseq _ _ hidx _ _
  exact .inr ⟨by simpa using hidx, hseq, rfl⟩

theorem Valid.add (hw : w.Valid) (source : SourceIdentity) (sequence : Nat) (frame : DataFrame)
    (frameBytes nowNs : Nat) : (w.add source sequence frame frameBytes nowNs).2.Valid := by
  rcases add_cases w source sequence frame frameBytes nowNs with ⟨-, h⟩ | ⟨hidx, -, h⟩
  · rw [h]
    exact hw
  · rw [h]
    exact SwapTable.Valid.push hw hidx

theorem mem_add (he : e ∈ (w.add source sequence frame frameBytes nowNs).2.entries) :
    e ∈ w.entries ∨ (e = ⟨source, sequence, nowNs, frame, frameBytes⟩ ∧
      (w.add source sequence frame frameBytes nowNs).1.ok = true) := by
  rcases add_cases w source sequence frame frameBytes nowNs with ⟨-, h⟩ | ⟨-, -, h⟩
  · rw [h] at he
    exact .inl he
  rw [h] at he ⊢
  simp only [entries, push, mem_append, mem_singleton] at he
  exact he.imp id fun he => ⟨he, rfl⟩

theorem add_ne_zero
    (h : (w.add source sequence frame frameBytes nowNs).1.ok = true) : sequence ≠ 0 := by
  rcases add_cases w source sequence frame frameBytes nowNs with ⟨hbad, -⟩ | ⟨-, hn, -⟩
  · rw [h] at hbad
    cases hbad
  · exact hn

theorem Valid.find_eq_none_iff (hw : w.Valid) :
    w.find source sequence = none ↔ ∀ e ∈ w.entries, e.key ≠ (source, sequence) :=
  SwapTable.Valid.find_eq_none_iff hw

theorem Valid.removeAt (hw : w.Valid) (i : Nat) : (w.removeAt i).Valid := by
  unfold RetransmitWindow.removeAt
  split
  · exact hw
  · rename_i e he
    exact SwapTable.Valid.removeAt hw he

theorem Valid.mem_removeAt (hw : w.Valid) {i}
    (hi : w.entries[i]? = some r) : e ∈ (w.removeAt i).entries ↔ e ∈ w.entries ∧ e.key ≠ r.key := by
  have hi' : w.table.entries[i]? = some r := hi
  have := SwapTable.Valid.mem_removeAt hw hi' (a := e)
  simp only [RetransmitWindow.removeAt, hi', entries]
  exact this

theorem length_removeAt {i} (hi : w.entries[i]? = some r) :
    (w.removeAt i).entries.length = w.entries.length - 1 := by
  have hi' : w.table.entries[i]? = some r := hi
  simp only [removeAt, hi', entries]
  exact SwapTable.length_removeAt hi'

theorem getElem?_of_removeAt {i j} (hi : w.entries[i]? = some r) (hj : j < i)
    (h : (w.removeAt i).entries[j]? = some e) : w.entries[j]? = some e := by
  have hi' : w.table.entries[i]? = some r := hi
  obtain ⟨hlt, moved, hl⟩ := exists_last hi'
  simp only [removeAt, hi', entries] at h
  rwa [getElem?_removeAt hi' hl, if_pos (by omega), if_neg (by omega)] at h

theorem Valid.key_inj (hw : w.Valid) (he : e ∈ w.entries) (hr : r ∈ w.entries)
    (hk : e.key = r.key) : e = r :=
  inj_on_of_nodup_map hw.indexed.nodup he hr hk

section

variable {P : RetransmitWindow → Prop} (hP : ∀ w i, P w → P (w.removeAt i))
include hP

/-- What every removal keeps, the cumulative part of an ACK keeps. -/
theorem removeThrough_of_removeAt (source : SourceIdentity) (highest fuel : Nat) (hw : P w) :
    P (removeThrough source highest fuel w) := by
  induction fuel generalizing w with
  | zero => exact hw
  | succ fuel ih =>
    rw [removeThrough]
    split
    · exact hw
    split
    · exact hw
    · exact ih (hP _ _ hw)

variable (ack : AckPayload)

theorem removeObserved_of_removeAt (hw : P w) : P (w.removeObserved ack) := by
  unfold removeObserved
  split
  · split
    · exact hw
    · exact hP _ _ hw
  · exact hw

theorem applyAck_of_removeAt (hw : P w) : P (w.applyAck ack).2 := by
  unfold applyAck
  split
  · exact hw
  split
  · exact hw
  refine removeObserved_of_removeAt hP ack ?_
  split
  · exact removeThrough_of_removeAt hP _ _ _ hw
  · exact hw

theorem purgeFrom_of_removeAt (nowNs fuel i : Nat) (hw : P w) : P (purgeFrom nowNs fuel i w) := by
  induction fuel generalizing i w with
  | zero => exact hw
  | succ fuel ih =>
    rw [purgeFrom]
    split
    · exact hw
    split
    · exact ih i (hP _ _ hw)
    · exact ih (i + 1) hw

end

section

variable (hw : w.Valid)
include hw

/-- The record an index of the group points at. -/
theorem Valid.entry_of_group {index} (h : (sequence, index) ∈ w.table.group source) :
    ∃ e, w.entries[index]? = some e ∧ e.key = (source, sequence) := by
  have hidx := (hw.mem_group _ _ _).mp h
  exact Option.map_eq_some_iff.mp ((hw.indexed _ _).mp hidx)

theorem Valid.group_of_entry (he : e ∈ w.entries) :
    ∃ index, (e.sequence, index) ∈ w.table.group e.source := by
  obtain ⟨i, hi⟩ := mem_iff_getElem?.mp he
  refine ⟨i, (hw.mem_group _ _ _).mpr ((hw.indexed _ _).mpr ?_)⟩
  have hi' : w.table.entries[i]? = some e := hi
  rw [hi']
  rfl

theorem Valid.mem_removeThrough {highest fuel} (hfuel : w.entries.length ≤ fuel) :
    e ∈ (RetransmitWindow.removeThrough source highest fuel w).entries ↔
      e ∈ w.entries ∧ ¬ (e.source = source ∧ e.sequence ≤ highest) := by
  induction fuel generalizing w with
  | zero =>
    have hnil : w.entries = [] := eq_nil_of_length_eq_zero (by omega)
    simp [RetransmitWindow.removeThrough, hnil]
  | succ fuel ih =>
    rw [RetransmitWindow.removeThrough]
    split
    · rename_i hnone
      refine ⟨fun he => ⟨he, ?_⟩, And.left⟩
      rintro ⟨rfl, -⟩
      obtain ⟨index, hmem⟩ := hw.group_of_entry he
      rw [head?_eq_none_iff] at hnone
      rw [hnone] at hmem
      cases hmem
    rename_i sequence index hhead
    split
    · rename_i hgt
      refine ⟨fun he => ⟨he, ?_⟩, And.left⟩
      rintro ⟨rfl, hle⟩
      obtain ⟨i, hmem⟩ := hw.group_of_entry he
      have := (hw.sorted e.source).head_le hhead hmem
      simp only at this
      omega
    obtain ⟨r, hr, hkey⟩ := hw.entry_of_group (mem_of_mem_head? hhead)
    have hpos : w.entries.length ≠ 0 := by
      intro h0
      rw [eq_nil_of_length_eq_zero h0] at hr
      cases hr
    rw [ih (hw.removeAt index) (by rw [length_removeAt hr]; omega), hw.mem_removeAt hr, hkey]
    constructor
    · rintro ⟨⟨he, -⟩, hno⟩
      exact ⟨he, hno⟩
    rintro ⟨he, hno⟩
    refine ⟨⟨he, ?_⟩, hno⟩
    intro hk
    rw [RetransmitEntry.key, Prod.mk.injEq] at hk
    exact hno ⟨hk.1, by omega⟩

theorem Valid.mem_removeObserved {ack} : e ∈ (w.removeObserved ack).entries ↔ e ∈ w.entries ∧
      ¬ (ack.disposition = .accepted ∧ ack.highest < ack.observedSequence ∧
        e.source = ack.source ∧ e.sequence = ack.observedSequence) := by
  unfold removeObserved
  split
  · rename_i hsel
    split
    · rename_i hnone
      refine ⟨fun he => ⟨he, ?_⟩, And.left⟩
      rintro ⟨-, -, hs, hn⟩
      exact hw.indexed.index_eq_none_iff.mp hnone e he (by rw [RetransmitEntry.key, hs, hn])
    · rename_i index hidx
      obtain ⟨r, hr, hkey⟩ := Option.map_eq_some_iff.mp ((hw.indexed _ _).mp hidx)
      rw [hw.mem_removeAt hr, hkey]
      simp only [RetransmitEntry.key, ne_eq, Prod.mk.injEq]
      tauto
  · rename_i hsel
    refine ⟨fun he => ⟨he, ?_⟩, And.left⟩
    rintro ⟨ha, hlt, -⟩
    exact hsel ⟨ha, hlt⟩

end

theorem covers_iff {ack : AckPayload} {n} : ack.covers source n = true ↔ source = ack.source ∧
    ((ack.highestContiguousSequence.isSome = true ∧ n ≤ ack.highest) ∨
      (ack.disposition = .accepted ∧ ack.highest < ack.observedSequence ∧
        n = ack.observedSequence)) := by
  simp only [AckPayload.covers, Bool.and_eq_true, Bool.or_eq_true, beq_iff_eq, decide_eq_true_eq]
  constructor
  · rintro ⟨rfl, h⟩
    exact ⟨rfl, by tauto⟩
  · rintro ⟨rfl, h⟩
    exact ⟨rfl, by tauto⟩

/-- An ACK that is applied drops exactly the frames it covers; one that is refused
drops nothing. -/
theorem Valid.mem_applyAck (hw : w.Valid) {ack : AckPayload} :
    e ∈ (w.applyAck ack).2.entries ↔ e ∈ w.entries ∧
      ((w.applyAck ack).1.isOk = true → ack.covers e.source e.sequence = false) := by
  unfold RetransmitWindow.applyAck
  split
  · simp [Except.isOk, Except.toBool]
  split
  · simp [Except.isOk, Except.toBool]
  have htrim : (if ack.highestContiguousSequence.isSome then
      RetransmitWindow.removeThrough ack.source ack.highest w.entries.length w
      else w).Valid := by
    split
    · exact removeThrough_of_removeAt (fun _ i h => h.removeAt i) _ _ _ hw
    · exact hw
  rw [htrim.mem_removeObserved, Bool.eq_false_iff, Ne, covers_iff]
  split
  · rename_i hsome
    rw [hw.mem_removeThrough le_rfl]
    simp only [hsome, true_and, Except.isOk, Except.toBool]
    tauto
  · rename_i hnone
    simp only [hnone, Bool.false_eq_true, false_and, false_or, Except.isOk, Except.toBool]
    tauto

theorem Valid.applyAck (hw : w.Valid) (ack : AckPayload) : (w.applyAck ack).2.Valid ∧
    (w.applyAck ack).2.entries ⊆ w.entries :=
  ⟨applyAck_of_removeAt (fun _ i h => h.removeAt i) ack hw,
    fun _ he => (hw.mem_applyAck.mp he).1⟩

theorem options_removeAt (w : RetransmitWindow) (i : Nat) : (w.removeAt i).options = w.options := by
  unfold removeAt
  split <;> rfl

/-- The frames in front of a position have all been looked at and kept. -/
def Fresh (w : RetransmitWindow) (nowNs i : Nat) : Prop :=
  ∀ j r, j < i → w.entries[j]? = some r →
    isExpired nowNs r.enqueuedNs w.options.maxAgeNs = false

theorem Fresh.all {i} (h : w.Fresh nowNs i) (hle : w.entries.length ≤ i) : e ∈ w.entries ↔
    e ∈ w.entries ∧ isExpired nowNs e.enqueuedNs w.options.maxAgeNs = false := by
  refine ⟨fun he => ⟨he, ?_⟩, And.left⟩
  obtain ⟨j, hlt, hj⟩ := getElem_of_mem he
  exact h j e (by omega) (hj ▸ getElem?_eq_getElem hlt)

/-- From the position on, exactly the expired frames go. -/
theorem Valid.mem_purgeFrom (hw : w.Valid) {fuel i} (hfuel : w.entries.length ≤ i + fuel)
    (hfresh : w.Fresh nowNs i) : e ∈ (purgeFrom nowNs fuel i w).entries ↔
      e ∈ w.entries ∧ isExpired nowNs e.enqueuedNs w.options.maxAgeNs = false := by
  -- a removal moves the last frame to the position, which is looked at again
  induction fuel generalizing i w with
  | zero => exact hfresh.all hfuel
  | succ fuel ih =>
    rw [purgeFrom]
    split
    · rename_i hnone
      exact hfresh.all (getElem?_eq_none_iff.mp hnone)
    rename_i r hr
    have hr : w.entries[i]? = some r := hr
    split
    · rename_i hexpired
      rw [ih (hw.removeAt i) (by rw [length_removeAt hr]; omega) fun j x hj hx => ?_,
        hw.mem_removeAt hr, options_removeAt]
      · constructor
        · rintro ⟨⟨he, -⟩, hage⟩
          exact ⟨he, hage⟩
        rintro ⟨he, hage⟩
        refine ⟨⟨he, fun hk => ?_⟩, hage⟩
        rw [hw.key_inj he (mem_of_getElem? hr) hk, hexpired] at hage
        cases hage
      · rw [options_removeAt]
        exact hfresh j x hj (getElem?_of_removeAt hr hj hx)
    · rename_i hage
      refine ih hw (by omega) fun j x hj hx => ?_
      rcases Nat.lt_succ_iff_lt_or_eq.mp hj with hj | rfl
      · exact hfresh j x hj hx
      · rw [hr] at hx
        cases hx
        exact Bool.eq_false_of_not_eq_true hage

/-- Exactly the expired frames are given up. -/
theorem Valid.mem_purgeExpired (hw : w.Valid) : e ∈ (w.purgeExpired nowNs).2.entries ↔
    e ∈ w.entries ∧ isExpired nowNs e.enqueuedNs w.options.maxAgeNs = false :=
  hw.mem_purgeFrom (by simp) (by rintro _ _ ⟨⟩)

theorem Valid.purgeExpired (hw : w.Valid) (nowNs : Nat) : (w.purgeExpired nowNs).2.Valid ∧
    (w.purgeExpired nowNs).2.entries ⊆ w.entries :=
  ⟨purgeFrom_of_removeAt (fun _ i h => h.removeAt i) nowNs _ 0 hw,
    fun _ he => (hw.mem_purgeExpired.mp he).1⟩

/-! ### Runs -/

/-- The calls that a window is used with. -/
inductive Call where
  | beginSession (localEpoch remoteEpoch nowNs : Nat)
  | add (source : SourceIdentity) (sequence : Nat) (frame : DataFrame) (frameBytes nowNs : Nat)
  | applyAck (ack : AckPayload)
  | purgeExpired (nowNs : Nat)

def step (w : RetransmitWindow) : Call → RetransmitWindow
  | .beginSession localEpoch remoteEpoch nowNs => w.beginSession localEpoch remoteEpoch nowNs
  | .add source sequence frame frameBytes nowNs => (w.add source sequence frame frameBytes nowNs).2
  | .applyAck ack => (w.applyAck ack).2
  | .purgeExpired nowNs => (w.purgeExpired nowNs).2

/-- Indices and byte count describe the frames, and the limits hold. -/
structure Exact (options : RetransmitWindowOptions) (w : RetransmitWindow) : Prop where
  valid : w.Valid
  configured : w.options = options
  bytes : w.bytes = (w.entries.map (·.frameBytes)).sum
  bytes_le : w.bytes ≤ options.maxBytes
  length_le : w.entries.length ≤ options.maxEntries
  numbered : ∀ e ∈ w.entries, e.sequence ≠ 0

variable {options : RetransmitWindowOptions} {start : RetransmitWindow}

theorem Exact.removeAt (h : Exact options w) (i : Nat) : Exact options (w.removeAt i) := by
  cases hi : w.table.entries[i]? with
  | none =>
    simp only [RetransmitWindow.removeAt, hi]
    exact h
  | some r =>
    have hperm : r :: (w.removeAt i).entries ~ w.entries := by
      simp only [RetransmitWindow.removeAt, hi]
      exact perm_removeAt hi
    have hbytes : (w.removeAt i).bytes = w.bytes - r.frameBytes := by
      simp only [RetransmitWindow.removeAt, hi]
    have hsum := (hperm.map (·.frameBytes)).sum_eq
    have hlength := hperm.length_eq
    rw [map_cons, sum_cons] at hsum
    rw [length_cons] at hlength
    have := h.bytes
    have := h.bytes_le
    have := h.length_le
    exact ⟨h.valid.removeAt i, options_removeAt w i ▸ h.configured, by omega, by omega, by omega,
      fun e he => h.numbered e (hperm.subset (mem_cons_of_mem r he))⟩

theorem add_room (h : (w.add source sequence frame frameBytes nowNs).1.ok = true) :
    w.entries.length < w.options.maxEntries ∧ w.bytes + frameBytes ≤ w.options.maxBytes := by
  unfold add at h
  repeat' split at h
  all_goals try cases h
  exact ⟨by unfold entries; omega, by omega⟩

theorem Exact.add (h : Exact options w) (source : SourceIdentity) (sequence : Nat)
    (frame : DataFrame) (frameBytes nowNs : Nat) :
    Exact options (w.add source sequence frame frameBytes nowNs).2 := by
  have hvalid := h.valid.add source sequence frame frameBytes nowNs
  rcases add_cases w source sequence frame frameBytes nowNs with ⟨-, heq⟩ | ⟨-, hne, heq⟩
  · rw [heq]
    exact h
  have hroom := add_room (by rw [heq]; rfl)
  rw [h.configured] at hroom
  rw [heq] at hvalid ⊢
  refine ⟨hvalid, h.configured, ?_, hroom.2, ?_, fun e he => ?_⟩
  · simp [entries, push, h.bytes]
  · simpa [entries, push] using hroom.1
  · rcases mem_append.mp he with he | he
    · exact h.numbered e he
    · rw [mem_singleton.mp he]
      exact hne

theorem Exact.step (h : Exact options w) (call : Call) : Exact options (w.step call) := by
  cases call with
  | beginSession localEpoch remoteEpoch nowNs =>
    change Exact options (w.beginSession localEpoch remoteEpoch nowNs)
    unfold beginSession
    split
    · exact h
    · exact { h with }
  | add source sequence frame frameBytes nowNs => exact h.add ..
  | applyAck ack => exact applyAck_of_removeAt (fun _ i h => h.removeAt i) ack h
  | purgeExpired nowNs => exact purgeFrom_of_removeAt (fun _ i h => h.removeAt i) nowNs _ 0 h

theorem exact_run (h : create options = .ok start) (calls : List Call) :
    Exact options (calls.foldl step start) := by
  have hstart : Exact options start := by
    unfold create at h
    split at h
    · cases h
    · cases h
      exact ⟨valid_empty, rfl, rfl, Nat.zero_le _, Nat.zero_le _, by simp [entries]⟩
  clear h
  induction calls generalizing start with
  | nil => exact hstart
  | cons call calls ih => exact ih (hstart.step call)

/-- After every run: both indices hold exactly the keys of the frames at their positions, the bytes
are those of the frames and within the limits, an ACK that is applied removes exactly the frames it
acknowledges, and a purge exactly the expired ones. -/
theorem retransmit_run (h : create options = .ok start) (calls : List Call) :
    let w := calls.foldl step start
    w.Valid ∧ w.bytes = (w.entries.map (·.frameBytes)).sum ∧ w.bytes ≤ options.maxBytes ∧
      w.entries.length ≤ options.maxEntries ∧
      (∀ ack e, e ∈ (w.applyAck ack).2.entries ↔ e ∈ w.entries ∧
        ((w.applyAck ack).1.isOk = true → ¬ (e.source = ack.source ∧
          ((∃ highest, ack.highestContiguousSequence = some highest ∧ e.sequence ≤ highest) ∨
            (ack.disposition = .accepted ∧ e.sequence = ack.observedSequence))))) ∧
      ∀ nowNs e, e ∈ (w.purgeExpired nowNs).2.entries ↔
        e ∈ w.entries ∧ isExpired nowNs e.enqueuedNs options.maxAgeNs = false := by
  have hw := exact_run h calls
  refine ⟨hw.valid, hw.bytes, hw.bytes_le, hw.length_le, fun ack e => ?_, fun nowNs e => ?_⟩
  · rw [hw.valid.mem_applyAck]
    refine and_congr_right fun he => imp_congr_right fun _ => ?_
    have hne := hw.numbered e he
    rw [Bool.eq_false_iff, Ne, covers_iff, AckPayload.highest]
    -- without a mark the ACK is compared with zero, which no frame has
    cases ack.highestContiguousSequence with
    | none => grind
    | some highest => grind
  · rw [← hw.configured]
    exact hw.valid.mem_purgeExpired

/-- Three frames are added, and the first is acknowledged. -/
def addedAndAcked : List Call :=
  .beginSession 1 1 0 :: [1, 2, 3].map (fun sequence => .add ⟨1, 1, 1⟩ sequence
    { header := { source := ⟨1, 1, 1⟩, sequenceNum := sequence } } (64 + sequence) 5) ++
    [.applyAck ⟨1, 1, ⟨1, 1, 1⟩, 1, some 1, .accepted⟩]

theorem retransmit_run_added :
    let w := addedAndAcked.foldl step { options := {} }
    w.entries.map (·.sequence) = [3, 2] ∧ w.bytes = 133 ∧
      w.bytes = (w.entries.map (·.frameBytes)).sum :=
  ⟨by decide +kernel, by decide +kernel,
    (retransmit_run (show create {} = .ok _ from rfl) addedAndAcked).2.1⟩

end RetransmitWindow

end Mino.Bridge
