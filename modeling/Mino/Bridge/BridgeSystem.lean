import Mino.Bridge.ReceiverEffects

/-! # Two pipelines and what connects them

Each side is a pipeline that may be rebound or replaced by a new one at any time. A
connection carries the messages of each direction in order and may lose a rest of
what was sent: once it is cut, nothing that was not kept arrives any more. Connections
exist side by side, since the two sides move to a new one at different times. -/

namespace Mino.Bridge

open List Function Bridge.Core Relation

variable {ν : Type} [SchemaNegotiator ν]

/-- One direction of a connection. -/
structure Wire where
  messages : List Message := []
  isOpen : Bool := true

/-- What one side does: an action of its pipeline, or a new pipeline over the same ports
and the same store. -/
inductive Deed (ν : Type) where
  | perform (action : Action)
  | restart (construction : Pipe.Construction ν) (script : Script)

/-- A new pipeline finds nothing of the old connections; if it cannot be made the old one
stays. -/
def Endpoint.restart (e : Endpoint ν) (construction : Pipe.Construction ν) (script : Script) :
    Endpoint ν :=
  match Pipe.create construction
      { e.toOutside with inbox := [], script } with
  | .ok e' => e'
  | .error _ => e

def Endpoint.carryOut (e : Endpoint ν) : Deed ν → Endpoint ν
  | .perform action => e.perform action
  | .restart construction script => e.restart construction script

structure BridgeSystem (ν : Type) where
  a : Endpoint ν
  b : Endpoint ν
  toA : ConnectionId → Wire := fun _ => {}
  toB : ConnectionId → Wire := fun _ => {}

inductive Side where
  | a
  | b
  deriving DecidableEq, Repr

inductive Move (ν : Type) where
  | act (side : Side) (deed : Deed ν)
  /-- The next messages of its connection reach the side. -/
  | deliver (side : Side) (count : Nat)
  /-- The direction to the side is cut: of what is on its way this many still arrive. -/
  | cut (side : Side) (connection : ConnectionId) (count : Nat)

/-- What was handed to the driver goes onto the connections that are open. -/
def ship (wires : ConnectionId → Wire) (sent : List Sent) : ConnectionId → Wire := fun c =>
  if (wires c).isOpen then
    { wires c with
      messages := (wires c).messages ++ (sent.filter fun s => s.connection = c).map Sent.message }
  else wires c

def unload (wires : ConnectionId → Wire) (c : ConnectionId) (count : Nat) : ConnectionId → Wire :=
  Function.update wires c { wires c with messages := (wires c).messages.drop count }

def sever (wires : ConnectionId → Wire) (c : ConnectionId) (count : Nat) : ConnectionId → Wire :=
  Function.update wires c ⟨(wires c).messages.take count, false⟩

def Endpoint.drained (e : Endpoint ν) : Endpoint ν := { e with outbox := [] }

namespace BridgeSystem

def step (w : BridgeSystem ν) : Move ν → BridgeSystem ν
  | .act .a deed => { w with
      a := (w.a.carryOut deed).drained
      toB := ship w.toB (w.a.carryOut deed).outbox }
  | .act .b deed => { w with
      b := (w.b.carryOut deed).drained
      toA := ship w.toA (w.b.carryOut deed).outbox }
  | .deliver .a count => { w with
      a := w.a.receive ((w.toA w.a.connectionId).messages.take count)
      toA := unload w.toA w.a.connectionId count }
  | .deliver .b count => { w with
      b := w.b.receive ((w.toB w.b.connectionId).messages.take count)
      toB := unload w.toB w.b.connectionId count }
  | .cut .a connection count => { w with toA := sever w.toA connection count }
  | .cut .b connection count => { w with toB := sever w.toB connection count }

def run (w : BridgeSystem ν) (moves : List (Move ν)) : BridgeSystem ν := moves.foldl step w

/-- Two new pipelines. The receiving side `b` may have a store, still without marks. -/
def create (ca cb : Pipe.Construction ν) (storeA : Option DedupStore)
    (capacityB : Option Nat) : Result (BridgeSystem ν) := do
  let a ← Pipe.create ca { store := storeA }
  let b ← Pipe.create cb { store := capacityB.map .empty }
  pure
    { a := a.drained
      b := b.drained
      toA := ship (fun _ => {}) b.outbox
      toB := ship (fun _ => {}) a.outbox }

end BridgeSystem

/-- What was seen at both sides; nothing if the system could not be made. -/
def systemLogs (ca cb : Pipe.Construction ν) (storeA : Option DedupStore)
    (capacityB : Option Nat) (moves : List (Move ν)) : List Event × List Event :=
  match BridgeSystem.create ca cb storeA capacityB with
  | .ok w => ((w.run moves).a.log, (w.run moves).b.log)
  | .error _ => ([], [])

namespace Core

/-- One change of a side that acts. -/
inductive Turn : Core → Core → Prop where
  | step {c c'} (h : Step c c') : Turn c c'
  | produce {c} (frames : List EncodedOutboundFrame) :
      Turn c { c with
        egress := c.egress ++ frames
        log := c.log ++ frames.map EncodedOutboundFrame.offered }
  | boot {c} {options : BridgePipelineOptions} {windows : DedupWindow × RetransmitWindow}
      (h : Pipe.Unused options windows) (connectionId : ConnectionId) (negotiating : Bool) :
      Turn c { c with
        connectionId, negotiating
        dedup := windows.1
        retransmit := windows.2
        controlQueue := []
        pendingAcks := {}
        pendingInbound := []
        stagedReady := []
        inbox := []
        log := c.log ++ [.created connectionId negotiating] }

instance : Keeps Turn where
  sound h hs := by
    cases h with
    | step h => exact Keeps.sound h hs
    | produce _ => exact hs.congr hs.dedup rfl
    | @boot options windows h =>
      have hempty : ∀ r, r ∉ windows.2.entries := by simp [h.retransmitEntries]
      exact ⟨h.dedup, h.retransmit, fun r hr => absurd hr (hempty r),
        fun r hr => absurd hr (hempty r)⟩

theorem Turn.log_grows {c c'} (h : Turn c c') : c.log <+: c'.log := by
  cases h with
  | step h => exact h.effect.log_grows
  | produce _ | boot => exact prefix_append _ _

theorem turns_log_grows {c c'} (h : ReflTransGen Turn c c') : c.log <+: c'.log := by
  induction h with
  | refl => exact prefix_refl _
  | tail _ hturn ih => exact ih.trans hturn.log_grows

end Core

namespace Endpoint

omit [SchemaNegotiator ν] in
theorem restart_spec {e : Endpoint ν} (he : e.Good) (construction : Pipe.Construction ν)
    (script : Script) : (e.restart construction script).Good ∧
      ReflTransGen Turn e.core (e.restart construction script).core := by
  unfold restart
  split
  · rename_i e' hcreate
    obtain ⟨windows, hunused, hgood, hchain⟩ := Pipe.create_spec hcreate
    refine ⟨hgood, .head ?_ (ReflTransGen.mono (fun _ _ => Turn.step) _ _ (Pipe.core_chain hchain))⟩
    exact .boot hunused construction.connectionId construction.negotiator.isSome
  · exact ⟨he, .refl⟩

theorem carryOut_spec {e : Endpoint ν} (he : e.Good) (deed : Deed ν) :
    (e.carryOut deed).Good ∧ ReflTransGen Turn e.core (e.carryOut deed).core := by
  have hmono : ∀ c c', Step c c' → Turn c c' := fun _ _ => .step
  cases deed with
  | perform action =>
    cases action with
    | produce frames =>
      exact ⟨⟨Keeps.sound (Turn.produce (c := e.core) frames) he.sound, he.reliable, he.coherent⟩,
        .single (Turn.produce (c := e.core) frames)⟩
    | pump budget script =>
      obtain ⟨hgood, hchain⟩ := he.call (Pipe.pump_takes budget) script
      exact ⟨hgood, ReflTransGen.mono hmono _ _ hchain⟩
    | rebind rebinding script =>
      obtain ⟨hgood, hchain⟩ := he.call (Pipe.rebindConnection_takes rebinding) script
      exact ⟨hgood, ReflTransGen.mono hmono _ _ hchain⟩
  | restart construction script => exact restart_spec he construction script

omit [SchemaNegotiator ν] in
theorem Good.drained {e : Endpoint ν} (he : e.Good) : e.drained.Good :=
  ⟨he.sound.congr he.sound.dedup rfl, he.reliable, he.coherent⟩

omit [SchemaNegotiator ν] in
theorem Good.receive {e : Endpoint ν} (he : e.Good) (messages : List Message) :
    (e.receive messages).Good :=
  ⟨he.sound.congr he.sound.dedup rfl, he.reliable, he.coherent⟩

end Endpoint

namespace BridgeSystem

structure Good (w : BridgeSystem ν) : Prop where
  a : w.a.Good
  b : w.b.Good

variable {w : BridgeSystem ν}

theorem Good.step (hw : w.Good) (move : Move ν) : (w.step move).Good := by
  rcases move with ⟨_ | _, deed⟩ | ⟨_ | _, count⟩ | ⟨_ | _, connection, count⟩
  · exact ⟨(Endpoint.carryOut_spec hw.a deed).1.drained, hw.b⟩
  · exact ⟨hw.a, (Endpoint.carryOut_spec hw.b deed).1.drained⟩
  · exact ⟨hw.a.receive _, hw.b⟩
  · exact ⟨hw.a, hw.b.receive _⟩
  · exact ⟨hw.a, hw.b⟩
  · exact ⟨hw.a, hw.b⟩

theorem run_invariant {I : BridgeSystem ν → Prop} (hstep : ∀ w move, w.Good → I w → I (w.step move))
    (hw : w.Good) (hI : I w) (moves : List (Move ν)) : I (w.run moves) := by
  induction moves generalizing w with
  | nil => exact hI
  | cons move rest ih => exact ih (hw.step move) (hstep w move hw hI)

omit [SchemaNegotiator ν] in
theorem create_spec {ca cb : Pipe.Construction ν} {storeA : Option DedupStore}
    {capacityB : Option Nat} (h : create ca cb storeA capacityB = .ok w) :
    ∃ a b, Pipe.create ca { store := storeA } = .ok a ∧
      Pipe.create cb { store := capacityB.map .empty } = .ok b ∧
      w = { a := a.drained, b := b.drained, toA := ship (fun _ => {}) b.outbox,
            toB := ship (fun _ => {}) a.outbox } := by
  unfold create at h
  cases ha : Pipe.create ca { store := storeA } with
  | error _ => simp [ha, bind, Except.bind] at h
  | ok a =>
    cases hb : Pipe.create cb { store := capacityB.map .empty } with
    | error _ => simp [ha, hb, bind, Except.bind] at h
    | ok b =>
      simp only [ha, hb, bind, Except.bind, pure, Except.pure, Except.ok.injEq] at h
      exact ⟨a, b, rfl, rfl, h.symm⟩

end BridgeSystem

section

variable (wires : ConnectionId → Wire)

end

variable {wires : ConnectionId → Wire} {c : ConnectionId} {m : Message}

theorem mem_ship {sent} (h : m ∈ (ship wires sent c).messages) :
    m ∈ (wires c).messages ∨ ∃ s ∈ sent, s.connection = c ∧ s.message = m := by
  unfold ship at h
  split at h
  · rcases mem_append.mp h with h | h
    · exact .inl h
    · obtain ⟨s, hs, rfl⟩ := mem_map.mp h
      obtain ⟨hs, hc⟩ := mem_filter.mp hs
      exact .inr ⟨s, hs, by simpa using hc, rfl⟩
  · exact .inl h

theorem mem_update {c' wire} (hsub : ∀ m, m ∈ wire.messages → m ∈ (wires c).messages)
    (h : m ∈ (update wires c wire c').messages) : m ∈ (wires c').messages := by
  by_cases hc : c' = c
  · subst hc
    rw [update_self] at h
    exact hsub m h
  · rwa [update_of_ne hc] at h

/-! ### A connection that is lost in the middle -/

def bridgeSource : SourceIdentity := ⟨1, 1, 1⟩

def reliableFrame (n : Nat) : EncodedOutboundFrame where
  frame := { header := { source := bridgeSource, sequenceNum := n } }
  reliability := .reliableOrdered

def senderSide : Pipe.Construction Empty where
  options := { localSessionEpoch := 1, remoteSessionEpoch := 2 }
  connectionId := 1

def receiverSide (distance : Nat) : Pipe.Construction Empty where
  options :=
    { localSessionEpoch := 2, remoteSessionEpoch := 1
      dedup := { maxSequenceDistance := distance } }
  connectionId := 1

/-- Everything on its way arrives, then the side makes one round. -/
def roundOf (side : Side) : List (Move Empty) :=
  [.deliver side 100, .act side (.perform (.pump {} {}))]

def rebindSide (side : Side) (localEpoch remoteEpoch : Nat) (lost : Bool) : Move Empty :=
  .act side (.perform (.rebind
    { connectionId := 2, localSessionEpoch := localEpoch, remoteSessionEpoch := remoteEpoch
      localDedupStateLost := lost } {}))

/-- The frames are sent, the connection is cut behind the first, and both sides move to a
new one. -/
def reconnectRun (frames : List Nat) (lost : Bool) : List (Move Empty) :=
  [.act .a (.perform (.produce (frames.map reliableFrame)))] ++
    roundOf .a ++ roundOf .b ++ roundOf .a ++ [.cut .b 1 1] ++ roundOf .b ++ roundOf .a ++
    [rebindSide .b 4 3 lost, rebindSide .a 3 4 false] ++
    roundOf .a ++ roundOf .b ++ roundOf .a ++ roundOf .b ++ roundOf .a

end Mino.Bridge
