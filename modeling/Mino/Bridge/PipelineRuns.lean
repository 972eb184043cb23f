import Mino.Bridge.SessionRefinement

/-! # Runs of one pipeline

A pipeline is made once and then driven by calls and by what arrives on its
connection. Every property of all its runs is an invariant of the steps. -/

namespace Mino.Bridge

open Bridge.Core Relation Pipe

variable {ν : Type} [SchemaNegotiator ν]

/-- What is done at one side. The script holds the outcomes of the calls to the outside
during the action. -/
inductive Action where
  | produce (frames : List EncodedOutboundFrame)
  | pump (budget : BridgePumpBudget) (script : Script)
  | rebind (rebinding : Pipe.Rebinding) (script : Script)

/-- What a pipeline is driven by. -/
inductive Input where
  | deliver (messages : List Message)
  | act (action : Action)

def EncodedOutboundFrame.offered (o : EncodedOutboundFrame) : Event :=
  .offered o.frame.header.source o.frame.header.sequenceNum o.reliability

namespace Endpoint

def perform (e : Endpoint ν) : Action → Endpoint ν
  | .produce frames => { e with
      egress := e.egress ++ frames, log := e.log ++ frames.map EncodedOutboundFrame.offered }
  | .pump budget script => (Pipe.pump budget { e with script }).2
  | .rebind rebinding script => (Pipe.rebindConnection rebinding { e with script }).2

def receive (e : Endpoint ν) (messages : List Message) : Endpoint ν :=
  { e with inbox := e.inbox ++ messages }

def take (e : Endpoint ν) : Input → Endpoint ν
  | .deliver messages => e.receive messages
  | .act action => e.perform action

end Endpoint

/-- A pipeline made over the given store, after the given inputs. -/
def runPipeline (c : Pipe.Construction ν) (store : Option DedupStore) (inputs : List Input) :
    Result (Endpoint ν) :=
  (Pipe.create c { store }).map fun e => inputs.foldl Endpoint.take e

/-- What was seen during the run; nothing if the pipeline could not be made. -/
def runLog (c : Pipe.Construction ν) (store : Option DedupStore) (inputs : List Input) :
    List Event :=
  match runPipeline c store inputs with
  | .ok e => e.log
  | .error _ => []

/-- A pipeline without a negotiator. -/
instance : SchemaNegotiator Empty where
  reset := id
  readyToPublishData n _ := n.elim
  handleDataFrame n _ _ := n.elim
  handleControlFrame n _ _ := n.elim
  bindLocalSchema n _ _ := n.elim
  confirmControlQueued n _ := n.elim
  bufferedFrames n := n.elim
  bufferedBytes n := n.elim

variable {I : Core → Prop} {e : Endpoint ν} {store : Option DedupStore}

namespace Core

/-- One change of the machine: a step of its own, a delivery or new frames to send. -/
inductive Change : Core → Core → Prop where
  | step {c c'} (h : Step c c') : Change c c'
  | deliver {c} (messages : List Message) : Change c { c with inbox := c.inbox ++ messages }
  | produce {c} (frames : List EncodedOutboundFrame) :
      Change c { c with
        egress := c.egress ++ frames
        log := c.log ++ frames.map EncodedOutboundFrame.offered }

instance : Keeps Change where
  sound h hs := by
    cases h with
    | step h => exact Keeps.sound h hs
    | deliver _ | produce _ => exact hs.congr hs.dedup rfl

theorem chain_invariant {R} [Keeps R]
    (hI : ∀ {c c'}, c.Sound → R c c' → I c → I c') {c c'} (h : ReflTransGen R c c')
    (hs : c.Sound) (hc : I c) : c'.Sound ∧ I c' := by
  induction h with
  | refl => exact ⟨hs, hc⟩
  | tail _ hstep ih => exact ⟨Keeps.sound hstep ih.1, hI ih.1 hstep ih.2⟩

end Core

omit [SchemaNegotiator ν] in
theorem Pipe.core_chain {R : Core → Core → Prop} {e e' : Endpoint ν}
    (h : ReflTransGen (Pipe.Micro R) e e') : ReflTransGen R e.core e'.core := by
  induction h with
  | refl => exact .refl
  | @tail e₁ e₂ _ hstep ih =>
    unfold Pipe.Micro at hstep
    generalize e₂.core = c₂ at hstep ⊢
    cases hstep with
    | refl => exact ih
    | single hs => exact ih.tail hs

namespace Endpoint

omit [SchemaNegotiator ν] in
theorem Good.change {e e' : Endpoint ν} (he : e.Good) (h : Change e.core e'.core)
    (hr : e'.pendingReliable = e.pendingReliable) : e'.Good ∧ ReflTransGen Change e.core e'.core :=
  ⟨⟨Keeps.sound h he.sound, hr ▸ he.reliable, hr ▸ he.coherent⟩, .single h⟩

omit [SchemaNegotiator ν] in
/-- A call, whatever the outside answers. -/
theorem Good.call {α : Type} {m : Pipe ν α} (hm : Pipe.Takes Step m) (he : e.Good) (script : Script) :
    (m { e with script }).2.Good ∧ ReflTransGen Step e.core (m { e with script }).2.core := by
  have hscript : ({ e with script } : Endpoint ν).Good := ⟨he.sound, he.reliable, he.coherent⟩
  obtain ⟨hgood, hchain⟩ := hm _ hscript
  have hcore := Pipe.core_chain hchain
  exact ⟨hgood, hcore⟩

theorem perform_spec (he : e.Good) (action : Action) :
    (e.perform action).Good ∧ ReflTransGen Change e.core (e.perform action).core := by
  have hmono : ∀ c c', Step c c' → Change c c' := fun _ _ => .step
  cases action with
  | produce frames => exact he.change (Change.produce (c := e.core) frames) rfl
  | pump budget script =>
    obtain ⟨hgood, hchain⟩ := he.call (pump_takes budget) script
    exact ⟨hgood, ReflTransGen.mono hmono _ _ hchain⟩
  | rebind rebinding script =>
    obtain ⟨hgood, hchain⟩ := he.call (rebindConnection_takes rebinding) script
    exact ⟨hgood, ReflTransGen.mono hmono _ _ hchain⟩

theorem take_spec (he : e.Good) (input : Input) :
    (e.take input).Good ∧ ReflTransGen Change e.core (e.take input).core := by
  cases input with
  | deliver messages => exact he.change (Change.deliver (c := e.core) messages) rfl
  | act action => exact perform_spec he action

end Endpoint

variable {c : Pipe.Construction ν}

/-- A property of a fresh pipeline that every change keeps holds in every run. -/
theorem runPipeline_invariant (hinit : ∀ windows, Pipe.Unused c.options windows →
      I (newEndpoint c windows { store }).core)
    (hchange : ∀ {c c'}, c.Sound → Change c c' → I c → I c') {inputs}
    (h : runPipeline c store inputs = .ok e) : I e.core := by
  rw [runPipeline] at h
  cases hcreate : create c { store } with
  | error status =>
    rw [hcreate] at h
    cases h
  | ok e₀ =>
    rw [hcreate] at h
    cases h
    obtain ⟨windows, hunused, hgood, hchain⟩ := create_spec hcreate
    have hstart := chain_invariant (fun hs h => hchange hs (.step h)) (core_chain hchain)
      (newEndpoint_good hunused _).sound (hinit windows hunused)
    have hI := hstart.2
    clear hcreate hchain hstart
    induction inputs generalizing e₀ with
    | nil => exact hI
    | cons input rest ih =>
      obtain ⟨hgood', hchain⟩ := Endpoint.take_spec hgood input
      exact ih _ hgood' (chain_invariant hchange hchain hgood.sound hI).2

theorem runLog_invariant
    {P : List Event → Prop} (hnil : P []) (hinit : ∀ windows, Pipe.Unused c.options windows →
      I (newEndpoint c windows { store }).core)
    (hchange : ∀ {c c'}, c.Sound → Change c c' → I c → I c') (hlog : ∀ c, I c → P c.log)
    (inputs : List Input) : P (runLog c store inputs) := by
  unfold runLog
  split
  · rename_i e h
    exact hlog e.core (runPipeline_invariant hinit hchange h)
  · exact hnil

end Mino.Bridge
