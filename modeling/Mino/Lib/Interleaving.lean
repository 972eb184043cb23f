import Mathlib

/-! # Runs of interleaved processes

A machine takes one atomic action at a time; the action names the process that takes it.
A run is a list of actions. `Throughout` says that a condition on the state and the next
action holds before every action of a run, so that an invariant may be kept by the
actions that meet the condition only. -/

namespace Interleaving

variable {σ α : Type*} (step : σ → α → Option σ)

def run : σ → List α → Option σ
  | s, [] => some s
  | s, a :: rest => (step s a).bind fun s' => run s' rest

def Throughout (G : σ → α → Prop) : σ → List α → Prop
  | _, [] => True
  | s, a :: rest => G s a ∧ ∀ s', step s a = some s' → Throughout G s' rest

variable {step} {s s' : σ} {I : σ → Prop} {G : σ → α → Prop} {actions : List α}

theorem run_cons {a rest} (h : run step s (a :: rest) = some s') :
    ∃ t, step s a = some t ∧ run step t rest = some s' :=
  Option.bind_eq_some_iff.mp h

theorem run_append (s : σ) (first rest : List α) :
    run step s (first ++ rest) = (run step s first).bind fun t => run step t rest := by
  induction first generalizing s with
  | nil => rfl
  | cons a first ih =>
    change ((step s a).bind fun t => run step t (first ++ rest)) =
      ((step s a).bind fun t => run step t first).bind fun t => run step t rest
    rw [Option.bind_assoc]
    exact congrArg _ (funext ih)

theorem run_append_of_eq {t first} (h : run step s first = some t) (rest : List α) :
    run step s (first ++ rest) = run step t rest := by
  rw [run_append, h]
  rfl

/-- What one action keeps under a condition, a run keeps that meets it throughout. -/
theorem invariant_of_step (hstep : ∀ s a s', I s → G s a → step s a = some s' → I s') (hs : I s)
    (hG : Throughout step G s actions) (hrun : run step s actions = some s') : I s' := by
  induction actions generalizing s with
  | nil =>
    cases hrun
    exact hs
  | cons a rest ih =>
    obtain ⟨t, ht, hrest⟩ := run_cons hrun
    exact ih (hstep s a t hs hG.1 ht) (hG.2 t ht) hrest

/-- A condition on the actions alone, next to one on the states. -/
theorem Throughout.and_forall {P : α → Prop} (hP : ∀ a ∈ actions, P a)
    (hG : Throughout step G s actions) : Throughout step (fun s a => P a ∧ G s a) s actions := by
  induction actions generalizing s with
  | nil => trivial
  | cons a rest ih =>
    exact ⟨⟨hP a (List.mem_cons_self ..), hG.1⟩, fun t ht =>
      ih (fun b hb => hP b (List.mem_cons_of_mem a hb)) (hG.2 t ht)⟩

theorem Throughout.append {t first rest} (hG : Throughout step G s (first ++ rest))
    (hrun : run step s first = some t) : Throughout step G s first ∧ Throughout step G t rest := by
  induction first generalizing s with
  | nil =>
    cases hrun
    exact ⟨trivial, hG⟩
  | cons a first ih =>
    obtain ⟨u, hu, hrun⟩ := run_cons hrun
    refine ⟨⟨hG.1, fun u' hu' => ?_⟩, (ih (hG.2 u hu) hrun).2⟩
    obtain rfl := Option.some.inj (hu.symm.trans hu')
    exact (ih (hG.2 u hu) hrun).1

theorem Throughout.of_append {t first rest} (hG : Throughout step G s first)
    (hrun : run step s first = some t) (hrest : Throughout step G t rest) :
    Throughout step G s (first ++ rest) := by
  induction first generalizing s with
  | nil =>
    cases hrun
    exact hrest
  | cons a first ih =>
    obtain ⟨u, hu, hrun⟩ := run_cons hrun
    refine ⟨hG.1, fun u' hu' => ?_⟩
    obtain rfl := Option.some.inj (hu.symm.trans hu')
    exact ih (hG.2 u hu) hrun

/-- A relation between the states of a run that every action extends. -/
theorem relation_of_step {R : σ → σ → Prop} (hstep : ∀ s a s', I s → G s a → step s a = some s' →
    I s' ∧ R s s') (hrefl : ∀ s, R s s) (htrans : ∀ s t u, R s t → R t u → R s u) (hs : I s)
    (hG : Throughout step G s actions) (hrun : run step s actions = some s') : R s s' := by
  induction actions generalizing s with
  | nil =>
    cases hrun
    exact hrefl _
  | cons a rest ih =>
    obtain ⟨t, ht, hrest⟩ := run_cons hrun
    obtain ⟨hI, hR⟩ := hstep s a t hs hG.1 ht
    exact htrans s t s' hR (ih hI (hG.2 t ht) hrest)

theorem throughout_true (s : σ) (actions : List α) :
    Throughout step (fun _ _ => True) s actions := by
  induction actions generalizing s with
  | nil => trivial
  | cons a rest ih => exact ⟨trivial, fun s' _ => ih s'⟩

theorem invariant_of_every_step (hstep : ∀ s a s', I s → step s a = some s' → I s') (hs : I s)
    (hrun : run step s actions = some s') : I s' :=
  invariant_of_step (fun s a s' hI _ => hstep s a s' hI) hs (throughout_true s actions) hrun

instance decidableThroughout (G : σ → α → Prop) [∀ s a, Decidable (G s a)] :
    ∀ (s : σ) (actions : List α), Decidable (Throughout step G s actions)
  | _, [] => .isTrue trivial
  | s, a :: rest =>
    match h : step s a with
    | none =>
      decidable_of_iff (G s a) ⟨fun hG => ⟨hG, fun s' hs' => by rw [h] at hs'; cases hs'⟩, And.left⟩
    | some t =>
      have := decidableThroughout G t rest
      decidable_of_iff (G s a ∧ Throughout step G t rest)
        ⟨fun ⟨hG, ht⟩ => ⟨hG, fun s' hs' => by rw [h] at hs'; cases hs'; exact ht⟩,
          fun ⟨hG, ht⟩ => ⟨hG, ht t h⟩⟩

/-- What is read behind an update of one process comes from the new value, or was there before. -/
theorem of_update {ι β γ : Type*} [DecidableEq ι] {g} {f : β → γ} {t u : ι} {x y}
    (h : f (Function.update g t x u) = y) : (u = t ∧ f x = y) ∨ (u ≠ t ∧ f (g u) = y) := by
  by_cases hut : u = t
  · subst hut
    rw [Function.update_self] at h
    exact .inl ⟨rfl, h⟩
  · rw [Function.update_of_ne hut] at h
    exact .inr ⟨hut, h⟩

/-- Processes that hold different things still do so behind an update of one of them, if what it
holds then is held by no other. -/
theorem alone_update {ι β γ : Type*} [DecidableEq ι] {g : ι → β} {f : β → Option γ} {t : ι} {x : β}
    (h : ∀ u v p, f (g u) = some p → f (g v) = some p → u = v)
    (hx : ∀ p, f x = some p → ∀ u, u ≠ t → f (g u) ≠ some p) (u v : ι) (p : γ)
    (hu : f (Function.update g t x u) = some p) (hv : f (Function.update g t x v) = some p) :
    u = v := by
  rcases of_update hu with ⟨hut, hu⟩ | ⟨hut, hu⟩ <;> rcases of_update hv with ⟨hvt, hv⟩ | ⟨hvt, hv⟩
  · exact hut.trans hvt.symm
  · exact absurd hv (hx p hu v hvt)
  · exact absurd hu (hx p hv u hut)
  · exact h u v p hu hv

end Interleaving
