import Mathlib

/-! # Traces

A trace is a list of events, oldest first. Rules about traces speak of an event and
of what came before it. -/

namespace Trace

open List

variable {α : Type*}

/-- Every event of the trace is allowed after what came before it. -/
def Always (P : List α → α → Prop) (l : List α) : Prop :=
  ∀ before x after, l = before ++ x :: after → P before x

variable {P : List α → α → Prop}

theorem always_nil : Always P [] := by
  intro before x after h
  simp at h

variable {l l' : List α}

theorem always_append :
    Always P (l ++ l') ↔ Always P l ∧ Always (fun before => P (l ++ before)) l' := by
  constructor
  · intro h
    refine ⟨fun before x after heq => ?_, fun before x after heq => ?_⟩
    · exact h before x (after ++ l') (by simp [heq])
    · exact h (l ++ before) x after (by simp [heq])
  rintro ⟨hl, hl'⟩ before x after heq
  rcases append_eq_append_iff.mp heq with ⟨m, hb, hm⟩ | ⟨m, ha, hm⟩
  · rw [hb]
    exact hl' m x after hm
  cases m with
  | nil =>
    rw [append_nil] at ha
    rw [ha] at hl'
    simpa using hl' [] x after (by simpa using hm.symm)
  | cons y m =>
    obtain ⟨rfl, -⟩ := List.cons.inj hm
    exact hl before x m ha

theorem always_cons {x} :
    Always P (x :: l) ↔ P [] x ∧ Always (fun before => P (x :: before)) l := by
  constructor
  · intro h
    exact ⟨h [] x l rfl, fun before y after heq => h (x :: before) y after (by simp [heq])⟩
  rintro ⟨hx, hl⟩ before y after heq
  cases before with
  | nil =>
    obtain ⟨rfl, -⟩ := List.cons.inj heq
    exact hx
  | cons z before =>
    obtain ⟨rfl, hrest⟩ := List.cons.inj heq
    exact hl before y after hrest

instance decidableAlways : ∀ (P : List α → α → Prop) [∀ before x, Decidable (P before x)]
    (l : List α), Decidable (Always P l)
  | _, _, [] => .isTrue always_nil
  | P, _, x :: l =>
    have := decidableAlways (fun before => P (x :: before)) l
    decidable_of_iff (P [] x ∧ Always (fun before => P (x :: before)) l) always_cons.symm

/-- Events about which the rule says nothing. -/
theorem always_of_forall (h : ∀ x ∈ l, ∀ before, P before x) : Always P l := by
  intro before x after heq
  exact h x (by simp [heq]) before

/-- Events that leave a running value alone. -/
theorem foldl_eq_of_forall {β : Type*} {f} (h : ∀ x ∈ l, ∀ b, f b x = b) (b : β) :
    l.foldl f b = b := by
  induction l with
  | nil => rfl
  | cons x l ih =>
    rw [foldl_cons, h x mem_cons_self]
    exact ih fun y hy => h y (mem_cons_of_mem _ hy)

end Trace
