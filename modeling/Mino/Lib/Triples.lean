import Mino.Lib.Proc

/-! # Pre- and postconditions of commands

A triple says what holds when the command returns and what holds when it fails. There is one rule
for each way to build commands. -/

namespace Proc

variable {σ ε α β : Type}

/-- From a state with `pre` the command ends with `post`, or with `err` if it fails. -/
def Triple (pre : σ → Prop) (m : Proc σ ε α) (post : α → σ → Prop) (err : ε → σ → Prop) : Prop :=
  ∀ s, pre s → match m s with
    | (.ok a, s') => post a s'
    | (.error e, s') => err e s'

variable {pre pre' : σ → Prop} {post post' : α → σ → Prop} {err err' : ε → σ → Prop}
  {m : Proc σ ε α}

theorem triple_pure {a} (h : ∀ s, pre s → post a s) :
    Triple pre (pure a : Proc σ ε α) post err := h

theorem triple_fail {e} (h : ∀ s, pre s → err e s) :
    Triple pre (fail e : Proc σ ε α) post err := h

theorem triple_modify {post f} (h : ∀ s, pre s → post () (f s)) :
    Triple pre (modify f : Proc σ ε Unit) post err := h

section

variable {post : β → σ → Prop} {f : α → Proc σ ε β}

theorem triple_bind (mid : α → σ → Prop) (hm : Triple pre m mid err)
    (hf : ∀ a, Triple (mid a) (f a) post err) : Triple pre (m >>= f) post err := by
  intro s hs
  rw [bind_apply]
  have hs' := hm s hs
  cases hms : m s with
  | mk r s₁ =>
    rw [hms] at hs'
    cases r with
    | ok a => exact hf a s₁ hs'
    | error e => exact hs'

theorem triple_get_bind {f}
    (h : ∀ s, pre s → Triple (· = s) (f s) post err) : Triple pre (get >>= f) post err :=
  fun s hs => h s hs s rfl

theorem triple_modify_bind {g f}
    (mid : σ → Prop) (hg : ∀ s, pre s → mid (g s)) (h : Triple mid (f ()) post err) :
    Triple pre (modify g >>= f) post err := fun s hs => h (g s) (hg s hs)

theorem triple_ofExcept_bind {x} (herr : ∀ e, x = .error e → ∀ s, pre s → err e s)
    (h : ∀ a, x = .ok a → Triple pre (f a) post err) : Triple pre (ofExcept x >>= f) post err := by
  cases x with
  | ok a => exact h a rfl
  | error e => exact herr e rfl

end

theorem triple_ite {c} [Decidable c] {m'} (h : c → Triple pre m post err)
    (h' : ¬ c → Triple pre m' post err) : Triple pre (if c then m else m') post err := by
  split
  · rename_i hc
    exact h hc
  · rename_i hc
    exact h' hc

theorem triple_onlyIf {post c m} (h : Triple pre m post err) (h' : ∀ s, pre s → post () s) :
    Triple pre (onlyIf c m) post err := triple_ite (fun _ => h) fun _ => triple_pure h'

section

variable (h : Triple pre m post err) (hpre : ∀ s, pre' s → pre s)
include h hpre

theorem Triple.mono
    (hpost : ∀ a s, post a s → post' a s)
    (herr : ∀ e s, err e s → err' e s) : Triple pre' m post' err' := by
  intro s hs
  have hs' := h s (hpre s hs)
  cases hms : m s with
  | mk r s₁ =>
    rw [hms] at hs'
    cases r with
    | ok a => exact hpost a s₁ hs'
    | error e => exact herr e s₁ hs'

theorem Triple.given :
    Triple pre' m post err := h.mono hpre (fun _ _ => id) fun _ _ => id

end

theorem Triple.imp (h : Triple pre m post err)
    (hpost : ∀ a s, post a s → post' a s) (herr : ∀ e s, err e s → err' e s) :
    Triple pre m post' err' := h.mono (fun _ => id) hpost herr

/-- A precondition that does not hold anywhere on the way. -/
theorem triple_of_state (h : ∀ s, pre s → Triple (· = s) m post err) :
    Triple pre m post err := fun s hs => h s hs s rfl

/-- Something that is known of the state at the end, however the command ends. -/
theorem Triple.and_state {s : σ} (h : Triple (· = s) m post err) {q : σ → Prop} (hq : q (m s).2) :
    Triple (· = s) m (fun a t => post a t ∧ q t) fun e t => err e t ∧ q t := by
  rintro s rfl
  have hs := h s rfl
  cases hms : m s with
  | mk r t =>
    rw [hms] at hs hq
    cases r with
    | ok a | error e => exact ⟨hs, hq⟩

end Proc
