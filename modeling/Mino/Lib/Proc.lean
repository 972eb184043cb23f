import Mathlib

/-! # Commands with state and failure

A command reads and writes a state and ends with a value or an error. An error
does not undo anything: what was written before it stays written. `Does R m` says
that `m` changes the state by a chain of `R` steps, whatever it returns; with one
rule for each way to build commands a program is related to its steps once, and
every invariant of the steps is then an invariant of the program. -/

/-- A command with state `σ`, error `ε` and value `α`. -/
def Proc (σ ε α : Type) := σ → Except ε α × σ

namespace Proc

variable {σ ε α β : Type}

protected def pure (a : α) : Proc σ ε α := fun s => (.ok a, s)

protected def bind (m : Proc σ ε α) (f : α → Proc σ ε β) : Proc σ ε β := fun s =>
  match m s with
  | (.ok a, s') => f a s'
  | (.error e, s') => (.error e, s')

instance : Monad (Proc σ ε) where
  pure := Proc.pure
  bind := Proc.bind

def get : Proc σ ε σ := fun s => (.ok s, s)

def modify (f : σ → σ) : Proc σ ε Unit := fun s => (.ok (), f s)

def fail (e : ε) : Proc σ ε α := fun s => (.error e, s)

/-- Run a command and look at its outcome instead of passing an error on. -/
def attempt (m : Proc σ ε α) : Proc σ ε (Except ε α) := fun s => (.ok (m s).1, (m s).2)

def ofExcept : Except ε α → Proc σ ε α
  | .ok a => pure a
  | .error e => fail e

def onlyIf (c : Bool) (m : Proc σ ε Unit) : Proc σ ε Unit := if c then m else pure ()

variable (a : α)

@[simp] theorem pure_apply (s : σ) : (pure a : Proc σ ε α) s = (.ok a, s) := rfl

@[simp] theorem get_apply (s : σ) : (get : Proc σ ε σ) s = (.ok s, s) := rfl

@[simp] theorem modify_apply (f : σ → σ) (s : σ) :
    (modify f : Proc σ ε Unit) s = (.ok (), f s) := rfl

variable (e : ε)

@[simp] theorem fail_apply (s : σ) : (fail e : Proc σ ε α) s = (.error e, s) := rfl

@[simp] theorem attempt_apply (m : Proc σ ε α) (s : σ) : attempt m s = (.ok (m s).1, (m s).2) := rfl

theorem bind_apply (m : Proc σ ε α) (f : α → Proc σ ε β) (s : σ) : (m >>= f) s = match m s with
      | (.ok a, s') => f a s'
      | (.error e, s') => (.error e, s') := rfl

variable {m : Proc σ ε α} {f : α → Proc σ ε β} {s : σ}

theorem bind_ok {s' a} (h : m s = (.ok a, s')) : (m >>= f) s = f a s' := by
  rw [bind_apply, h]

theorem bind_error {s' e} (h : m s = (.error e, s')) : (m >>= f) s = (.error e, s') := by
  rw [bind_apply, h]

@[simp] theorem get_bind (f : σ → Proc σ ε β) (s : σ) : (get >>= f) s = f s s := rfl

@[simp] theorem modify_bind (g : σ → σ) (f : Unit → Proc σ ε β) (s : σ) :
    (modify g >>= f) s = f () (g s) := rfl

@[simp] theorem pure_bind (f : α → Proc σ ε β) (s : σ) :
    ((pure a : Proc σ ε α) >>= f) s = f a s := rfl

@[simp] theorem fail_bind (f : α → Proc σ ε β) (s : σ) :
    (fail e >>= f) s = (.error e, s) := rfl

/-- A sequence that returns passed through both of its parts. -/
theorem bind_eq_ok {b} (h : ((m >>= f) s).1 = .ok b) :
    ∃ a, (m s).1 = .ok a ∧ (f a (m s).2).1 = .ok b := by
  rw [bind_apply] at h
  cases hms : m s with
  | mk r s' =>
    rw [hms] at h
    cases r with
    | ok a => exact ⟨a, rfl, h⟩
    | error e => cases h

/-- A sequence that returns ends where its second part ends. -/
theorem bind_state {a} (h : (m s).1 = .ok a) : ((m >>= f) s).2 = (f a (m s).2).2 := by
  rw [bind_apply]
  cases hms : m s with
  | mk r s' =>
    rw [hms] at h
    cases h
    rfl

theorem bind_pure_state (m : Proc σ ε α) (b : β) (s : σ) :
    ((m >>= fun _ => pure b) s).2 = (m s).2 := by
  rw [bind_apply]
  cases hms : m s with
  | mk r s' => cases r <;> rfl

/-! ### Commands as chains of steps -/

variable {I : σ → Prop} {R : σ → σ → Prop}

/-- From the given state the command moves by a chain of steps and ends in a good state. -/
def DoesAt (I : σ → Prop) (R : σ → σ → Prop) (m : Proc σ ε α) (s : σ) : Prop :=
  I (m s).2 ∧ Relation.ReflTransGen R s (m s).2

/-- From every good state the command moves by a chain of steps to a good state. -/
def Does (I : σ → Prop) (R : σ → σ → Prop) (m : Proc σ ε α) : Prop := ∀ s, I s → DoesAt I R m s

theorem does_pure : Does I R (pure a : Proc σ ε α) := fun _ hs => ⟨hs, .refl⟩

theorem does_fail : Does I R (fail e : Proc σ ε α) := fun _ hs => ⟨hs, .refl⟩

theorem does_ofExcept (x : Except ε α) : Does I R (ofExcept x : Proc σ ε α) := by
  cases x with
  | ok a => exact does_pure a
  | error e => exact does_fail e

theorem does_attempt (h : Does I R m) : Does I R (attempt m) := h

/-- Sequencing, with what is known of the value and the state in between. -/
theorem DoesAt.bind (hm : DoesAt I R m s) (hf : ∀ a,
    (m s).1 = .ok a → I (m s).2 → DoesAt I R (f a) (m s).2) : DoesAt I R (m >>= f) s := by
  unfold DoesAt at hm hf ⊢
  rw [bind_apply]
  cases hms : m s with
  | mk r s' =>
    rw [hms] at hm hf
    cases r with
    | ok a =>
      obtain ⟨hi, hchain⟩ := hf a rfl hm.1
      exact ⟨hi, hm.2.trans hchain⟩
    | error e => exact hm

theorem does_bind (hm : Does I R m) (hf : ∀ a, Does I R (f a)) : Does I R (m >>= f) :=
  fun s hs => (hm s hs).bind fun a _ hs' => hf a _ hs'

/-- Reading the state: the rest may use what holds of the state it starts in. -/
theorem does_get_bind {f : σ → Proc σ ε β} (h : ∀ s, I s → DoesAt I R (f s) s) :
    Does I R (get >>= f) := h

theorem DoesAt.get_bind {f : σ → Proc σ ε β} (h : DoesAt I R (f s) s) :
    DoesAt I R (get >>= f) s := h

theorem DoesAt.ofExcept_bind {x} (hs : I s) (h : ∀ a, x = .ok a → DoesAt I R (f a) s) :
    DoesAt I R (ofExcept x >>= f) s := by
  cases x with
  | ok a => exact h a rfl
  | error e => exact ⟨hs, .refl⟩

theorem DoesAt.attempt_bind {f : Except ε α → Proc σ ε β} (hm : DoesAt I R m s) (h : ∀ r, (m s).1 =
    r → I (m s).2 → DoesAt I R (f r) (m s).2) : DoesAt I R (attempt m >>= f) s :=
  DoesAt.bind (m := attempt m) hm fun r hr hI => h r (Except.ok.inj hr) hI

theorem does_attempt_bind {f : Except ε α → Proc σ ε β} (hm : Does I R m) (hf : ∀ r, Does I R (f r)) :
    Does I R (attempt m >>= f) :=
  does_bind (does_attempt hm) hf

theorem does_ite {c} [Decidable c] {m'} (h : Does I R m) (h' : Does I R m') :
    Does I R (if c then m else m') := by
  split
  · exact h
  · exact h'

theorem does_onlyIf {c} {m : Proc σ ε Unit} (h : Does I R m) : Does I R (onlyIf c m) :=
  does_ite h (does_pure ())

/-- A command that takes only steps of one kind takes steps of a wider kind. -/
theorem DoesAt.mono {R'} (h : DoesAt I R m s) (hR : ∀ s s', R s s' → R' s s') :
    DoesAt I R' m s :=
  ⟨h.1, Relation.ReflTransGen.mono (fun a b => hR a b) _ _ h.2⟩

end Proc
