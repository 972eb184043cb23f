import Mathlib

/-! Status codes and results of every Mino module. A `Result` is the C++
`Result<T>`: the value of a successful call, or the status it failed with. -/

namespace Mino

inductive StatusCode where
  | ok
  | invalidArgument
  | notFound
  | alreadyExists
  | resourceExhausted
  | wouldBlock
  | timeout
  | schemaMismatch
  | corruption
  | unavailable
  | permissionDenied
  | unsupported
  | degraded
  | internal
  deriving DecidableEq, Repr

structure Status where
  code : StatusCode
  message : String
  deriving DecidableEq, Repr

namespace Status

/-- `Status::Ok()`. -/
def success : Status := ⟨.ok, ""⟩

/-- `Status::Error(code, message)`. -/
def error (code : StatusCode) (message : String) : Status := ⟨code, message⟩

def ok (s : Status) : Bool := s.code == .ok

@[simp] theorem ok_success : success.ok = true := rfl

@[simp] theorem ok_error (code : StatusCode) (message : String) :
    (error code message).ok = (code == .ok) := rfl

end Status

abbrev Result (α : Type) := Except Status α

theorem Result.bind_eq_ok {α β : Type} {x} {f : α → Result β} {b}
    (h : x >>= f = .ok b) : ∃ a, x = .ok a ∧ f a = .ok b := by
  cases x with
  | error e => cases h
  | ok a => exact ⟨a, rfl, h⟩

variable {bad : Prop} {status : Status}

/-- A function that went on behind a check. -/
theorem Result.unless_eq_ok {α : Type} [Decidable bad] {x : Result α}
    {b} : (if bad then .error status else x) = .ok b ↔ ¬ bad ∧ x = .ok b := by
  by_cases h : bad <;> simp [h]

/-- A check that ends a function with an error. -/
def Result.rejectIf (bad : Prop) [Decidable bad] (status : Status) : Result Unit :=
  if bad then .error status else .ok ()

theorem Result.rejectIf_ok [Decidable bad] {u} (h : rejectIf bad status = .ok u) : ¬ bad := by
  intro hbad
  rw [rejectIf, if_pos hbad] at h
  cases h

section Checks

variable {α β : Type} {status : Status} {f : Unit → Result β} {b : β}

theorem Result.check_eq_ok [Decidable bad] :
    rejectIf bad status >>= f = .ok b ↔ ¬ bad ∧ f () = .ok b := by
  by_cases h : bad <;> simp [rejectIf, h, bind, Except.bind]

theorem Result.passed [Decidable bad] (h : rejectIf bad status >>= f = .ok b) :
    ¬ bad ∧ f () = .ok b :=
  check_eq_ok.mp h

/-- A function that went on after it compared two values. -/
theorem Result.agreed {x y : α} [Decidable (x ≠ y)]
    (h : rejectIf (x ≠ y) status >>= f = .ok b) : x = y ∧ f () = .ok b := by
  obtain ⟨heq, h⟩ := passed h
  exact ⟨not_not.mp heq, h⟩

end Checks

end Mino
