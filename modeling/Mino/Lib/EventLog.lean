import Mathlib

/-! # Logs of events

A log grows at its end. An event may name a number; `times` counts the events that name
one, and the numbers named so far are in order as long as each new one is. -/

namespace EventLog

variable {ε : Type*} {log : List ε} {f : ε → Option Nat}

/-- How often the events of a log name a number. -/
def times (f : ε → Option Nat) (log : List ε) (p : Nat) : Nat :=
  log.countP fun event => f event == some p

theorem times_append (f : ε → Option Nat) (log : List ε) (e : ε) (p : Nat) :
    times f (log ++ [e]) p = times f log p + if f e = some p then 1 else 0 := by
  simp [times, List.countP_append, List.countP_cons]

theorem times_eq_zero {p} (h : ∀ e ∈ log, f e ≠ some p) : times f log p = 0 :=
  List.countP_eq_zero.mpr fun e he hp => h e he (by simpa using hp)

/-- One number, as the range that starts at it. -/
theorem ite_eq_ite_range {n p} : (if n = p then 1 else 0) = if n ≤ p ∧ p < n + 1 then 1 else 0 := by
  split <;> split <;> omega

theorem zero_eq_ite_range {n p : Nat} : 0 = if n ≤ p ∧ p < n then 1 else 0 :=
  (if_neg (by omega)).symm

/-- The numbers below a bound, and those up to the next one. -/
theorem ite_lt_add_ite_range {n n' p : Nat} (h : n ≤ n') :
    (if p < n then 1 else 0) + (if n ≤ p ∧ p < n' then 1 else 0) = if p < n' then 1 else 0 := by
  split <;> split <;> split <;> omega

theorem mem_or_eq {x e} (h : x ∈ log ++ [e]) : x ∈ log ∨ x = e := by
  simpa using h

/-- What the new event names stands behind everything named before. -/
theorem pairwise_append {e R} (h : (log.filterMap f).Pairwise R) (hnew : ∀ x ∈ log, ∀ a b,
    f x = some a → f e = some b → R a b) : ((log ++ [e]).filterMap f).Pairwise R := by
  rw [List.filterMap_append]
  refine List.pairwise_append.mpr ⟨h, ?_, fun a ha b hb => ?_⟩
  · cases hf : f e <;> simp [hf]
  obtain ⟨x, hx, hxa⟩ := List.mem_filterMap.mp ha
  obtain ⟨y, hy, hyb⟩ := List.mem_filterMap.mp hb
  obtain rfl := List.mem_singleton.mp hy
  exact hnew x hx a b hxa hyb

end EventLog
