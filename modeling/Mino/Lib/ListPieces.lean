import Mathlib

/-! # Fronts of lists

The first bytes of pieces that stand one behind the other are some whole pieces and a part of the
next one; a search in rising order comes to what no earlier element stops it from. -/

namespace List

variable {α : Type}

/-- How many of the pieces lie in the first `k` elements of their concatenation. -/
def wholePieces : Nat → List (List α) → Nat
  | _, [] => 0
  | k, piece :: rest => if piece.length ≤ k then wholePieces (k - piece.length) rest + 1 else 0

variable (k : Nat)

variable (pieces : List (List α))

theorem wholePieces_le_length :
    wholePieces k pieces ≤ pieces.length := by
  induction pieces generalizing k with
  | nil => exact Nat.le_refl _
  | cons piece rest ih =>
    rw [wholePieces]
    split
    · exact Nat.succ_le_succ (ih _)
    · exact Nat.zero_le _

theorem length_take_wholePieces :
    (pieces.take (wholePieces k pieces)).flatten.length ≤ k := by
  induction pieces generalizing k with
  | nil => exact Nat.zero_le _
  | cons piece rest ih =>
    rw [wholePieces]
    split
    · rename_i hle
      have := ih (k - piece.length)
      rw [take_succ_cons, flatten_cons, length_append]
      omega
    · exact Nat.zero_le _

/-- No more of the pieces fit. -/
theorem le_wholePieces {k m} {pieces : List (List α)} (hm : m ≤ pieces.length)
    (hfit : (pieces.take m).flatten.length ≤ k) : m ≤ wholePieces k pieces := by
  induction pieces generalizing k m with
  | nil => exact hm
  | cons piece rest ih =>
    cases m with
    | zero => exact Nat.zero_le _
    | succ m =>
      rw [take_succ_cons, flatten_cons, length_append] at hfit
      rw [wholePieces, if_pos (by omega)]
      exact Nat.succ_le_succ (ih (Nat.le_of_succ_le_succ hm) (by omega))

/-- What follows the whole pieces is a part of the next one that leaves something of it out. -/
theorem take_flatten_eq :
    ∃ tail, pieces.flatten.take k = (pieces.take (wholePieces k pieces)).flatten ++ tail ∧
      (tail = [] ∨ ∃ piece ∈ pieces, ∃ rest, rest ≠ [] ∧ piece = tail ++ rest) := by
  induction pieces generalizing k with
  | nil => exact ⟨[], by simp, .inl rfl⟩
  | cons piece rest ih =>
    rw [wholePieces, flatten_cons]
    split
    · rename_i hle
      obtain ⟨tail, htake, htail⟩ := ih (k - piece.length)
      refine ⟨tail, ?_, htail.imp_right ?_⟩
      · rw [take_append, take_of_length_le hle, htake, take_succ_cons, flatten_cons, append_assoc]
      · rintro ⟨next, hnext, part⟩
        exact ⟨next, mem_cons_of_mem _ hnext, part⟩
    · rename_i hlt
      refine ⟨piece.take k, ?_, .inr ⟨piece, mem_cons_self .., piece.drop k, ?_, ?_⟩⟩
      · rw [take_append_of_le_length (by omega), take_zero, flatten_nil, nil_append]
      · rw [Ne, drop_eq_nil_iff]
        exact hlt
      · exact (take_append_drop k piece).symm

/-- What a search in rising order reaches: nothing up to it stops the search. -/
theorem Pairwise.mem_takeWhile {xs : List Nat} {p : Nat → Bool} (hsorted : xs.Pairwise (· < ·))
    {i : Nat} : i ∈ xs.takeWhile p ↔ i ∈ xs ∧ ∀ j ∈ xs, j ≤ i → p j = true := by
  induction xs with
  | nil => simp
  | cons x rest ih =>
    obtain ⟨hle, hrest⟩ := pairwise_cons.mp hsorted
    cases hp : p x with
    | false =>
      rw [takeWhile_cons_of_neg (by simp [hp])]
      refine iff_of_false not_mem_nil fun h => ?_
      have hxi : x ≤ i := by
        rcases mem_cons.mp h.1 with rfl | hmem
        · exact le_rfl
        · exact (hle i hmem).le
      rw [h.2 x mem_cons_self hxi] at hp
      cases hp
    | true =>
      rw [takeWhile_cons_of_pos hp, mem_cons, ih hrest, forall_mem_cons, mem_cons]
      constructor
      · rintro (rfl | ⟨hmem, hall⟩)
        · exact ⟨.inl rfl, fun _ => hp, fun j hj hji => absurd (hle j hj) (not_lt.mpr hji)⟩
        · exact ⟨.inr hmem, fun _ => hp, hall⟩
      · rintro ⟨heq | hmem, -, hall⟩
        · exact .inl heq
        · exact .inr ⟨hmem, hall⟩

end List
