import Mathlib

/-! # Parsing a stream that arrives in pieces

A reader takes one item at a time off the front of a stream. If more input changes neither
an item it has found nor an error, a stream can be cut anywhere: parsing the pieces in
turn, each behind what the piece before left over, parses the whole. -/

namespace Mino

/-- A reader of items `ο` off a stream of `α`. `none` asks for more input. -/
structure ItemReader (α ε ο : Type) where
  next : List α → Except ε (Option (ο × List α))
  item_length : ∀ {a v rest}, next a = .ok (some (v, rest)) → rest.length < a.length
  item_append : ∀ {a v rest}, next a = .ok (some (v, rest)) → ∀ b,
    next (a ++ b) = .ok (some (v, rest ++ b))
  error_append : ∀ {a e}, next a = .error e → ∀ b, next (a ++ b) = .error e

namespace ItemReader

variable {α ε ο : Type} (r : ItemReader α ε ο)

/-- The items of a stream, and what is left behind them or the error that ends it. -/
def parse (input : List α) : List ο × Except ε (List α) :=
  match _h : r.next input with
  | .error e => ([], .error e)
  | .ok none => ([], .ok input)
  | .ok (some (v, rest)) => (v :: (parse rest).1, (parse rest).2)
  termination_by input.length
  decreasing_by all_goals exact r.item_length _h

variable {r} {a b rest : List α} {v : ο} {e : ε}

theorem parse_error (h : r.next a = .error e) : r.parse a = ([], .error e) := by
  rw [parse]
  split <;> simp_all

theorem parse_none (h : r.next a = .ok none) : r.parse a = ([], .ok a) := by
  rw [parse]
  split <;> simp_all

theorem parse_item (h : r.next a = .ok (some (v, rest))) :
    r.parse a = (v :: (r.parse rest).1, (r.parse rest).2) := by
  rw [parse]
  split <;> simp_all

/-- Input behind a stream that ends in something left over. -/
theorem parse_append_ok (h : (r.parse a).2 = .ok rest) (b : List α) :
    r.parse (a ++ b) = ((r.parse a).1 ++ (r.parse (rest ++ b)).1, (r.parse (rest ++ b)).2) := by
  induction hn : a.length using Nat.strong_induction_on generalizing a with
  | _ n ih =>
    cases hnext : r.next a with
    | error e =>
      rw [parse_error hnext] at h
      cases h
    | ok found =>
      cases found with
      | none =>
        rw [parse_none hnext] at h ⊢
        cases h
        rfl
      | some item =>
        obtain ⟨v, tail⟩ := item
        rw [parse_item hnext] at h ⊢
        rw [parse_item (r.item_append hnext b), ih _ (hn ▸ r.item_length hnext) h rfl]
        rfl

/-- An error is final. -/
theorem parse_append_error (h : (r.parse a).2 = .error e) (b : List α) :
    r.parse (a ++ b) = r.parse a := by
  induction hn : a.length using Nat.strong_induction_on generalizing a with
  | _ n ih =>
    cases hnext : r.next a with
    | error e' => rw [parse_error hnext, parse_error (r.error_append hnext b)]
    | ok found =>
      cases found with
      | none =>
        rw [parse_none hnext] at h
        cases h
      | some item =>
        obtain ⟨v, tail⟩ := item
        rw [parse_item hnext] at h
        rw [parse_item hnext, parse_item (r.item_append hnext b),
          ih _ (hn ▸ r.item_length hnext) h rfl]

end ItemReader

end Mino
