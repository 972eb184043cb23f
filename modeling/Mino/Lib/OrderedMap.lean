import Mathlib

/-! # Ordered maps as association lists

An ordered map is the list of its bindings in key order. The operations are
those of a tree map: `emplace` keeps an existing binding, `assign` writes
through to one, `erase` drops one. -/

namespace OrderedMap

open List

variable {κ ι : Type*}

section Operations

variable [LT κ] [DecidableLT κ] [DecidableEq κ]

/-- Insert a binding at its place; a key that is already bound stays as it is. -/
def emplace (k : κ) (v : ι) : List (κ × ι) → List (κ × ι)
  | [] => [(k, v)]
  | (k', v') :: rest =>
    if k < k' then (k, v) :: (k', v') :: rest
    else if k = k' then (k', v') :: rest
    else (k', v') :: emplace k v rest

def find (m : List (κ × ι)) (k : κ) : Option ι := (m.find? fun p => p.1 = k).map Prod.snd

def erase (m : List (κ × ι)) (k : κ) : List (κ × ι) := m.filter fun p => p.1 ≠ k

def assign (m : List (κ × ι)) (k : κ) (v : ι) : List (κ × ι) :=
  m.map fun p => if p.1 = k then (k, v) else p

end Operations

variable [LinearOrder κ]

def Sorted (m : List (κ × ι)) : Prop := m.Pairwise fun a b => a.1 < b.1

theorem sorted_nil : Sorted ([] : List (κ × ι)) := List.Pairwise.nil

variable {k : κ} {m : List (κ × ι)} {p : κ × ι} {v : ι}

theorem mem_of_mem_emplace (hp : p ∈ emplace k v m) : p = (k, v) ∨ p ∈ m := by
  induction m with
  | nil => exact .inl (by simpa [emplace] using hp)
  | cons q m ih =>
    rw [emplace] at hp
    split at hp
    · exact mem_cons.mp hp
    split at hp
    · exact .inr hp
    rcases mem_cons.mp hp with rfl | hp
    · exact .inr (mem_cons_self ..)
    · exact (ih hp).imp_right (mem_cons_of_mem _)

theorem mem_emplace (hk : ∀ p ∈ m, p.1 ≠ k) : p ∈ emplace k v m ↔ p = (k, v) ∨ p ∈ m := by
  refine ⟨mem_of_mem_emplace, ?_⟩
  induction m with
  | nil => simp [emplace]
  | cons q m ih =>
    have hne : k ≠ q.1 := fun he => hk q (mem_cons_self ..) he.symm
    have ih := ih fun p hp => hk p (mem_cons_of_mem _ hp)
    rw [emplace]
    split
    · exact mem_cons.mpr
    rintro (rfl | hp)
    · exact mem_cons_of_mem _ (ih (.inl rfl))
    rcases mem_cons.mp hp with rfl | hp
    · exact mem_cons_self ..
    · exact mem_cons_of_mem _ (ih (.inr hp))

theorem Sorted.emplace (h : Sorted m) (k : κ) (v : ι) : Sorted (emplace k v m) := by
  induction m with
  | nil => simp [OrderedMap.emplace, Sorted]
  | cons q m ih =>
    obtain ⟨hhead, htail⟩ := pairwise_cons.mp h
    rw [OrderedMap.emplace]
    split
    · rename_i hlt
      refine pairwise_cons.mpr ⟨fun p hp => ?_, h⟩
      rcases mem_cons.mp hp with rfl | hp
      · exact hlt
      · exact hlt.trans (hhead p hp)
    · rename_i hnlt
      split
      · exact h
      rename_i hne
      refine pairwise_cons.mpr ⟨fun p hp => ?_, ih htail⟩
      rcases mem_of_mem_emplace hp with rfl | hp
      · exact lt_of_le_of_ne (not_lt.mp hnlt) (Ne.symm hne)
      · exact hhead p hp

theorem mem_erase : p ∈ erase m k ↔ p ∈ m ∧ p.1 ≠ k := by
  simp [erase]

theorem Sorted.erase (h : Sorted m) (k : κ) : Sorted (erase m k) :=
  h.filter _

theorem mem_assign :
    p ∈ assign m k v ↔ (p ∈ m ∧ p.1 ≠ k) ∨ (p = (k, v) ∧ ∃ q ∈ m, q.1 = k) := by
  simp only [assign, mem_map]
  constructor
  · rintro ⟨q, hq, rfl⟩
    by_cases hk : q.1 = k
    · exact .inr ⟨by simp [hk], q, hq, hk⟩
    · exact .inl ⟨by simpa [hk] using hq, by simp [hk]⟩
  · rintro (⟨hp, hk⟩ | ⟨rfl, q, hq, hk⟩)
    · exact ⟨p, hp, by simp [hk]⟩
    · exact ⟨q, hq, by simp [hk]⟩

theorem Sorted.assign (h : Sorted m) (k : κ) (v : ι) : Sorted (assign m k v) := by
  refine List.Pairwise.map _ ?_ h
  intro a b hab
  by_cases ha : a.1 = k <;> by_cases hb : b.1 = k <;> simp_all

theorem Sorted.head_le (h : Sorted m) (hp : m.head? = some p) {q : κ × ι} (hq : q ∈ m) :
    p.1 ≤ q.1 := by
  cases m with
  | nil => cases hp
  | cons a m =>
    cases hp
    rcases mem_cons.mp hq with rfl | hq
    · exact le_rfl
    · exact ((pairwise_cons.mp h).1 q hq).le

end OrderedMap
