import Mathlib

/-! # Vectors with a side index

A common layout for a mutable collection: the records stand in a vector, and an
index maps the key of each record to its position. `Indexed` says that the two
agree. The lemmas say which updates of the vector, with which updates of the
index, keep them in agreement, and that a lookup through the index then finds
exactly the record with the key. -/

namespace KeyedVector

open List Function

variable {ε κ : Type*} {key : ε → κ} {xs : List ε} {index : κ → Option Nat}

/-- The index holds the position of every key of the vector and nothing else. -/
def Indexed (key : ε → κ) (xs : List ε) (index : κ → Option Nat) : Prop :=
  ∀ k i, index k = some i ↔ xs[i]?.map key = some k

theorem indexed_nil : Indexed key [] (fun _ => none) := by
  intro k i
  simp

namespace Indexed

section

variable (h : Indexed key xs index) {k : κ}
include h

theorem position_unique {i j : Nat}
    (hi : xs[i]?.map key = some k) (hj : xs[j]?.map key = some k) : i = j := by
  have hki := (h k i).mpr hi
  have hkj := (h k j).mpr hj
  exact Option.some.inj (hki.symm.trans hkj)

theorem nodup : (xs.map key).Nodup := by
  rw [nodup_iff_getElem?_ne_getElem?]
  intro i j hij hj he
  have hlt : i < xs.length := by simp at hj; omega
  have hi : xs[i]?.map key = some (key xs[i]) := by simp [getElem?_eq_getElem hlt]
  have hj : xs[j]?.map key = some (key xs[i]) := by
    rw [← hi]
    simpa using he.symm
  have := h.position_unique hi hj
  omega

/-- Reading through the index finds the one record that has the key. -/
theorem lookup_eq_some_iff {x} : (index k).bind (xs[·]?) = some x ↔ x ∈ xs ∧ key x = k := by
  constructor
  · intro hx
    obtain ⟨i, hk, hi⟩ := Option.bind_eq_some_iff.mp hx
    have hkey := (h k i).mp hk
    rw [hi] at hkey
    exact ⟨mem_of_getElem? hi, by simpa using hkey⟩
  · rintro ⟨hm, rfl⟩
    obtain ⟨i, hi⟩ := mem_iff_getElem?.mp hm
    have hk : index (key x) = some i := (h _ _).mpr (by simp [hi])
    simp [hk, hi]

theorem lookup_eq_none_iff : (index k).bind (xs[·]?) = none ↔ ∀ x ∈ xs, key x ≠ k := by
  constructor
  · intro hn x hx hk
    rw [h.lookup_eq_some_iff.mpr ⟨hx, hk⟩] at hn
    cases hn
  intro hn
  cases hl : (index k).bind (xs[·]?) with
  | none => rfl
  | some x =>
    obtain ⟨hx, hk⟩ := h.lookup_eq_some_iff.mp hl
    exact absurd hk (hn x hx)

theorem index_eq_none_iff : index k = none ↔ ∀ x ∈ xs, key x ≠ k := by
  constructor
  · intro hn
    exact h.lookup_eq_none_iff.mp (by simp [hn])
  intro hn
  cases hk : index k with
  | none => rfl
  | some i =>
    obtain ⟨x, hx, hkey⟩ := Option.map_eq_some_iff.mp ((h k i).mp hk)
    exact absurd hkey (hn x (mem_of_getElem? hx))

end

theorem push [DecidableEq κ] (h : Indexed key xs index) {x} (hx : index (key x) = none) :
    Indexed key (xs ++ [x]) (update index (key x) (some xs.length)) := by
  intro k i
  rw [getElem?_append]
  by_cases hk : k = key x
  · subst hk
    have hne := h.index_eq_none_iff.mp hx
    rw [update_self]
    split
    · rename_i hlt
      simp only [Option.some.injEq, getElem?_eq_getElem hlt, Option.map_some]
      exact ⟨fun he => by omega, fun he => absurd he (hne _ (getElem_mem hlt))⟩
    · rename_i hge
      rw [getElem?_singleton]
      split <;> simp <;> omega
  · rw [update_of_ne hk, h k i]
    split
    · rfl
    rw [getElem?_eq_none (by omega), getElem?_singleton]
    split <;> simp [Ne.symm hk]

/-- An update of one record that keeps its key keeps the agreement. -/
theorem modify (h : Indexed key xs index) {f} (hf : ∀ x, key (f x) = key x) (i : Nat) :
    Indexed key (xs.modify i f) index := by
  intro k j
  rw [h k j, getElem?_modify]
  cases xs[j]? with
  | none => simp
  | some x =>
    by_cases hij : i = j
    · simp [hij, hf]
    · simp [hij]

end Indexed

/-- Walk over the positioned records and give every record whose key is indexed
its position. Keys that are not indexed stay so. -/
def rebuild [DecidableEq κ] (key : ε → κ) (index : κ → Option Nat) (ps : List (ε × Nat)) :
    κ → Option Nat :=
  ps.foldl (fun index p =>
    if (index (key p.1)).isSome then Function.update index (key p.1) (some p.2) else index) index

section Rebuild

variable [DecidableEq κ]

section

variable (key : ε → κ) (ps : List (ε × Nat)) (index : κ → Option Nat)

theorem rebuild_isSome (k : κ) : (rebuild key index ps k).isSome = (index k).isSome := by
  induction ps generalizing index with
  | nil => rfl
  | cons p ps ih =>
    rw [rebuild, foldl_cons, ← rebuild, ih]
    split
    · rename_i hp
      by_cases hk : k = key p.1
      · subst hk
        simp [hp]
      · rw [update_of_ne hk]
    · rfl

theorem rebuild_of_not_mem {k} (hk : ∀ p ∈ ps, key p.1 ≠ k) : rebuild key index ps k = index k := by
  induction ps generalizing index with
  | nil => rfl
  | cons p ps ih =>
    rw [rebuild, foldl_cons, ← rebuild, ih _ fun q hq => hk q (mem_cons_of_mem _ hq)]
    have hne : k ≠ key p.1 := fun he => hk p (mem_cons_self ..) he.symm
    split
    · rw [update_of_ne hne]
    · rfl

theorem rebuild_of_mem (hn : (ps.map fun p => key p.1).Nodup) {p} (hp : p ∈ ps)
    (hs : (index (key p.1)).isSome) : rebuild key index ps (key p.1) = some p.2 := by
  induction ps generalizing index with
  | nil => cases hp
  | cons q ps ih =>
    rw [map_cons, nodup_cons] at hn
    rw [rebuild, foldl_cons, ← rebuild]
    rcases mem_cons.mp hp with rfl | hp
    · rw [if_pos hs, rebuild_of_not_mem]
      · exact update_self ..
      · intro r hr he
        exact hn.1 (mem_map.mpr ⟨r, hr, he⟩)
    apply ih _ hn.2 hp
    split
    · rename_i hq
      by_cases hk : key p.1 = key q.1
      · simp [hk]
      · rw [update_of_ne hk]
        exact hs
    · exact hs

end

/-- A rebuild repairs any index that has exactly the keys of the vector. -/
theorem indexed_rebuild (hn : (xs.map key).Nodup) (hk : ∀ k, (index k).isSome ↔ k ∈ xs.map key) :
    Indexed key xs (rebuild key index xs.zipIdx) := by
  have hkeys : (xs.zipIdx.map fun p => key p.1) = xs.map key := by
    rw [← zipIdx_map_fst 0 xs, map_map, zipIdx_map_fst]
    rfl
  intro k i
  constructor
  · intro hi
    have hs : (index k).isSome := by
      rw [← rebuild_isSome key xs.zipIdx index k, hi]
      rfl
    obtain ⟨x, hx, rfl⟩ := mem_map.mp ((hk k).mp hs)
    obtain ⟨j, hj⟩ := mem_iff_getElem?.mp hx
    have hmem : (x, j) ∈ xs.zipIdx := by simpa [mem_zipIdx_iff_getElem?] using hj
    have := rebuild_of_mem key xs.zipIdx index (by rw [hkeys]; exact hn) hmem hs
    rw [hi] at this
    cases this
    simp [hj]
  · intro hi
    obtain ⟨x, hx, rfl⟩ := Option.map_eq_some_iff.mp hi
    have hmem : (x, i) ∈ xs.zipIdx := by simpa [mem_zipIdx_iff_getElem?] using hx
    have hs : (index (key x)).isSome :=
      (hk _).mpr (mem_map.mpr ⟨x, mem_of_getElem? hx, rfl⟩)
    exact rebuild_of_mem key xs.zipIdx index (by rw [hkeys]; exact hn) hmem hs

/-- Erasing a position: drop the key of the erased record, then rebuild. -/
theorem Indexed.eraseIdx (h : Indexed key xs index) {i : Nat} {x : ε} (hx : xs[i]? = some x) :
    Indexed key (xs.eraseIdx i)
      (rebuild key (update index (key x) none) (xs.eraseIdx i).zipIdx) := by
  have hn := h.nodup
  apply indexed_rebuild
  · exact hn.sublist ((eraseIdx_sublist xs i).map key)
  intro k
  rw [mem_map]
  constructor
  · intro hs
    by_cases hk : k = key x
    · simp [hk] at hs
    rw [update_of_ne hk] at hs
    obtain ⟨j, hj⟩ := Option.isSome_iff_exists.mp hs
    obtain ⟨y, hy, rfl⟩ := Option.map_eq_some_iff.mp ((h k j).mp hj)
    refine ⟨y, mem_eraseIdx_iff_getElem?.mpr ⟨j, ?_, hy⟩, rfl⟩
    rintro rfl
    rw [hx] at hy
    cases hy
    exact hk rfl
  · rintro ⟨y, hy, rfl⟩
    obtain ⟨j, hji, hj⟩ := mem_eraseIdx_iff_getElem?.mp hy
    have hne : key y ≠ key x := by
      intro he
      exact hji (h.position_unique (k := key x) (by simp [hj, he]) (by simp [hx]))
    rw [update_of_ne hne, (h _ j).mpr (by simp [hj])]
    rfl

end Rebuild

end KeyedVector
