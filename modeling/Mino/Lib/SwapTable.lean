import Mino.Lib.KeyedVector
import Mino.Lib.OrderedMap

/-! # Tables with swap removal

Records keyed by a group and a number stand in a vector. One index maps the full
key to the position, a second one keeps, for every group that has records, the
ordered map from numbers to positions. A record is removed by moving the last one
into its place, so removal is cheap and the vector loses its order. -/

open KeyedVector OrderedMap

structure SwapTable (α σ : Type*) where
  entries : List α := []
  index : σ × Nat → Option Nat := fun _ => none
  ordered : σ → Option (List (Nat × Nat)) := fun _ => none

namespace SwapTable

open List Function

variable {α σ : Type*} [DecidableEq σ]

/-- The ordered numbers of a group; a group without records has no map at all. -/
def group (t : SwapTable α σ) (s : σ) : List (Nat × Nat) := (t.ordered s).getD []

def find (t : SwapTable α σ) (k : σ × Nat) : Option α := (t.index k).bind (t.entries[·]?)

def push (key : α → σ × Nat) (t : SwapTable α σ) (a : α) : SwapTable α σ where
  entries := t.entries ++ [a]
  index := update t.index (key a) (some t.entries.length)
  ordered := update t.ordered (key a).1
    (some (emplace (key a).2 t.entries.length (t.group (key a).1)))

/-- Drop a number from the map of its group, and the map itself when it gets empty. -/
def eraseOrdered (o : σ → Option (List (Nat × Nat))) (k : σ × Nat) :
    σ → Option (List (Nat × Nat)) :=
  match o k.1 with
  | none => o
  | some m => update o k.1
      (if (erase m k.2).isEmpty then none else some (erase m k.2))

def assignOrdered (o : σ → Option (List (Nat × Nat))) (k : σ × Nat) (i : Nat) :
    σ → Option (List (Nat × Nat)) :=
  match o k.1 with
  | none => o
  | some m => update o k.1 (some (assign m k.2 i))

def dropKey (t : SwapTable α σ) (k : σ × Nat) : SwapTable α σ where
  entries := t.entries
  index := update t.index k none
  ordered := eraseOrdered t.ordered k

/-- Write a new position for a key that is still indexed. -/
def moveKey (t : SwapTable α σ) (k : σ × Nat) (i : Nat) : SwapTable α σ where
  entries := t.entries
  index := if (t.index k).isSome then update t.index k (some i) else t.index
  ordered := assignOrdered t.ordered k i

def removeAt (key : α → σ × Nat) (t : SwapTable α σ) (i : Nat) : SwapTable α σ :=
  match t.entries[i]?, t.entries.getLast? with
  | some removed, some moved =>
    if i + 1 = t.entries.length then
      { t.dropKey (key removed) with entries := t.entries.dropLast }
    else
      { (t.dropKey (key removed)).moveKey (key moved) i with
        entries := (t.entries.set i moved).dropLast }
  | _, _ => t

/-- The ordered maps of the groups and the index hold the same bindings. -/
structure Aligned (t : SwapTable α σ) : Prop where
  sorted : ∀ s, OrderedMap.Sorted (t.group s)
  mem_group : ∀ s n i, (n, i) ∈ t.group s ↔ t.index (s, n) = some i
  ne_nil : ∀ s, t.ordered s ≠ some []

/-- Both indices hold exactly the keys of the records, at their positions. -/
structure Valid (key : α → σ × Nat) (t : SwapTable α σ) : Prop extends Aligned t where
  indexed : Indexed key t.entries t.index

variable {key : α → σ × Nat} {t : SwapTable α σ} {a removed moved : α} {i : Nat}

section Lookup

omit [DecidableEq σ]

theorem valid_empty : Valid key ({} : SwapTable α σ) :=
  ⟨⟨fun _ => sorted_nil, by simp [group], by simp⟩, indexed_nil⟩

theorem Valid.find_eq_some_iff (h : t.Valid key) {k} :
    t.find k = some a ↔ a ∈ t.entries ∧ key a = k :=
  h.indexed.lookup_eq_some_iff

theorem Valid.find_eq_none_iff (h : t.Valid key) {k} :
    t.find k = none ↔ ∀ a ∈ t.entries, key a ≠ k :=
  h.indexed.lookup_eq_none_iff

end Lookup

/-! ### The two indices -/

theorem group_push (a : α) (s : σ) : (t.push key a).group s = if s = (key a).1 then
    emplace (key a).2 t.entries.length (t.group s) else t.group s := by
  by_cases hs : s = (key a).1
  · subst hs
    simp [group, push]
  · simp [group, push, hs]

theorem group_dropKey (k : σ × Nat) (s : σ) :
    (t.dropKey k).group s = if s = k.1 then erase (t.group s) k.2 else t.group s := by
  simp only [dropKey, group, eraseOrdered]
  by_cases hs : s = k.1
  · subst hs
    cases hm : t.ordered k.1 with
    | none => simp [hm, erase]
    | some m =>
      cases hnil : (erase m k.2).isEmpty with
      | true => simp [isEmpty_iff.mp hnil]
      | false => simp [hnil]
  · cases hm : t.ordered k.1 with
    | none => simp [hs]
    | some m => simp [hs]

theorem group_moveKey (k : σ × Nat) (i : Nat) (s : σ) : (t.moveKey k i).group s =
    if s = k.1 then assign (t.group s) k.2 i else t.group s := by
  simp only [moveKey, group, assignOrdered]
  by_cases hs : s = k.1
  · subst hs
    cases hm : t.ordered k.1 with
    | none => simp [hm, assign]
    | some m => simp
  · cases hm : t.ordered k.1 with
    | none => simp [hs]
    | some m => simp [hs]

theorem Aligned.push (h : t.Aligned) (ha : t.index (key a) = none) : (t.push key a).Aligned := by
  have hnew : ∀ p ∈ t.group (key a).1, p.1 ≠ (key a).2 := by
    rintro ⟨n, i⟩ hp rfl
    have := (h.mem_group _ _ _).mp hp
    rw [ha] at this
    cases this
  refine ⟨fun s => ?_, fun s n i => ?_, fun s => ?_⟩
  · rw [group_push]
    split
    · exact (h.sorted s).emplace _ _
    · exact h.sorted s
  · rw [group_push]
    by_cases hk : (s, n) = key a
    · have hs : s = (key a).1 := congrArg Prod.fst hk
      have hn : n = (key a).2 := congrArg Prod.snd hk
      subst hs
      rw [if_pos rfl, mem_emplace hnew]
      simp only [SwapTable.push, update_self, Option.some.injEq, Prod.mk.injEq, hn, true_and]
      constructor
      · rintro (rfl | hmem)
        · rfl
        · exact absurd rfl (hnew _ hmem)
      · exact fun he => .inl he.symm
    · simp only [SwapTable.push, update_of_ne hk]
      rw [← h.mem_group]
      split
      · rename_i hs
        subst hs
        have hn : n ≠ (key a).2 := fun he => hk (by rw [he])
        rw [mem_emplace hnew]
        simp [hn]
      · rfl
  · by_cases hs : s = (key a).1
    · subst hs
      have hmem : ((key a).2, t.entries.length) ∈ emplace (key a).2 t.entries.length
          (t.group (key a).1) :=
        (mem_emplace hnew).mpr (.inl rfl)
      intro he
      simp only [SwapTable.push, update_self, Option.some.injEq] at he
      rw [he] at hmem
      cases hmem
    · simp only [SwapTable.push, update_of_ne hs]
      exact h.ne_nil s

theorem Aligned.dropKey (h : t.Aligned) (k : σ × Nat) : (t.dropKey k).Aligned := by
  refine ⟨fun s => ?_, fun s n i => ?_, fun s => ?_⟩
  · rw [group_dropKey]
    split
    · exact (h.sorted s).erase _
    · exact h.sorted s
  · rw [group_dropKey]
    by_cases hk : (s, n) = k
    · subst hk
      simp [SwapTable.dropKey, mem_erase]
    simp only [SwapTable.dropKey, update_of_ne hk]
    rw [← h.mem_group]
    split
    · rename_i hs
      have hn : n ≠ k.2 := fun he => hk (by rw [hs, he])
      simp [mem_erase, hn]
    · rfl
  · simp only [SwapTable.dropKey, eraseOrdered]
    cases hm : t.ordered k.1 with
    | none => exact h.ne_nil s
    | some m =>
      dsimp only
      by_cases hs : s = k.1
      · subst hs
        rw [update_self]
        split
        · simp
        rename_i hnil
        intro he
        rw [Option.some.injEq] at he
        simp [he] at hnil
      · rw [update_of_ne hs]
        exact h.ne_nil s

theorem Aligned.moveKey (h : t.Aligned) (k : σ × Nat) (i : Nat) : (t.moveKey k i).Aligned := by
  refine ⟨fun s => ?_, fun s n j => ?_, fun s => ?_⟩
  · rw [group_moveKey]
    split
    · exact (h.sorted s).assign _ _
    · exact h.sorted s
  · rw [group_moveKey]
    by_cases hk : (s, n) = k
    · subst hk
      simp only [SwapTable.moveKey, if_true, mem_assign, ne_eq, not_true_eq_false,
        and_false, Prod.mk.injEq, true_and, false_or]
      cases hidx : t.index (s, n) with
      | none =>
        have hno : ¬ ∃ q ∈ t.group s, q.1 = n := by
          rintro ⟨⟨n', i'⟩, hmem, rfl⟩
          rw [(h.mem_group s n' i').mp hmem] at hidx
          cases hidx
        simp [hno, hidx]
      | some i' =>
        have hyes : ∃ q ∈ t.group s, q.1 = n := ⟨(n, i'), (h.mem_group s n i').mpr hidx, rfl⟩
        simp only [hyes, and_true, Option.isSome_some, if_true, update_self, Option.some.injEq]
        exact eq_comm
    · have hidx : (t.moveKey k i).index (s, n) = t.index (s, n) := by
        simp only [SwapTable.moveKey]
        split
        · rw [update_of_ne hk]
        · rfl
      rw [hidx, ← h.mem_group]
      split
      · rename_i hs
        have hn : n ≠ k.2 := fun he => hk (by rw [hs, he])
        rw [mem_assign]
        simp [hn]
      · rfl
  · simp only [SwapTable.moveKey, assignOrdered]
    cases hm : t.ordered k.1 with
    | none => exact h.ne_nil s
    | some m =>
      dsimp only
      by_cases hs : s = k.1
      · subst hs
        rw [update_self, Ne, Option.some.injEq, assign, map_eq_nil_iff]
        rintro rfl
        exact h.ne_nil _ hm
      · rw [update_of_ne hs]
        exact h.ne_nil s

theorem Valid.push (h : t.Valid key) (ha : t.index (key a) = none) : (t.push key a).Valid key :=
  ⟨h.toAligned.push ha, h.indexed.push ha⟩

/-! ### Swap removal -/

section

variable (hi : t.entries[i]? = some removed) (hl : t.entries.getLast? = some moved)
include hi hl

theorem removeAt_entries : (t.removeAt key i).entries = (t.entries.set i moved).dropLast := by
  have hlt : i < t.entries.length := (List.getElem?_eq_some_iff.mp hi).1
  simp only [removeAt, hi, hl]
  by_cases hlast : i + 1 = t.entries.length
  · -- the hole is the last place, which is dropped whatever stands in it
    rw [if_pos hlast, dropLast_eq_take, dropLast_eq_take, length_set,
      take_set, set_eq_of_length_le (by simp; omega)]
  · rw [if_neg hlast]

/-- The record at the position goes and the last one takes its place. -/
theorem getElem?_removeAt (j : Nat) : (t.removeAt key i).entries[j]? =
    if j + 1 < t.entries.length then (if j = i then some moved else t.entries[j]?)
    else none := by
  have hlt : i < t.entries.length := (List.getElem?_eq_some_iff.mp hi).1
  rw [removeAt_entries hi hl, getElem?_dropLast, length_set]
  by_cases hj : j + 1 < t.entries.length
  · rw [if_pos (by omega), if_pos hj, getElem?_set]
    by_cases hij : i = j
    · subst hij
      simp [hlt]
    · simp [hij, Ne.symm hij]
  · rw [if_neg (by omega), if_neg hj]

end

omit [DecidableEq σ] in
theorem exists_last (hi : t.entries[i]? = some removed) :
    i < t.entries.length ∧ ∃ moved, t.entries.getLast? = some moved := by
  have hlt : i < t.entries.length := (List.getElem?_eq_some_iff.mp hi).1
  rw [List.getLast?_eq_getElem?]
  exact ⟨hlt, _, List.getElem?_eq_getElem (by omega)⟩

/-- Apart from the order, only the record at the position goes. -/
theorem perm_removeAt (hi : t.entries[i]? = some removed) :
    removed :: (t.removeAt key i).entries ~ t.entries := by
  obtain ⟨hlt, moved, hl⟩ := exists_last hi
  have hlast : (t.entries.set i moved).getLast? = some moved := by
    rw [getLast?_eq_getElem?, length_set, getElem?_set]
    rw [getLast?_eq_getElem?] at hl
    split
    · rfl
    · exact hl
  have hset : moved :: (t.removeAt key i).entries ~ moved :: t.entries.eraseIdx i := by
    rw [removeAt_entries hi hl]
    refine (perm_append_singleton moved _).symm.trans ?_
    rw [dropLast_append_getLast? _ hlast]
    exact set_perm_cons_eraseIdx hlt moved
  obtain ⟨_, rfl⟩ := List.getElem?_eq_some_iff.mp hi
  exact (hset.cons_inv.cons _).trans (getElem_cons_eraseIdx_perm hlt)

theorem mem_of_mem_removeAt (ha : a ∈ (t.removeAt key i).entries) : a ∈ t.entries := by
  cases hi : t.entries[i]? with
  | none => simpa only [removeAt, hi] using ha
  | some removed => exact (perm_removeAt hi).subset (mem_cons_of_mem _ ha)

section

variable (h : t.Valid key) (hi : t.entries[i]? = some removed)
include h hi

theorem Valid.removeAt_index (hl : t.entries.getLast? = some moved) (k : σ × Nat) :
    (t.removeAt key i).index k =
      if k = key removed then none else if k = key moved then some i else t.index k := by
  have hlt : i < t.entries.length := (List.getElem?_eq_some_iff.mp hi).1
  have hlast : t.entries[t.entries.length - 1]? = some moved := by
    rw [← hl, getLast?_eq_getElem?]
  simp only [SwapTable.removeAt, hi, hl, SwapTable.dropKey]
  by_cases hend : i + 1 = t.entries.length
  · have hsame : removed = moved := by
      have : t.entries.length - 1 = i := by omega
      rw [this, hi] at hlast
      exact Option.some.inj hlast
    subst hsame
    rw [if_pos hend]
    by_cases hk : k = key removed <;> simp [hk]
  · have hne : key moved ≠ key removed := by
      intro he
      have := h.indexed.position_unique (k := key moved) (i := i) (by simp [hi, he])
        (by rw [hlast]; rfl)
      omega
    have hidx : t.index (key moved) = some (t.entries.length - 1) :=
      (h.indexed _ _).mpr (by rw [hlast]; rfl)
    rw [if_neg hend]
    simp only [SwapTable.moveKey, update_of_ne hne, hidx, Option.isSome_some, if_true]
    by_cases hk : k = key removed
    · subst hk
      simp [hne.symm]
    by_cases hk' : k = key moved
    · subst hk'
      simp [hne]
    · simp [hk, hk']

theorem Valid.removeAt : (t.removeAt key i).Valid key := by
  obtain ⟨hlt, moved, hl⟩ := exists_last hi
  have hlast : t.entries[t.entries.length - 1]? = some moved := by
    rw [← hl, getLast?_eq_getElem?]
  refine ⟨?_, fun k j => ?_⟩
  · simp only [SwapTable.removeAt, hi, hl]
    split
    · obtain ⟨hs, hg, hn⟩ := h.toAligned.dropKey (key removed)
      exact ⟨hs, hg, hn⟩
    · obtain ⟨hs, hg, hn⟩ := (h.toAligned.dropKey (key removed)).moveKey (key moved) i
      exact ⟨hs, hg, hn⟩
  rw [h.removeAt_index hi hl, getElem?_removeAt hi hl]
  by_cases hkr : k = key removed
  · -- the removed key is gone: no other place had it, and its own is taken
    rw [if_pos hkr]
    refine iff_of_false (by simp) ?_
    split
    · rename_i hj
      split
      · rename_i hji
        subst hji
        intro he
        have := h.indexed.position_unique (k := k) (i := j) (by simp [hi, hkr])
          (by rw [hlast]; exact he)
        omega
      · rename_i hji
        intro he
        exact hji (h.indexed.position_unique (k := k) he (by simp [hi, hkr]))
    · simp
  · rw [if_neg hkr]
    by_cases hkm : k = key moved
    · rw [if_pos hkm]
      subst hkm
      have hne : i ≠ t.entries.length - 1 := by
        rintro he
        rw [← he, hi] at hlast
        exact hkr (by rw [Option.some.inj hlast])
      constructor
      · intro he
        cases he
        simp [show i + 1 < t.entries.length by omega]
      intro he
      split at he
      · split at he
        · rename_i hji
          rw [hji]
        · have := h.indexed.position_unique he (by rw [hlast]; rfl)
          omega
      · cases he
    · rw [if_neg hkm, h.indexed k j]
      constructor
      · intro he
        have hj : j < t.entries.length := by
          by_contra hge
          rw [getElem?_eq_none (by omega)] at he
          cases he
        have hjl : j ≠ t.entries.length - 1 := by
          rintro rfl
          rw [hlast] at he
          exact hkm (Option.some.inj he).symm
        have hji : j ≠ i := by
          rintro rfl
          rw [hi] at he
          exact hkr (Option.some.inj he).symm
        rw [if_pos (by omega), if_neg hji]
        exact he
      · intro he
        split at he
        · split at he
          · exact absurd (Option.some.inj he).symm hkm
          · exact he
        · cases he

theorem Valid.mem_removeAt :
    a ∈ (t.removeAt key i).entries ↔ a ∈ t.entries ∧ key a ≠ key removed := by
  have hperm : removed :: (t.removeAt key i).entries ~ t.entries := perm_removeAt hi
  have hnodup := h.indexed.nodup
  rw [← (hperm.map key).nodup_iff, map_cons, nodup_cons] at hnodup
  constructor
  · intro ha
    exact ⟨mem_of_mem_removeAt ha, fun he => hnodup.1 (he ▸ mem_map_of_mem ha)⟩
  · rintro ⟨ha, hne⟩
    rcases mem_cons.mp (hperm.symm.subset ha) with rfl | ha
    · exact absurd rfl hne
    · exact ha

end

theorem length_removeAt (hi : t.entries[i]? = some removed) :
    (t.removeAt key i).entries.length = t.entries.length - 1 := by
  have hperm : removed :: (t.removeAt key i).entries ~ t.entries := perm_removeAt hi
  rw [← hperm.length_eq, length_cons, Nat.add_sub_cancel]

end SwapTable
