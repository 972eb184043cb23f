import Mino.Bridge.DedupWindow

/-! # The durable store of marks

Only the cumulative mark of a source is stored. The file work of one call is a
single outcome here: OK means that the new snapshot is durable, and after any
other outcome the call restores what it had changed in memory. -/

namespace Mino.Bridge

open List

structure DedupStore where
  maxSources : Nat
  entries : List (SourceIdentity × Nat)
  distinct : (entries.map Prod.fst).Nodup
  deriving DecidableEq, Repr

namespace DedupStore

def empty (maxSources : Nat) : DedupStore := ⟨maxSources, [], List.nodup_nil⟩

def find (store : DedupStore) (source : SourceIdentity) : Option Nat :=
  (store.entries.find? fun p => p.1 = source).map Prod.snd

/-- The recorded high-water mark, zero for an unknown source. -/
def mark (store : DedupStore) (source : SourceIdentity) : Nat := (store.find source).getD 0

def load (store : DedupStore) : List DedupResumeEntry :=
  (store.entries.map fun p => ⟨p.1, p.2⟩).insertionSort
    fun left right => !right.source.less left.source

variable {store : DedupStore} {source : SourceIdentity} {highest : Nat} {e : DedupResumeEntry}

theorem find_eq_none_iff : store.find source = none ↔ source ∉ store.entries.map Prod.fst := by
  simp only [find, Option.map_eq_none_iff, find?_eq_none, decide_eq_true_eq, mem_map,
    not_exists, not_and]

theorem find_of_mem (h : (source, highest) ∈ store.entries) : store.find source = some highest := by
  have hd := store.distinct
  rw [find]
  generalize store.entries = entries at h hd
  induction entries with
  | nil => cases h
  | cons p rest ih =>
    rw [map_cons, nodup_cons] at hd
    rcases mem_cons.mp h with rfl | h
    · simp
    have hne : p.1 ≠ source := by
      rintro rfl
      exact hd.1 (mem_map.mpr ⟨_, h, rfl⟩)
    rw [find?_cons_of_neg (by simpa using hne)]
    exact ih h hd.2

/-- Overwrite the mark of a source that has one. -/
def raise (store : DedupStore) (source : SourceIdentity) (highest : Nat) : DedupStore where
  maxSources := store.maxSources
  entries := store.entries.map fun p => if p.1 = source then (source, highest) else p
  distinct := by
    rw [List.map_map, show Prod.fst ∘ _ = Prod.fst from ?_]
    · exact store.distinct
    · funext p
      dsimp only [Function.comp_apply]
      split
      · rename_i h
        exact h.symm
      · rfl

/-- The first mark of a source. -/
def append (store : DedupStore) (source : SourceIdentity) (highest : Nat)
    (h : store.find source = none) : DedupStore where
  maxSources := store.maxSources
  entries := store.entries ++ [(source, highest)]
  distinct := by
    rw [List.map_append, List.nodup_append]
    refine ⟨store.distinct, List.nodup_singleton _, ?_⟩
    rintro s hs _ (_ | ⟨_, ⟨⟩⟩) rfl
    exact find_eq_none_iff.mp h hs

def recordAccepted (store : DedupStore) (persisted : Status) (source : SourceIdentity)
    (highest : Nat) : Status × DedupStore :=
  if !source.valid then
    (.error .invalidArgument "dedup store source identity is incomplete", store)
  else if highest = 0 then (.error .invalidArgument "dedup store rejects sequence zero", store)
  else match h : store.find source with
    | some previous =>
      if highest ≤ previous then (.success, store)
      else if persisted.ok then (.success, store.raise source highest)
      else (persisted, store)
    | none =>
      if store.entries.length ≥ store.maxSources then
        (.error .resourceExhausted "dedup store is full", store)
      else if persisted.ok then (.success, store.append source highest h)
      else (persisted, store)

theorem mem_load : e ∈ store.load ↔ (e.source, e.highestContiguousSequence) ∈ store.entries := by
  rw [load, mem_insertionSort, mem_map]
  constructor
  · rintro ⟨p, hp, rfl⟩
    exact hp
  · exact fun h => ⟨_, h, rfl⟩

theorem mark_of_mem_load (h : e ∈ store.load) :
    store.mark e.source = e.highestContiguousSequence := by
  rw [mark, find_of_mem (mem_load.mp h)]
  rfl

theorem find_raise (store : DedupStore) (source : SourceIdentity) (highest : Nat)
    (s : SourceIdentity) : (store.raise source highest).find s =
      if s = source then (store.find source).map fun _ => highest else store.find s := by
  have hentries : (store.raise source highest).entries =
      store.entries.map fun p => if p.1 = source then (source, highest) else p := rfl
  rw [find, hentries]
  by_cases hs : s = source
  · subst hs
    rw [if_pos rfl, find]
    induction store.entries with
    | nil => rfl
    | cons p rest ih =>
      by_cases hp : p.1 = s
      · simp [hp]
      · simpa [hp] using ih
  · rw [if_neg hs, find]
    induction store.entries with
    | nil => rfl
    | cons p rest ih =>
      by_cases hp : p.1 = source
      · have hne : p.1 ≠ s := fun h => hs (h.symm.trans hp)
        simpa [hp, hne, Ne.symm hs, hs, eq_comm] using ih
      by_cases hps : p.1 = s
      · simp [hps, hs]
      · simpa [hp, hps] using ih

theorem find_append (highest : Nat) (h : store.find source = none) (s : SourceIdentity) :
    (store.append source highest h).find s = if s = source then some highest else store.find s := by
  have hentries : (store.append source highest h).entries =
      store.entries ++ [(source, highest)] := rfl
  rw [find, hentries, find?_append]
  by_cases hs : s = source
  · subst hs
    rw [if_pos rfl]
    rw [find, Option.map_eq_none_iff] at h
    simp [h]
  · rw [if_neg hs, find]
    have : source ≠ s := Ne.symm hs
    simp [this]

/-- A recorded mark is there afterwards; a refused one was above the mark and left no trace. -/
theorem recordAccepted_spec (store : DedupStore) (hv : source.valid = true) (hn : highest ≠ 0)
    (persisted : Status) : ((store.recordAccepted persisted source highest).1.ok = true ∧
        highest ≤ (store.recordAccepted persisted source highest).2.mark source) ∨
      ((store.recordAccepted persisted source highest).1.ok = false ∧
        (store.recordAccepted persisted source highest).2 = store ∧ store.mark source < highest) := by
  unfold recordAccepted
  rw [if_neg (by simp [hv]), if_neg hn]
  split
  · rename_i previous hfind
    have hmark : store.mark source = previous := by simp [mark, hfind]
    split
    · rename_i hle
      exact .inl ⟨rfl, hmark ▸ hle⟩
    split
    · refine .inl ⟨rfl, ?_⟩
      simp [mark, find_raise, hfind]
    · rename_i hbad
      exact .inr ⟨by simpa using hbad, rfl, by omega⟩
  · rename_i hnone
    have hmark : store.mark source = 0 := by simp [mark, hnone]
    split
    · exact .inr ⟨rfl, rfl, by omega⟩
    split
    · refine .inl ⟨rfl, ?_⟩
      simp [mark, find_append]
    · rename_i hbad
      exact .inr ⟨by simpa using hbad, rfl, by omega⟩

theorem mem_recordAccepted {persisted p}
    (h : p ∈ (store.recordAccepted persisted source highest).2.entries) :
    p ∈ store.entries ∨ p = (source, highest) := by
  unfold recordAccepted at h
  split at h
  · exact .inl h
  split at h
  · exact .inl h
  split at h
  · split at h
    · exact .inl h
    · split at h
      · obtain ⟨q, hq, rfl⟩ := mem_map.mp h
        split
        · exact .inr rfl
        · exact .inl hq
      · exact .inl h
  · split at h
    · exact .inl h
    · split at h
      · exact (mem_append.mp h).imp id mem_singleton.mp
      · exact .inl h

theorem recordAccepted_other {other} (hne : other ≠ source) (highest : Nat) (persisted : Status) :
    (store.recordAccepted persisted source highest).2.find other = store.find other := by
  unfold recordAccepted
  split
  · rfl
  split
  · rfl
  split
  · split
    · rfl
    · split
      · simp [find_raise, hne]
      · rfl
  · split
    · rfl
    · split
      · simp [find_append, hne]
      · rfl

end DedupStore

end Mino.Bridge
