import Mino.Lib.Trace
import Mino.Storage.SchemaReopen

/-! # Versions of a schema

A registration is compared with the highest version of its type only, and the digest of the
highest version may be registered under any other. So neighbouring versions have been compared
with each other if those of the type were registered in increasing order. -/

namespace Mino.Storage

open List Result Trace

theorem lookup_of_extends {α β : Type} [BEq α] {key found} {m m' : List (α × β)}
    (h : m <+: m') (hkey : m.lookup key = some found) : m'.lookup key = some found := by
  obtain ⟨more, rfl⟩ := h
  rw [lookup_append, hkey, Option.some_or]

theorem emplaceIn_extends {α β : Type} [BEq α] (key : α) (value : β) (m : List (α × β)) :
    m <+: emplaceIn key value m := by
  unfold emplaceIn
  split
  · exact prefix_rfl
  · exact prefix_append _ _

theorem forM_eq_ok {α : Type} {xs : List α} {f : α → Result Unit} {u}
    (h : xs.forM f = .ok u) : ∀ x ∈ xs, f x = .ok () := by
  induction xs with
  | nil => exact nofun
  | cons x xs ih =>
    obtain ⟨_, hx, h⟩ := bind_eq_ok h
    exact forall_mem_cons.mpr ⟨hx, ih h⟩

namespace SchemaRegistry

section Versions

variable (rules : SchemaRules) (descriptors : List (Bytes × SchemaDescriptor))

/-- The major version grows, or `Check`, with the descriptors that were there when the later
version was registered, found no break. -/
def Evolves (name : String) (v w : Nat) (digest digest' : Bytes) : Prop :=
  v / 2 ^ 16 < w / 2 ^ 16 ∨ ∃ previous current stored known,
    descriptors.lookup digest = some previous ∧ descriptors.lookup digest' = some stored ∧
    current.fullName = name ∧ current.identity.schemaVersion = w ∧ current.digest = digest' ∧
    current.canonicalSchema = stored.canonicalSchema ∧ known <+: descriptors ∧
    rules.breaking previous current (known.map Prod.snd) = .ok false

/-- An entry of `by_type_version_` evolves from the highest version registered before it. -/
def Follows (before : List ((String × Nat) × Bytes)) (entry : (String × Nat) × Bytes) : Prop :=
  ∀ v digest, ((entry.1.1, v), digest) ∈ before → (∀ p ∈ before, p.1.1 = entry.1.1 → p.1.2 ≤ v) →
    digest ≠ entry.2 → Evolves rules descriptors entry.1.1 v entry.1.2 digest entry.2

/-- The version index, in the order of registration. -/
structure Disciplined (r : SchemaRegistry) : Prop where
  keys : (r.byTypeVersion.map Prod.fst).Nodup
  follows : Trace.Always (Follows rules r.byDigest) r.byTypeVersion

end Versions

variable {rules : SchemaRules} {r r' : SchemaRegistry} {d : SchemaDescriptor}
  {ds : List SchemaDescriptor} {available available' : List (Bytes × SchemaDescriptor)}
  {before new : List ((String × Nat) × Bytes)} {entry : (String × Nat) × Bytes} {v : Nat}
  {digest : Bytes}

theorem Follows.mono (h : Follows rules available before entry) (hle : available <+: available') :
    Follows rules available' before entry := by
  intro v digest hmem hmax hne
  rcases h v digest hmem hmax hne with hmajor | ⟨previous, current, stored, known, hprevious,
    hstored, hname, hversion, hdigest, htext, hknown, hbreaks⟩
  · exact .inl hmajor
  · exact .inr ⟨previous, current, stored, known, lookup_of_extends hle hprevious,
      lookup_of_extends hle hstored, hname, hversion, hdigest, htext, hknown.trans hle, hbreaks⟩

/-- Versions of other types make no difference. -/
theorem Follows.append (h : Follows rules available before entry)
    (hnew : ∀ p ∈ new, p.1.1 ≠ entry.1.1) : Follows rules available (before ++ new) entry := by
  intro v digest hmem hmax hne
  have hbefore := (mem_append.mp hmem).resolve_right fun hin => hnew _ hin rfl
  exact h v digest hbefore (fun p hp => hmax p (mem_append_left _ hp)) hne

/-! ### One registration -/

/-- A batch that is added has each type once, and its digests stand for its texts. -/
theorem addBatch_ok {names : List String} (h : addBatch names available ds = .ok available') :
    ds.foldl (fun m d => emplaceIn d.digest d m) available = available' ∧
      available <+: available' ∧ (ds.map (·.fullName)).Nodup ∧
      ∀ d ∈ ds, d.fullName ∉ names ∧ ∃ stored, available'.lookup d.digest = some stored ∧
        d.canonicalSchema = stored.canonicalSchema := by
  induction ds generalizing names available with
  | nil =>
    cases h
    exact ⟨rfl, prefix_rfl, .nil, nofun⟩
  | cons d ds ih =>
    obtain ⟨_, hname, h⟩ := bind_eq_ok h
    obtain ⟨_, htext, h⟩ := bind_eq_ok h
    have htext := rejectIf_ok htext
    obtain ⟨hfold, hext, hnodup, hall⟩ := ih h
    refine ⟨hfold, (emplaceIn_extends _ _ _).trans hext, nodup_cons.mpr ⟨?_, hnodup⟩,
      forall_mem_cons.mpr ⟨⟨rejectIf_ok hname, ?_⟩, fun d' hd' =>
        ⟨fun hin => (hall d' hd').1 (mem_cons_of_mem _ hin), (hall d' hd').2⟩⟩⟩
    · intro hmem
      obtain ⟨d', hd', heq⟩ := mem_map.mp hmem
      exact (hall d' hd').1 (heq ▸ mem_cons_self)
    · cases hlookup : available.lookup d.digest with
      | none =>
        exact ⟨d, lookup_of_extends hext (lookup_emplaceIn_self fun found hfound =>
          nomatch hlookup.symm.trans hfound), rfl⟩
      | some stored =>
        refine ⟨stored, lookup_of_extends hext (lookup_emplaceIn hlookup), ?_⟩
        simp only [hlookup, Option.any_some, ne_eq, decide_eq_true_eq, not_not] at htext
        exact htext.symm

/-- The scan for the highest version finds it. -/
theorem foldl_latest {l : List ((String × Nat) × Bytes)} {best}
    (hmax : ∀ p ∈ l, p.1.2 ≤ v) (hone : ∀ p ∈ l, p.1.2 = v → p.2 = digest)
    (hbest : best = some (v, digest) ∨ (∀ b, best = some b → b.1 < v) ∧ ∃ p ∈ l, p.1.2 = v) :
    l.foldl (fun best p => if best.any (p.1.2 ≤ ·.1) then best else some (p.1.2, p.2)) best =
      some (v, digest) := by
  induction l generalizing best with
  | nil => exact hbest.resolve_right fun h => nomatch h.2
  | cons p l ih =>
    obtain ⟨hp, hmax⟩ := forall_mem_cons.mp hmax
    obtain ⟨hpone, hone⟩ := forall_mem_cons.mp hone
    refine ih hmax hone ?_
    dsimp only
    rcases hbest with rfl | ⟨hlt, q, hq, hqv⟩
    · exact .inl (by simp [hp])
    by_cases hpv : p.1.2 = v
    · have hany : best.any (p.1.2 ≤ ·.1) = false := by
        cases best with
        | none => rfl
        | some b => simpa [hpv] using hlt b rfl
      exact .inl (by rw [hany, hpv, hpone hpv]; rfl)
    · refine .inr ⟨fun b hb => ?_, q, (mem_cons.mp hq).resolve_left fun heq =>
        hpv (heq ▸ hqv), hqv⟩
      split at hb
      · exact hlt b hb
      · cases hb
        exact Nat.lt_of_le_of_ne hp hpv

theorem latest_eq (h : (r.byTypeVersion.map Prod.fst).Nodup) {name : String}
    (hmem : ((name, v), digest) ∈ r.byTypeVersion)
    (hmax : ∀ p ∈ r.byTypeVersion, p.1.1 = name → p.1.2 ≤ v) : r.latest name = some (v, digest) := by
  refine foldl_latest (fun p hp => ?_) (fun p hp hv => ?_) (.inr ⟨nofun, ((name, v), digest), ?_, rfl⟩)
  · obtain ⟨hp, hname⟩ := mem_filter.mp hp
    exact hmax p hp (of_decide_eq_true hname)
  · obtain ⟨hp, hname⟩ := mem_filter.mp hp
    have hkey : p.1 = (name, v) := Prod.ext (of_decide_eq_true hname) hv
    exact congrArg Prod.snd (inj_on_of_nodup_map h hp hmem hkey)
  · exact mem_filter.mpr ⟨hmem, decide_eq_true rfl⟩

theorem checkVersion_ok {u} (h : checkVersion rules r available d = .ok u)
    (hlatest : r.latest d.fullName = some (v, digest)) (hne : digest ≠ d.digest) :
    v / 2 ^ 16 < d.identity.schemaVersion / 2 ^ 16 ∨ ∃ previous,
      available.lookup digest = some previous ∧
      rules.breaking previous d (available.map Prod.snd) = .ok false := by
  obtain ⟨_, -, h⟩ := bind_eq_ok h
  simp only [hlatest, if_neg hne] at h
  obtain ⟨_, -, h⟩ := bind_eq_ok h
  cases hprevious : available.lookup digest with
  | none =>
    rw [hprevious] at h
    cases h
  | some previous =>
    rw [hprevious] at h
    obtain ⟨breaks, hbreaks, h⟩ := bind_eq_ok h
    have hmajor := rejectIf_ok h
    cases breaks with
    | false => exact .inr ⟨previous, rfl, hbreaks⟩
    | true => exact .inl (Nat.lt_of_not_le fun hle => hmajor ⟨rfl, hle⟩)

/-- The types of a batch are registered one after the other; each was compared with the registry
before the batch. -/
theorem always_batch (hkeys : ((before ++ new).map Prod.fst).Nodup)
    (hfollows : Trace.Always (Follows rules available) (before ++ new))
    (hnodup : (ds.map (·.fullName)).Nodup) (hnew : ∀ d ∈ ds, ∀ p ∈ new, p.1.1 ≠ d.fullName)
    (hds : ∀ d ∈ ds, Follows rules available before
      ((d.fullName, d.identity.schemaVersion), d.digest)) :
    ((ds.foldl (fun m d => emplaceIn (d.fullName, d.identity.schemaVersion) d.digest m)
      (before ++ new)).map Prod.fst).Nodup ∧
    Trace.Always (Follows rules available) (ds.foldl (fun m d =>
      emplaceIn (d.fullName, d.identity.schemaVersion) d.digest m) (before ++ new)) := by
  induction ds generalizing new with
  | nil => exact ⟨hkeys, hfollows⟩
  | cons d ds ih =>
    obtain ⟨hd, hrest⟩ := forall_mem_cons.mp hds
    obtain ⟨hnewd, hnewrest⟩ := forall_mem_cons.mp hnew
    obtain ⟨hfresh, hnodup⟩ := nodup_cons.mp hnodup
    rw [foldl_cons, emplaceIn]
    split
    · exact ih hkeys hfollows hnodup hnewrest hrest
    rename_i hnone
    rw [append_assoc]
    refine ih ?_ ?_ hnodup ?_ hrest
    · rw [← append_assoc, map_append, nodup_append]
      refine ⟨hkeys, nodup_singleton _, fun key hkey other hother heq => hnone ?_⟩
      rw [lookup_isSome_iff]
      obtain ⟨p, hp, hpkey⟩ := mem_map.mp hkey
      refine ⟨p, hp, ?_⟩
      rw [hpkey, heq, mem_singleton.mp hother]
      exact beq_self_eq_true _
    · rw [← append_assoc, always_append, always_cons, append_nil]
      exact ⟨hfollows, hd.append hnewd, always_nil⟩
    · intro d' hd' p hp heq
      rcases mem_append.mp hp with hp | hp
      · exact hnewrest d' hd' p hp heq
      · cases mem_singleton.mp hp
        exact hfresh (mem_map.mpr ⟨d', hd', heq.symm⟩)

theorem publishAll_eq :
    (ds.foldl publishOne r).byDigest = ds.foldl (fun m d => emplaceIn d.digest d m) r.byDigest ∧
      (ds.foldl publishOne r).byTypeVersion = ds.foldl (fun m d =>
        emplaceIn (d.fullName, d.identity.schemaVersion) d.digest m) r.byTypeVersion := by
  induction ds generalizing r with
  | nil => exact ⟨rfl, rfl⟩
  | cons d ds ih => exact ih

theorem Disciplined.publish (h : Disciplined rules r) (hpublish : r.publish rules ds = .ok r') :
    Disciplined rules r' := by
  obtain ⟨trusted, hvalid, hr'⟩ := bind_eq_ok hpublish
  cases hr'
  obtain ⟨_, -, hvalid⟩ := bind_eq_ok hvalid
  obtain ⟨available, hbatch, hvalid⟩ := bind_eq_ok hvalid
  obtain ⟨_, -, hvalid⟩ := bind_eq_ok hvalid
  obtain ⟨_, hversions, hvalid⟩ := bind_eq_ok hvalid
  cases hvalid
  obtain ⟨hfold, hext, hnodup, hstored⟩ := addBatch_ok hbatch
  obtain ⟨hdigests, hindex⟩ := @publishAll_eq r trusted
  rw [hfold] at hdigests
  have hds : ∀ d ∈ trusted, Follows rules available r.byTypeVersion
      ((d.fullName, d.identity.schemaVersion), d.digest) := by
    intro d hd v digest hmem hmax hne
    rcases checkVersion_ok (forM_eq_ok hversions d hd) (latest_eq h.keys hmem hmax) hne with
      hmajor | ⟨previous, hprevious, hbreaks⟩
    · exact .inl hmajor
    obtain ⟨-, stored, hlookup, htext⟩ := hstored d hd
    exact .inr ⟨previous, d, stored, available, hprevious, hlookup, rfl, rfl, rfl, htext,
      prefix_rfl, hbreaks⟩
  have hold : Trace.Always (Follows rules available) r.byTypeVersion := fun front x back heq =>
    (h.follows front x back heq).mono hext
  have hkeys : ((r.byTypeVersion ++ []).map Prod.fst).Nodup := by
    rw [append_nil]
    exact h.keys
  have hbatch := always_batch hkeys (by rw [append_nil]; exact hold) hnodup nofun hds
  rw [append_nil] at hbatch
  exact ⟨hindex ▸ hbatch.1, hindex ▸ hdigests ▸ hbatch.2⟩

/-! ### Runs -/

theorem Disciplined.run {batches : List (List SchemaDescriptor)} (h : Disciplined rules r)
    (hrun : batches.foldlM (SchemaRegistry.publish rules) r = .ok r') : Disciplined rules r' := by
  induction batches generalizing r with
  | nil =>
    cases hrun
    exact h
  | cons ds batches ih =>
    obtain ⟨r₁, hpublish, hrun⟩ := bind_eq_ok hrun
    exact ih (h.publish hpublish) hrun

/-- A version has one digest; and if the versions of each type were registered in increasing
order, neighbouring versions with different digests evolve one from the other. -/
theorem run_versions (rules : SchemaRules) {batches : List (List SchemaDescriptor)}
    {r : SchemaRegistry} (hrun : batches.foldlM (publish rules) .empty = .ok r) :
    (∀ key digest digest', (key, digest) ∈ r.byTypeVersion → (key, digest') ∈ r.byTypeVersion →
      digest = digest') ∧
    (r.byTypeVersion.Pairwise (fun p q => p.1.1 = q.1.1 → p.1.2 < q.1.2) →
      ∀ name v w digest digest', ((name, v), digest) ∈ r.byTypeVersion →
        ((name, w), digest') ∈ r.byTypeVersion → v < w →
        (∀ p ∈ r.byTypeVersion, p.1.1 = name → p.1.2 ≤ v ∨ w ≤ p.1.2) → digest ≠ digest' →
        Evolves rules r.byDigest name v w digest digest') := by
  have hempty : Disciplined rules .empty := ⟨.nil, Trace.always_nil⟩
  have h := hempty.run hrun
  refine ⟨fun key digest digest' hmem hmem' => congrArg Prod.snd
    (inj_on_of_nodup_map h.keys hmem hmem' rfl), ?_⟩
  intro hordered name v w digest digest' hv hw hlt hnext hne
  obtain ⟨before, after, hsplit⟩ := append_of_mem hw
  rw [hsplit, pairwise_append] at hordered
  obtain ⟨-, hafter, hbefore⟩ := hordered
  refine h.follows before _ after hsplit v digest ?_ (fun p hp hname => ?_) hne
  · rw [hsplit] at hv
    rcases mem_append.mp hv with hv | hv
    · exact hv
    rcases mem_cons.mp hv with heq | hv
    · cases heq
      omega
    · have hgt : w < v := (pairwise_cons.mp hafter).1 _ hv rfl
      omega
  · have hbelow : p.1.2 < w := hbefore p hp _ mem_cons_self hname
    have hgap := hnext p (hsplit ▸ mem_append_left _ hp) hname
    omega

/-- A text of one byte, under a version. -/
def labelled (text : UInt8) (version : Nat) : SchemaDescriptor :=
  ⟨"T", [], ⟨1, [text], version, 1⟩, [text], []⟩

/-- Rules by which every change of the text is a break. -/
def strictRules : SchemaRules :=
  { SchemaStore.bareRules with
    breaking := fun previous current _ => .ok (previous.canonicalSchema ≠ current.canonicalSchema) }

theorem run_versions_majors :
    ∃ r, [[labelled 1 0x10000], [labelled 2 0x20000]].foldlM (publish strictRules) .empty = .ok r ∧
      Evolves strictRules r.byDigest "T" 0x10000 0x20000 [1] [2] := by
  have hrun : [[labelled 1 0x10000], [labelled 2 0x20000]].foldlM (publish strictRules) .empty =
      .ok ([labelled 1 0x10000, labelled 2 0x20000].foldl publishOne .empty) := rfl
  exact ⟨_, hrun, (run_versions strictRules hrun).2 (by decide) "T" _ _ _ _ (by decide) (by decide)
    (by decide) (by decide) (by decide)⟩

/-- The text of version 2.0 is registered again as version 1.5: the break between 1.0 and 1.5 is
not looked for. -/
theorem alias_below_latest : ∃ r, [[labelled 1 0x10000], [labelled 2 0x20000],
    [labelled 2 0x10005]].foldlM (publish strictRules) .empty = .ok r ∧
      (("T", 0x10000), [1]) ∈ r.byTypeVersion ∧ (("T", 0x10005), [2]) ∈ r.byTypeVersion ∧
      (∀ p ∈ r.byTypeVersion, p.1.2 ≤ 0x10000 ∨ 0x10005 ≤ p.1.2) ∧
      ¬ Evolves strictRules r.byDigest "T" 0x10000 0x10005 [1] [2] := by
  refine ⟨_, rfl, by decide, by decide, by decide, ?_⟩
  rintro (hmajor | ⟨previous, current, stored, known, hprevious, hstored, -, -, -, htext, -, hbreaks⟩)
  · exact absurd hmajor (by decide)
  cases hprevious
  cases hstored
  simp [strictRules, htext, labelled] at hbreaks

end SchemaRegistry

end Mino.Storage
