import Mino.Storage.SchemaStore

/-! # Reopening the schema store

`Persist` validates an artifact with a live registry, whatever that holds; hydration publishes the
artifacts one after the other into an empty one. It gets through if each artifact is complete in
itself and comes behind the older versions of its types. -/

namespace Mino.Storage

open List Result
open Bridge (SchemaIdentity)

/-! ### Maps -/

section Maps

variable {α β : Type} [BEq α] {key other : α} {value found : β} {m : List (α × β)}

theorem lookup_append (key : α) (m more : List (α × β)) :
    (m ++ more).lookup key = (m.lookup key).or (more.lookup key) := by
  induction m with
  | nil => rfl
  | cons entry m ih =>
    rw [cons_append, lookup_cons, lookup_cons]
    split
    · rfl
    · exact ih

theorem lookup_emplaceIn (h : m.lookup other = some found) :
    (emplaceIn key value m).lookup other = some found := by
  unfold emplaceIn
  split
  · exact h
  · rw [lookup_append, h, Option.some_or]

theorem lookup_emplaceIn_self [ReflBEq α] (h : ∀ found, m.lookup key = some found → found = value) :
    (emplaceIn key value m).lookup key = some value := by
  unfold emplaceIn
  cases hkey : m.lookup key with
  | none =>
    rw [if_neg (by simp), lookup_append, hkey, lookup_cons_self]
    rfl
  | some found =>
    rw [if_pos (show (some found).isSome = true from rfl), hkey, h found hkey]

theorem lookup_emplaceIn_cases [LawfulBEq α] (h : (emplaceIn key value m).lookup other = some found) :
    m.lookup other = some found ∨ other = key ∧ found = value := by
  unfold emplaceIn at h
  split at h
  · exact .inl h
  rw [lookup_append] at h
  cases hother : m.lookup other with
  | some old =>
    rw [hother] at h
    exact .inl h
  | none =>
    rw [hother, Option.none_or, lookup_cons, lookup_nil] at h
    split at h
    · rename_i heq
      exact .inr ⟨beq_iff_eq.mp heq, (Option.some.inj h).symm⟩
    · cases h

theorem mem_of_lookup [LawfulBEq α] (h : m.lookup key = some found) : (key, found) ∈ m := by
  obtain ⟨front, back, rfl, -⟩ := lookup_eq_some_iff.mp h
  exact mem_append_right _ mem_cons_self

theorem mem_emplaceIn {p : α × β} (h : p ∈ emplaceIn key value m) : p ∈ m ∨ p = (key, value) := by
  unfold emplaceIn at h
  split at h
  · exact .inl h
  · exact (mem_append.mp h).imp_right mem_singleton.mp

end Maps

namespace SchemaRegistry

section Conditions

variable (rules : SchemaRules)

/-- The artifact holds these descriptors, whatever is registered. -/
def Holds (bytes : Bytes) (ds : List SchemaDescriptor) : Prop :=
  ∃ raw, raw ≠ [] ∧ (∀ known, rules.decode bytes known = .ok raw) ∧ raw.mapM rules.rebuild = .ok ds

/-- The types of an artifact, with each type that they depend on among them. -/
structure Complete (ds : List SchemaDescriptor) : Prop where
  rebuilt : ds.mapM rules.rebuild = .ok ds
  short : ∀ d ∈ ds, d.identity.shortId = rules.digestShortId d.digest
  names : (ds.map (·.fullName)).Nodup
  digests : (ds.map (·.digest)).Nodup
  closed : ∀ d ∈ ds, checkClosure (ds.map fun d => (d.digest, d)) d = .ok ()

/-- A digest stands for one descriptor, and of one type the later one has the higher version, with a
higher major version if it breaks the older one. -/
structure Precedes (old new : SchemaDescriptor) : Prop where
  same : old.digest = new.digest → old = new
  version : old.fullName = new.fullName → old.digest ≠ new.digest →
    old.identity.schemaVersion < new.identity.schemaVersion
  compatible : old.fullName = new.fullName → old.digest ≠ new.digest → ∀ known, ∃ breaks,
    rules.breaking old new known = .ok breaks ∧ (breaks = true →
      old.identity.schemaVersion / 2 ^ 16 < new.identity.schemaVersion / 2 ^ 16)

/-- Each artifact is complete in itself, and its types come behind those of the artifacts before. -/
def Ordered : List SchemaDescriptor → List Bytes → Prop
  | _, [] => True
  | earlier, bytes :: rest => ∃ ds, Holds rules bytes ds ∧ Complete rules ds ∧
    (∀ old ∈ earlier, ∀ new ∈ ds, Precedes rules old new) ∧ Ordered (earlier ++ ds) rest

end Conditions

/-- The registry holds exactly these descriptors. -/
structure Registered (r : SchemaRegistry) (ds : List SchemaDescriptor) : Prop where
  known : ∀ digest d, r.byDigest.lookup digest = some d → d ∈ ds ∧ d.digest = digest
  stored : ∀ d ∈ ds, r.byDigest.lookup d.digest = some d
  indexed : ∀ p ∈ r.byTypeVersion, ∃ d ∈ ds,
    p = ((d.fullName, d.identity.schemaVersion), d.digest)
  found : ∀ d ∈ ds,
    r.byTypeVersion.lookup (d.fullName, d.identity.schemaVersion) = some d.digest

variable {rules : SchemaRules} {r : SchemaRegistry} {d : SchemaDescriptor}
  {ds earlier : List SchemaDescriptor} {bytes : Bytes} {identity : SchemaIdentity}
  {available batch : List (Bytes × SchemaDescriptor)}

theorem Registered.publishOne (h : Registered r earlier)
    (hsame : ∀ old ∈ earlier, old.digest = d.digest → old = d)
    (hversion : ∀ old ∈ earlier, old.fullName = d.fullName →
      old.identity.schemaVersion = d.identity.schemaVersion → old.digest = d.digest) :
    Registered (r.publishOne d) (earlier ++ [d]) := by
  refine ⟨fun digest found hfound => ?_, fun old hold => ?_, fun p hp => ?_, fun old hold => ?_⟩
  · rcases lookup_emplaceIn_cases hfound with hfound | ⟨rfl, rfl⟩
    · obtain ⟨hmem, hdigest⟩ := h.known digest found hfound
      exact ⟨mem_append_left _ hmem, hdigest⟩
    · exact ⟨mem_append_right _ mem_cons_self, rfl⟩
  · rcases mem_append.mp hold with hold | hold
    · exact lookup_emplaceIn (h.stored old hold)
    · rw [mem_singleton.mp hold]
      refine lookup_emplaceIn_self fun found hfound => ?_
      obtain ⟨hmem, hdigest⟩ := h.known _ found hfound
      exact hsame found hmem hdigest
  · rcases mem_emplaceIn hp with hp | rfl
    · obtain ⟨old, hold, heq⟩ := h.indexed p hp
      exact ⟨old, mem_append_left _ hold, heq⟩
    · exact ⟨d, mem_append_right _ mem_cons_self, rfl⟩
  · rcases mem_append.mp hold with hold | hold
    · exact lookup_emplaceIn (h.found old hold)
    · rw [mem_singleton.mp hold]
      refine lookup_emplaceIn_self fun found hfound => ?_
      obtain ⟨old, hmem, heq⟩ := h.indexed _ (mem_of_lookup hfound)
      obtain ⟨hkey, hdigest⟩ := Prod.mk.inj heq
      obtain ⟨hname, hnumber⟩ := Prod.mk.inj hkey
      rw [hdigest]
      exact hversion old hmem hname.symm hnumber.symm

section Closure

variable (hsub : ∀ digest d, batch.lookup digest = some d → available.lookup digest = some d)
include hsub

end Closure

end SchemaRegistry

variable (state : SchemaStore × SchemaDisk)

namespace SchemaStore

open SchemaRegistry

/-- A call of `Persist`, with what the live registry holds and where it stops. -/
structure PersistCall where
  registry : SchemaRegistry
  fault : Option SchemaStoreFaultPoint
  identity : SchemaIdentity
  bytes : Bytes

section Conditions

variable (rules : SchemaRules) (options : SchemaStoreOptions)

def step (state : SchemaStore × SchemaDisk) (call : PersistCall) : SchemaStore × SchemaDisk :=
  (persist rules options call.registry call.fault call.identity call.bytes state.1 state.2).2

/-- A store that was opened on an empty directory. -/
def new : SchemaStore × SchemaDisk := (⟨[], 0, false⟩, ⟨[], [], 0⟩)

/-- The artifact can be read, and a registry has validated it with the identity. -/
def Checked (disk : SchemaDisk) (entry : SchemaStoreEntry) : Prop :=
  ∃ bytes, disk.read options entry.identity.canonicalDigest = .ok bytes ∧ ∃ r ds,
    SchemaRegistry.validateArtifact rules r bytes = .ok ds ∧ entry.identity ∈ ds.map (·.identity)

/-- What the manifest says is well formed, and its files are there. -/
structure Formed (disk : SchemaDisk) : Prop where
  refs : (0 :: disk.entries.map (·.ref)).Pairwise (· < ·)
  digests : (disk.entries.map (·.identity.canonicalDigest)).Nodup
  mark : disk.entries = [] → disk.highWatermark = 0
  below : ∀ entry ∈ disk.entries, entry.ref ≤ disk.highWatermark
  count : disk.entries.length ≤ options.maxEntries
  size : schemaManifestSize disk.entries.length ≤ options.maxManifestBytes
  checked : ∀ entry ∈ disk.entries, Checked rules options disk entry

/-- The manifest is what the store holds, or one entry more after a stop that poisons it. -/
structure Inv (state : SchemaStore × SchemaDisk) : Prop where
  formed : Formed rules options state.2
  same : (state.2.entries = state.1.entries ∧ state.2.highWatermark = state.1.highWatermark) ∨
    (state.1.poisoned = true ∧ ∃ identity, state.2.entries =
      state.1.entries ++ [⟨state.1.highWatermark + 1, identity⟩])

end Conditions

/-! ### Files -/

variable {rules : SchemaRules} {options : SchemaStoreOptions} {s : SchemaStore} {disk : SchemaDisk}
  {identity : SchemaIdentity} {bytes : Bytes} {call : PersistCall} {entries : List SchemaStoreEntry}

/-- The disk with one more descriptor. -/
def written (disk : SchemaDisk) (identity : SchemaIdentity) (bytes : Bytes) : SchemaDisk :=
  { disk with descriptors := emplaceIn identity.canonicalDigest bytes disk.descriptors }

theorem read_written {digest content} (h : disk.read options digest = .ok content) :
    (written disk identity bytes).read options digest = .ok content := by
  unfold SchemaDisk.read at h ⊢
  cases hlookup : disk.descriptors.lookup digest with
  | none =>
    rw [hlookup] at h
    cases h
  | some found =>
    rw [hlookup] at h
    rw [written, lookup_emplaceIn hlookup]
    exact h

theorem Formed.written (h : Formed rules options disk) :
    Formed rules options (written disk identity bytes) := by
  refine { h with checked := fun entry hentry => ?_ }
  obtain ⟨content, hcontent, hvalid⟩ := h.checked entry hentry
  exact ⟨content, read_written hcontent, hvalid⟩

/-- What the checks of `Persist` say of an identity that is new. -/
theorem persistChecks_new {r} (h : persistChecks rules options r identity bytes s disk = .ok none) :
    s.poisoned = false ∧ s.entries.length < options.maxEntries ∧
      (∀ entry ∈ s.entries, entry.identity.canonicalDigest ≠ identity.canonicalDigest) ∧
      (written disk identity bytes).read options identity.canonicalDigest = .ok bytes ∧
      ∃ ds, r.validateArtifact rules bytes = .ok ds ∧ identity ∈ ds.map (·.identity) := by
  obtain ⟨_, hpoisoned, h⟩ := bind_eq_ok h
  obtain ⟨_, -, h⟩ := bind_eq_ok h
  obtain ⟨_, hsize, h⟩ := bind_eq_ok h
  obtain ⟨ds, hcheck, h⟩ := bind_eq_ok h
  obtain ⟨validated, hvalidated, hcheck⟩ := bind_eq_ok hcheck
  obtain ⟨_, hmem, -⟩ := bind_eq_ok hcheck
  have hsize := rejectIf_ok hsize
  split at h
  · obtain ⟨_, -, h⟩ := bind_eq_ok h
    obtain ⟨_, -, h⟩ := bind_eq_ok h
    obtain ⟨_, -, h⟩ := bind_eq_ok h
    cases h
  rename_i hnone
  obtain ⟨_, hcount, h⟩ := bind_eq_ok h
  obtain ⟨_, -, h⟩ := bind_eq_ok h
  refine ⟨Bool.eq_false_iff.mpr (rejectIf_ok hpoisoned), Nat.lt_of_not_le (rejectIf_ok hcount),
    fun entry hentry heq => ?_, ?_, validated, hvalidated, not_not.mp (rejectIf_ok hmem)⟩
  · exact find?_eq_none.mp hnone entry hentry (decide_eq_true heq)
  have hsame : ∀ existing, disk.descriptors.lookup identity.canonicalDigest = some existing →
      existing = bytes := by
    intro existing hexisting
    rw [hexisting] at h
    obtain ⟨content, hread, h⟩ := bind_eq_ok h
    obtain ⟨_, hsame, -⟩ := bind_eq_ok h
    rw [SchemaDisk.read, hexisting] at hread
    dsimp only at hread
    split at hread
    · cases hread
    · cases hread
      exact not_not.mp (rejectIf_ok hsame)
  rw [SchemaDisk.read, written, lookup_emplaceIn_self hsame]
  exact if_neg hsize

/-! ### Runs -/

/-- The disk with the new manifest. -/
def committed (disk : SchemaDisk) (s : SchemaStore) (identity : SchemaIdentity)
    (bytes : Bytes) : SchemaDisk :=
  { written disk identity bytes with
    entries := s.entries ++ [⟨s.highWatermark + 1, identity⟩]
    highWatermark := s.highWatermark + 1 }

/-- What a call leaves, by how far it came. -/
theorem step_cases (call : PersistCall) : step rules options state call = state ∨
      (persistChecks rules options call.registry call.identity call.bytes state.1 state.2 = .ok none ∧
        (step rules options state call = (state.1, written state.2 call.identity call.bytes) ∨
          (schemaManifestSize (state.1.entries.length + 1) ≤ options.maxManifestBytes ∧
            (step rules options state call).2 = committed state.2 state.1 call.identity call.bytes ∧
            ((step rules options state call).1 = { state.1 with poisoned := true } ∨
              (step rules options state call).1 = ⟨state.1.entries ++
                [⟨state.1.highWatermark + 1, call.identity⟩], state.1.highWatermark + 1,
                state.1.poisoned⟩)))) := by
  obtain ⟨s, disk⟩ := state
  unfold step persist
  split
  · exact .inl rfl
  · exact .inl rfl
  rename_i hchecks
  dsimp only at hchecks ⊢
  split
  · exact .inl rfl
  refine .inr ⟨hchecks, ?_⟩
  split
  · exact .inl rfl
  split
  · exact .inl rfl
  rename_i hsize
  rw [length_append, length_singleton] at hsize
  split
  · exact .inl rfl
  split
  · exact .inr ⟨Nat.le_of_not_lt hsize, rfl, .inl rfl⟩
  · exact .inr ⟨Nat.le_of_not_lt hsize, rfl, .inr rfl⟩

theorem Formed.committed (h : Formed rules options disk) (hentries : disk.entries = s.entries)
    (hmark : disk.highWatermark = s.highWatermark)
    (hnew : persistChecks rules options call.registry call.identity call.bytes s disk = .ok none)
    (hsize : schemaManifestSize (s.entries.length + 1) ≤ options.maxManifestBytes) :
    Formed rules options (SchemaStore.committed disk s call.identity call.bytes) := by
  obtain ⟨-, hcount, hdigest, hread, ds, hds, hmem⟩ := persistChecks_new hnew
  have hwritten : Formed rules options (SchemaStore.written disk call.identity call.bytes) :=
    h.written
  have hbelow : ∀ entry ∈ s.entries, entry.ref ≤ s.highWatermark := hentries ▸ hmark ▸ h.below
  have hzero : ∀ ref ∈ 0 :: s.entries.map (·.ref), ref < s.highWatermark + 1 := by
    refine forall_mem_cons.mpr ⟨Nat.succ_pos _, fun ref href => ?_⟩
    obtain ⟨entry, hentry, rfl⟩ := mem_map.mp href
    exact Nat.lt_succ_of_le (hbelow entry hentry)
  rw [SchemaStore.committed]
  constructor
  · rw [map_append, ← cons_append, pairwise_append]
    exact ⟨hentries ▸ h.refs, pairwise_singleton _ _, fun ref href other hother =>
      mem_singleton.mp hother ▸ hzero ref href⟩
  · rw [map_append, nodup_append]
    refine ⟨hentries ▸ h.digests, nodup_singleton _, fun digest hmem other hother => ?_⟩
    obtain ⟨entry, hentry, rfl⟩ := mem_map.mp hmem
    exact mem_singleton.mp hother ▸ hdigest entry hentry
  · exact fun hnil => absurd hnil (append_ne_nil_of_right_ne_nil _ (cons_ne_nil _ _))
  · intro entry hentry
    rcases mem_append.mp hentry with hentry | hentry
    · exact Nat.le_succ_of_le (hbelow entry hentry)
    · rw [mem_singleton.mp hentry]
  · rw [length_append]
    exact hcount
  · rw [length_append]
    exact hsize
  · intro entry hentry
    rcases mem_append.mp hentry with hentry | hentry
    · exact hwritten.checked entry (hentries ▸ hentry)
    · rw [mem_singleton.mp hentry]
      exact ⟨_, hread, _, ds, hds, hmem⟩

section

variable {state : SchemaStore × SchemaDisk} (h : Inv rules options state)
include h

theorem Inv.step (call : PersistCall) : Inv rules options (step rules options state call) := by
  obtain ⟨s, disk⟩ := state
  rcases step_cases (s, disk) call with heq | ⟨hnew, heq | ⟨hsize, hdisk, hstore⟩⟩
  · rw [heq]
    exact h
  · rw [heq]
    exact ⟨h.formed.written, h.same⟩
  obtain ⟨hentries, hmark⟩ := h.same.resolve_right fun hbad =>
    Bool.false_ne_true ((persistChecks_new hnew).1.symm.trans hbad.1)
  constructor
  · rw [hdisk]
    exact h.formed.committed hentries hmark hnew hsize
  rcases hstore with hstore | hstore
  · rw [hdisk, hstore]
    exact .inr ⟨rfl, _, rfl⟩
  · rw [hdisk, hstore]
    exact .inl ⟨rfl, rfl⟩

end

/-- One type without fields of its own; the artifact is its version, and so is the digest. -/
def bareType (version : UInt8) : SchemaDescriptor :=
  ⟨"T", [], ⟨1, [version], version.toNat, 1⟩, [version], []⟩

def bareRules : SchemaRules where
  decode bytes _ := .ok (bytes.map bareType)
  rebuild d := if d.identity.shortId = d.digest.length then .ok d
    else .error (schemaMismatch "descriptor short ID does not match digest")
  breaking _ _ _ := .ok false
  digestShortId := length

end SchemaStore

end Mino.Storage
