import Mino.Common.Bytes
import Mino.Bridge.PipelineState

/-! # The schema store

The store keeps descriptor artifacts on disk, one file per digest, and a manifest that gives each
its ref. An artifact is checked against the schema registry when it is persisted, when the store is
opened, and when the registry is filled again from the store. -/

namespace Mino.Storage

open Result

open Bridge (SchemaIdentity)

def schemaInvalid (message : String) : Status := .error .invalidArgument message
def schemaMismatch (message : String) : Status := .error .schemaMismatch message
def schemaCorruption (message : String) : Status := .error .corruption message

/-! ### The registry -/

/-- A descriptor; of its fields the registry uses the user types that they name. -/
structure SchemaDescriptor where
  fullName : String
  directTypes : List String
  identity : SchemaIdentity
  canonicalSchema : Bytes
  dependencies : List (String × Bytes)
  deriving DecidableEq, Repr

abbrev SchemaDescriptor.digest (d : SchemaDescriptor) : Bytes := d.identity.canonicalDigest

/-- What the registry calls: `DecodeAndValidate` with the registered descriptors,
`RebuildTrustedDescriptor`, whether `CompatibilityChecker` finds a break, and `DigestShortId`. -/
structure SchemaRules where
  decode : Bytes → List SchemaDescriptor → Result (List SchemaDescriptor)
  rebuild : SchemaDescriptor → Result SchemaDescriptor
  breaking : SchemaDescriptor → SchemaDescriptor → List SchemaDescriptor → Result Bool
  digestShortId : Bytes → Nat

/-- `by_digest_` and `by_type_version_`. -/
structure SchemaRegistry where
  byDigest : List (Bytes × SchemaDescriptor)
  byTypeVersion : List ((String × Nat) × Bytes)
  deriving DecidableEq, Repr

def SchemaRegistry.empty : SchemaRegistry := ⟨[], []⟩

def emplaceIn {α β : Type} [BEq α] (key : α) (value : β) (m : List (α × β)) : List (α × β) :=
  if (m.lookup key).isSome then m else m ++ [(key, value)]

namespace SchemaRegistry

/-- The registered descriptors and those of the batch. -/
def addBatch : List String → List (Bytes × SchemaDescriptor) → List SchemaDescriptor →
    Result (List (Bytes × SchemaDescriptor))
  | _, available, [] => .ok available
  | names, available, d :: rest => do
    rejectIf (d.fullName ∈ names)
      (schemaInvalid "compiled batch contains duplicate full type names")
    rejectIf ((available.lookup d.digest).any (·.canonicalSchema ≠ d.canonicalSchema) = true)
      (schemaMismatch "canonical digest collision has different text")
    addBatch (d.fullName :: names) (emplaceIn d.digest d available) rest

def checkDeclared (available : List (Bytes × SchemaDescriptor)) :
    List String → List (String × Bytes) → Result Unit
  | _, [] => .ok ()
  | names, (name, digest) :: rest => do
    rejectIf (name ∈ names) (schemaInvalid "descriptor dependency closure is duplicated")
    rejectIf ((available.lookup digest).map (·.fullName) ≠ some name)
      (schemaMismatch "descriptor dependency digest/name cannot be resolved")
    checkDeclared available (name :: names) rest

def addTransitive : List (String × Bytes) → List (String × Bytes) → Result (List (String × Bytes))
  | expected, [] => .ok expected
  | expected, (name, digest) :: rest => do
    rejectIf ((expected.lookup name).any (· ≠ digest) = true)
      (schemaMismatch "descriptor dependency closure has conflicting digests")
    addTransitive (emplaceIn name digest expected) rest

def expectedClosure (available : List (Bytes × SchemaDescriptor))
    (declared : List (String × Bytes)) :
    List (String × Bytes) → List String → Result (List (String × Bytes))
  | expected, [] => .ok expected
  | expected, name :: rest =>
    match declared.lookup name with
    | none => .error (schemaMismatch "descriptor dependency closure omits a direct type")
    | some digest =>
      match available.lookup digest with
      | none => .error (schemaMismatch "descriptor direct dependency is invalid")
      | some resolved => do
        rejectIf (resolved.fullName ≠ name)
          (schemaMismatch "descriptor direct dependency is invalid")
        let expected ← addTransitive (emplaceIn name digest expected) resolved.dependencies
        expectedClosure available declared expected rest

def checkClosure (available : List (Bytes × SchemaDescriptor)) (d : SchemaDescriptor) :
    Result Unit := do
  checkDeclared available [] d.dependencies
  let expected ← expectedClosure available d.dependencies [] d.directTypes
  rejectIf (¬ ((∀ p ∈ expected, p ∈ d.dependencies) ∧ ∀ p ∈ d.dependencies, p ∈ expected))
    (schemaMismatch "descriptor dependency list is not the exact transitive closure")

variable (rules : SchemaRules)

/-- The highest version of a type, with its digest. -/
def latest (r : SchemaRegistry) (fullName : String) : Option (Nat × Bytes) :=
  (r.byTypeVersion.filter (·.1.1 = fullName)).foldl (fun best p =>
    if best.any (p.1.2 ≤ ·.1) then best else some (p.1.2, p.2)) none

def checkVersion (r : SchemaRegistry) (available : List (Bytes × SchemaDescriptor))
    (d : SchemaDescriptor) : Result Unit := do
  rejectIf ((r.byTypeVersion.lookup (d.fullName, d.identity.schemaVersion)).any
      (· ≠ d.digest) = true)
    (.error .alreadyExists "type and schema_version already map to a different digest")
  match r.latest d.fullName with
  | none => .ok ()
  | some (version, digest) =>
    if digest = d.digest then .ok ()
    else do
      rejectIf (d.identity.schemaVersion ≤ version) (schemaInvalid
        "compatible schema content changes require a strictly increasing schema_version")
      match available.lookup digest with
      | none => .error (.error .internal "registry version index is inconsistent")
      | some previous => do
        let breaks ← rules.breaking previous d (available.map Prod.snd)
        rejectIf (breaks = true ∧ d.identity.schemaVersion / 2 ^ 16 ≤ version / 2 ^ 16)
          (schemaInvalid "breaking schema evolution requires a strictly increasing major version")

/-- `ValidateAndRegisterDescriptors` without the publication. -/
def validateDescriptors (r : SchemaRegistry) (descriptors : List SchemaDescriptor) :
    Result (List SchemaDescriptor) := do
  let trusted ← descriptors.mapM rules.rebuild
  let available ← addBatch [] r.byDigest trusted
  trusted.forM (checkClosure available)
  trusted.forM (checkVersion rules r available)
  .ok trusted

def publishOne (r : SchemaRegistry) (d : SchemaDescriptor) : SchemaRegistry where
  byDigest := emplaceIn d.digest d r.byDigest
  byTypeVersion := emplaceIn (d.fullName, d.identity.schemaVersion) d.digest r.byTypeVersion

/-- `PublishDescriptorArtifact`. -/
def publish (r : SchemaRegistry) (descriptors : List SchemaDescriptor) :
    Result SchemaRegistry := do
  let trusted ← validateDescriptors rules r descriptors
  .ok (trusted.foldl publishOne r)

/-- `ValidateDescriptorArtifact`. -/
def validateArtifact (r : SchemaRegistry) (bytes : Bytes) : Result (List SchemaDescriptor) := do
  let descriptors ← rules.decode bytes (r.byDigest.map Prod.snd)
  rejectIf (descriptors = []) (schemaInvalid "descriptor artifact contains no types")
  validateDescriptors rules r descriptors

def find (r : SchemaRegistry) (identity : SchemaIdentity) : Result SchemaDescriptor := do
  rejectIf (identity.shortId ≠ rules.digestShortId identity.canonicalDigest)
    (schemaMismatch "schema identity short ID does not match digest")
  match r.byDigest.lookup identity.canonicalDigest with
  | none => .error (.error .notFound "schema digest not found")
  | some found => do
    rejectIf (r.byTypeVersion.lookup (found.fullName, identity.schemaVersion) ≠
        some identity.canonicalDigest)
      (schemaMismatch "schema version alias does not match digest")
    rejectIf (found.identity.layoutVersion ≠ identity.layoutVersion)
      (schemaMismatch "schema layout version mismatch")
    .ok found

end SchemaRegistry

/-! ### The store -/

structure SchemaStoreOptions where
  maxEntries : Nat
  maxManifestBytes : Nat
  maxDescriptorBytes : Nat

structure SchemaStoreEntry where
  ref : Nat
  identity : SchemaIdentity
  deriving DecidableEq, Repr

/-- The files: descriptors by the digest of their names, and what the manifest says. -/
structure SchemaDisk where
  descriptors : List (Bytes × Bytes)
  entries : List SchemaStoreEntry
  highWatermark : Nat

structure SchemaStore where
  entries : List SchemaStoreEntry
  highWatermark : Nat
  poisoned : Bool

inductive SchemaStoreFaultPoint where
  | afterDescriptorTempWrite
  | afterDescriptorSync
  | afterDescriptorRename
  | afterDescriptorDirectorySync
  | afterManifestTempWrite
  | afterManifestSync
  | afterManifestRename
  | afterManifestDirectorySync
  deriving DecidableEq, Repr

/-- The encoded manifest: its header, and for each entry the fixed part and the file name. -/
def schemaManifestSize (entries : Nat) : Nat := 36 + entries * (60 + 71)

/-- What `ReadRegularFile` gives for the descriptor of an identity. -/
def SchemaDisk.read (disk : SchemaDisk) (options : SchemaStoreOptions) (digest : Bytes) :
    Result Bytes :=
  match disk.descriptors.lookup digest with
  | none => .error (schemaCorruption "schema store file is missing")
  | some bytes =>
    if bytes.length > options.maxDescriptorBytes then
      .error (.error .resourceExhausted "schema store file exceeds configured byte limit")
    else .ok bytes

/-- An artifact that validates and holds the identity. -/
def checkArtifact (rules : SchemaRules) (r : SchemaRegistry) (identity : SchemaIdentity)
    (bytes : Bytes) (missing : Status) : Result (List SchemaDescriptor) := do
  let validated ← r.validateArtifact rules bytes
  rejectIf (identity ∉ validated.map (·.identity)) missing
  .ok validated

namespace SchemaStore

variable (rules : SchemaRules) (options : SchemaStoreOptions)

variable (disk : SchemaDisk) (r : SchemaRegistry)

/-- The checks of `Persist`: the ref, if the identity is stored already. -/
def persistChecks (identity : SchemaIdentity) (bytes : Bytes) (s : SchemaStore) (disk : SchemaDisk) :
    Result (Option Nat) := do
  rejectIf (s.poisoned = true)
    (.error .unavailable "schema store requires reopen after uncertain commit")
  rejectIf (bytes = []) (schemaInvalid "descriptor artifact is empty")
  rejectIf (bytes.length > options.maxDescriptorBytes)
    (.error .resourceExhausted "descriptor artifact exceeds configured byte limit")
  let _ ← checkArtifact rules r identity bytes
    (schemaMismatch "descriptor artifact does not contain identity")
  match s.entries.find? (·.identity.canonicalDigest = identity.canonicalDigest) with
  | some entry => do
    rejectIf (entry.identity ≠ identity)
      (schemaMismatch "canonical digest has a different identity")
    let existing ← disk.read options identity.canonicalDigest
    rejectIf (existing ≠ bytes)
      (schemaMismatch "canonical digest has different artifact bytes")
    .ok (some entry.ref)
  | none => do
    rejectIf (s.entries.length ≥ options.maxEntries)
      (.error .resourceExhausted "schema store entry limit reached")
    rejectIf (s.highWatermark = 2 ^ 32 - 1)
      (.error .resourceExhausted "schema ref space is exhausted")
    match disk.descriptors.lookup identity.canonicalDigest with
    | none => .ok none
    | some _ => do
      let existing ← disk.read options identity.canonicalDigest
      rejectIf (existing ≠ bytes) (schemaMismatch "existing digest file has different bytes")
      .ok none

/-- `Persist`, with the fault point at which it stops. -/
def persist (fault : Option SchemaStoreFaultPoint) (identity : SchemaIdentity) (bytes : Bytes)
    (s : SchemaStore) (disk : SchemaDisk) : Result Nat × SchemaStore × SchemaDisk :=
  match persistChecks rules options r identity bytes s disk with
  | .error status => (.error status, s, disk)
  | .ok (some ref) => (.ok ref, s, disk)
  | .ok none =>
    let fresh := (disk.descriptors.lookup identity.canonicalDigest).isNone
    let written := { disk with
      descriptors := emplaceIn identity.canonicalDigest bytes disk.descriptors }
    let ref := s.highWatermark + 1
    let entries := s.entries ++ [⟨ref, identity⟩]
    let committed := { written with entries := entries, highWatermark := ref }
    let stop : Result Nat := .error (.error .unavailable "injected schema store fault")
    if fresh = true ∧ (fault = some .afterDescriptorTempWrite ∨ fault = some .afterDescriptorSync) then
      (stop, s, disk)
    else if (fresh = true ∧ fault = some .afterDescriptorRename) ∨
        fault = some .afterDescriptorDirectorySync then (stop, s, written)
    else if schemaManifestSize entries.length > options.maxManifestBytes then
      (.error (.error .resourceExhausted "schema manifest exceeds configured byte limit"), s, written)
    else if fault = some .afterManifestTempWrite ∨ fault = some .afterManifestSync then
      (stop, s, written)
    else if fault = some .afterManifestRename ∨ fault = some .afterManifestDirectorySync then
      (stop, { s with poisoned := true }, committed)
    else (.ok ref, ⟨entries, ref, s.poisoned⟩, committed)

end SchemaStore

end Mino.Storage
