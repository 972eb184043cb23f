import Mino.Common.Status

/-! # Size classes and the layout of the slab allocator

The slots of all size classes are numbered in one sequence; every class begins at a multiple
of 64. All slots have one stride, that of the largest class. The sizes are far below 2^64:
a stride is at most 2^31 + 64 and there are less than 2^32 slots. -/

namespace Mino.Shm

open List Result

/-- `ClassTableConfig::Entry`. -/
structure ClassEntry where
  slotSize : Nat
  slotCount : Nat
  deriving DecidableEq, Repr

structure ClassDescriptor where
  classId : Nat
  slotSize : Nat
  slotCount : Nat
  bitmapShardOffset : Nat
  deriving DecidableEq, Repr

namespace ClassDescriptor

/-- One past the last slot of the class. -/
def bitmapEnd (c : ClassDescriptor) : Nat := c.bitmapShardOffset + c.slotCount

def Holds (c : ClassDescriptor) (slot : Nat) : Prop :=
  c.bitmapShardOffset ≤ slot ∧ slot < c.bitmapEnd

instance (c : ClassDescriptor) (slot : Nat) : Decidable (c.Holds slot) :=
  inferInstanceAs (Decidable (_ ∧ _))

end ClassDescriptor

structure ClassTable where
  classes : List ClassDescriptor
  totalSlots : Nat
  deriving DecidableEq, Repr

variable (config : List ClassEntry) (table : ClassTable)

namespace ClassTable

def kMaxClassCount : Nat := 256

/-- The loop of `ClassTable::Create` from class `i` on. -/
def build (i prevSlotSize nextBit : Nat) :
    List ClassEntry → Result (List ClassDescriptor × Nat)
  | [] => .ok ([], nextBit)
  | entry :: rest =>
    if entry.slotSize = 0 then .error (.error .invalidArgument "class slot_size must be positive")
    else if entry.slotSize > (2 ^ 32 - 1) / 2 then
      .error (.error .invalidArgument "class slot_size too large")
    else if entry.slotCount = 0 then
      .error (.error .invalidArgument "class slot_count must be positive")
    else if 0 < i ∧ entry.slotSize ≤ prevSlotSize then
      .error (.error .invalidArgument "class slot sizes must be strictly increasing")
    else
      let next := (nextBit + entry.slotCount + 63) / 64 * 64
      if next > 2 ^ 32 - 1 then
        .error (.error .invalidArgument "total slot count overflows uint32_t")
      else do
        let (classes, total) ← build (i + 1) entry.slotSize next rest
        pure (⟨i, entry.slotSize, entry.slotCount, nextBit⟩ :: classes, total)

def create : Result ClassTable :=
  if config = [] then .error (.error .invalidArgument "ClassTable requires at least one class")
  else if config.length > kMaxClassCount then
    .error (.error .invalidArgument "ClassTable has too many classes")
  else do
    let (classes, totalSlots) ← build 0 0 0 config
    pure ⟨classes, totalSlots⟩

def classCount : Nat := table.classes.length

def findClass (objectSize : Nat) : Result ClassDescriptor :=
  if objectSize = 0 then .error (.error .invalidArgument "object_size must be positive")
  else match table.classes.find? fun c => objectSize ≤ c.slotSize with
    | some c => .ok c
    | none =>
      .error (.error .notFound "no size class can hold the requested object size")

def maxObjectSize : Nat := (table.classes.getLast?.map (·.slotSize)).getD 0

/-- `ClassIdForRecovery`: the class whose range has the slot. -/
def classOf (slot : Nat) : Option ClassDescriptor :=
  table.classes.find? fun c => c.Holds slot

/-- What `Create` makes sure of: the classes are numbered in order, with growing slot sizes
and ranges one behind the other. -/
structure Valid (table : ClassTable) : Prop where
  ids : ∀ (i : Nat) (c : ClassDescriptor), table.classes[i]? = some c → c.classId = i
  positive : ∀ c ∈ table.classes, 0 < c.slotSize
  apart : table.classes.Pairwise fun c d =>
    c.bitmapEnd ≤ d.bitmapShardOffset ∧ c.slotSize < d.slotSize
  inside : ∀ c ∈ table.classes, c.bitmapEnd ≤ table.totalSlots

theorem build_spec {entries i prev next classes total} (h : build i prev next entries = .ok (classes, total)) :
    next ≤ total ∧ (∀ (k : Nat) (c : ClassDescriptor), classes[k]? = some c → c.classId = i + k) ∧
    (∀ c ∈ classes, 0 < c.slotSize ∧ next ≤ c.bitmapShardOffset ∧ c.bitmapEnd ≤ total ∧
      (0 < i → prev < c.slotSize)) ∧
    classes.Pairwise fun c d => c.bitmapEnd ≤ d.bitmapShardOffset ∧ c.slotSize < d.slotSize := by
  induction entries generalizing i prev next classes with
  | nil =>
    cases h
    exact ⟨Nat.le_refl _, nofun, nofun, .nil⟩
  | cons entry rest ih =>
    simp only [build, unless_eq_ok] at h
    obtain ⟨hsize, -, -, hgrow, -, h⟩ := h
    obtain ⟨⟨classes', total'⟩, hrest, h⟩ := bind_eq_ok h
    cases h
    obtain ⟨hle, hids, hall, hpair⟩ := ih hrest
    have hround : next + entry.slotCount ≤ (next + entry.slotCount + 63) / 64 * 64 := by omega
    refine ⟨by omega, fun k c hk => ?_, fun c hc => ?_, .cons (fun d hd => ?_) hpair⟩
    · cases k with
      | zero =>
        cases hk
        rfl
      | succ k =>
        rw [hids k c hk]
        omega
    · rcases mem_cons.mp hc with rfl | hc
      · exact ⟨Nat.pos_of_ne_zero hsize, Nat.le_refl _, by
          change next + entry.slotCount ≤ _; omega, fun hi => by
            change prev < entry.slotSize; omega⟩
      · obtain ⟨hpos, hfrom, hend, hprev⟩ := hall c hc
        exact ⟨hpos, by omega, hend, fun hi => by omega⟩
    · obtain ⟨-, hfrom, -, hprev⟩ := hall d hd
      refine ⟨?_, hprev (Nat.succ_pos i)⟩
      change next + entry.slotCount ≤ d.bitmapShardOffset
      omega

variable {table : ClassTable} {c : ClassDescriptor}

theorem Valid.of_create {config} (h : create config = .ok table) : table.Valid := by
  simp only [create, unless_eq_ok] at h
  replace h := h.2.2
  obtain ⟨⟨classes, total⟩, hbuild, h⟩ := bind_eq_ok h
  cases h
  obtain ⟨-, hids, hall, hpair⟩ := build_spec hbuild
  exact ⟨fun i c hi => by rw [hids i c hi, Nat.zero_add], fun c hc => (hall c hc).1, hpair,
    fun c hc => (hall c hc).2.2.1⟩

theorem Valid.slotSize_le (h : table.Valid) (hc : c ∈ table.classes) :
    c.slotSize ≤ table.maxObjectSize := by
  unfold maxObjectSize
  obtain ⟨front, last, heq⟩ : ∃ front last, table.classes = front ++ [last] :=
    ⟨table.classes.dropLast, table.classes.getLast (ne_nil_of_mem hc),
      (dropLast_concat_getLast _).symm⟩
  rw [heq, getLast?_concat]
  change c.slotSize ≤ last.slotSize
  rw [heq] at hc
  rcases mem_append.mp hc with hc | hc
  · have hpair := h.apart
    rw [heq, pairwise_append] at hpair
    exact Nat.le_of_lt (hpair.2.2 c hc last (mem_singleton.mpr rfl)).2
  · exact Nat.le_of_eq (congrArg _ (mem_singleton.mp hc))

theorem findClass_ok {objectSize}
    (h : table.findClass objectSize = .ok c) : c ∈ table.classes ∧ 0 < objectSize ∧
      objectSize ≤ c.slotSize := by
  simp only [findClass, unless_eq_ok] at h
  obtain ⟨hpos, h⟩ := h
  split at h
  · rename_i c' hfind
    cases h
    exact ⟨mem_of_find?_eq_some hfind, Nat.pos_of_ne_zero hpos, by simpa using find?_some hfind⟩
  · cases h

end ClassTable

/-! ### Layout -/

def kSlabHeaderSize : Nat := 64
def kSuperblockSize : Nat := 64
def kClassDescriptorSize : Nat := 16
def kBitmapShardBits : Nat := 64

def alignUp (v a : Nat) : Nat := (v + a - 1) / a * a

structure SlabLayout where
  metadataSize : Nat
  slotStride : Nat
  bitmapWords : Nat
  deriving DecidableEq, Repr

/-- `ComputeLayout`. -/
def SlabLayout.compute (dataRegionSize : Nat) : Result SlabLayout :=
  let words := (table.totalSlots + kBitmapShardBits - 1) / kBitmapShardBits
  let off := alignUp (kSuperblockSize + kClassDescriptorSize * table.classCount) 8
  let off := alignUp (off + 8 * words) 4
  let off := off + 4 * table.totalSlots + 4 * table.classCount
  let stride := alignUp (kSlabHeaderSize + table.maxObjectSize) 64
  let metadata := alignUp off 64
  if dataRegionSize < metadata + stride * table.totalSlots then
    .error (.error .resourceExhausted "data region too small for configured classes")
  else .ok ⟨metadata, stride, words⟩

/-- What an allocator knows of its region and does not change. -/
structure SlabGeometry where
  table : ClassTable
  bitCount : Nat
  slotAreaOffset : Nat
  slotStride : Nat
  dataRegionSize : Nat
  regionId : Nat
  handleOffsetBias : Nat
  deriving DecidableEq, Repr

namespace SlabGeometry

/-- `CreateWithStorage`. `placement` is the answer of `ApplyNumaPlacement`. -/
def createWithStorage (shmBase availableSize metadataCapacity slotAreaOffset slotCapacity regionId
    handleOffsetBias : Nat) (config : List ClassEntry) (placement : Status) :
    Result SlabGeometry :=
  if shmBase = 0 then .error (.error .invalidArgument "shm_base is null")
  else if shmBase % 64 ≠ 0 then
    .error (.error .invalidArgument "allocator base is not cache-line aligned")
  else do
    let table ← ClassTable.create config
    let layout ← SlabLayout.compute table availableSize
    let slotAreaOffset := if slotAreaOffset = 0 then layout.metadataSize else slotAreaOffset
    let slotBytes := layout.slotStride * table.totalSlots
    if metadataCapacity < layout.metadataSize ∨ slotAreaOffset < layout.metadataSize ∨
        slotAreaOffset % 64 ≠ 0 ∨ slotCapacity < slotBytes ∨ slotAreaOffset > availableSize ∨
        slotBytes > availableSize - slotAreaOffset then
      .error (.error .resourceExhausted "Region allocator metadata or data area is too small")
    else if slotAreaOffset + slotBytes > 2 ^ 64 - 1 then
      .error (.error .invalidArgument "NUMA placement extent exceeds addressable size")
    else if !placement.ok then .error placement
    else .ok {
      table
      bitCount := layout.bitmapWords * kBitmapShardBits
      slotAreaOffset
      slotStride := layout.slotStride
      dataRegionSize := availableSize
      regionId
      handleOffsetBias }

def create (shmBase dataRegionSize : Nat) (config : List ClassEntry) (placement : Status) :
    Result SlabGeometry :=
  createWithStorage shmBase dataRegionSize dataRegionSize 0 dataRegionSize 0 0 config placement

structure RegionAllocatorStorage where
  regionBase : Nat
  regionSize : Nat
  allocatorOffset : Nat
  allocatorSize : Nat
  dataOffset : Nat
  dataSize : Nat
  regionId : Nat
  deriving DecidableEq, Repr

def createInRegion (storage : RegionAllocatorStorage) (config : List ClassEntry)
    (placement : Status) : Result SlabGeometry :=
  if storage.regionBase = 0 ∨ storage.allocatorOffset > storage.regionSize ∨
      storage.dataOffset > storage.regionSize ∨ storage.dataOffset < storage.allocatorOffset ∨
      storage.allocatorSize > storage.regionSize - storage.allocatorOffset ∨
      storage.allocatorSize > storage.dataOffset - storage.allocatorOffset ∨
      storage.dataSize > storage.regionSize - storage.dataOffset ∨ storage.regionId = 0 then
    .error (.error .invalidArgument "invalid Region allocator storage")
  else
    createWithStorage (storage.regionBase + storage.allocatorOffset)
      (storage.regionSize - storage.allocatorOffset) storage.allocatorSize
      (storage.dataOffset - storage.allocatorOffset) storage.dataSize storage.regionId
      storage.allocatorOffset config placement

/-- An allocator of its own, or one in a region. -/
inductive Origin where
  | alone (shmBase dataRegionSize : Nat)
  | region (storage : RegionAllocatorStorage)
  deriving DecidableEq, Repr

def ofOrigin (placement : Status) : Origin → Result SlabGeometry
  | .alone shmBase dataRegionSize => create shmBase dataRegionSize config placement
  | .region storage => createInRegion storage config placement

/-- The offset of the header of a slot, as handles give it. -/
def slotOffset (g : SlabGeometry) (slot : Nat) : Nat :=
  g.handleOffsetBias + (g.slotAreaOffset + slot * g.slotStride)

structure Valid (g : SlabGeometry) : Prop where
  table : g.table.Valid
  stride : kSlabHeaderSize + g.table.maxObjectSize ≤ g.slotStride
  superblock : kSuperblockSize ≤ g.slotAreaOffset
  inside : g.slotAreaOffset + g.slotStride * g.table.totalSlots ≤ g.dataRegionSize
  bits : g.table.totalSlots ≤ g.bitCount

variable {config : List ClassEntry} {placement : Status} {g : SlabGeometry}

variable {shmBase availableSize metadataCapacity slotAreaOffset slotCapacity regionId
  handleOffsetBias : Nat} {origin : Origin}

/-- What `CreateWithStorage` has made sure of. -/
structure Laid (shmBase : Nat) (config : List ClassEntry) (layout : SlabLayout) (g : SlabGeometry) :
    Prop where
  base : shmBase ≠ 0 ∧ shmBase % 64 = 0
  table : ClassTable.create config = .ok g.table
  computed : SlabLayout.compute g.table g.dataRegionSize = .ok layout
  metadata : layout.metadataSize ≤ g.slotAreaOffset
  aligned : g.slotAreaOffset % 64 = 0
  stride : g.slotStride = layout.slotStride
  bits : g.bitCount = layout.bitmapWords * kBitmapShardBits
  inside : g.slotAreaOffset + g.slotStride * g.table.totalSlots ≤ g.dataRegionSize

theorem createWithStorage_laid (h : createWithStorage shmBase availableSize metadataCapacity
      slotAreaOffset slotCapacity regionId handleOffsetBias config placement = .ok g) :
    (∃ layout, Laid shmBase config layout g) ∧ g.handleOffsetBias = handleOffsetBias ∧
      g.dataRegionSize = availableSize := by
  simp only [createWithStorage, unless_eq_ok] at h
  obtain ⟨hnull, hbase, h⟩ := h
  obtain ⟨table, htable, h⟩ := bind_eq_ok h
  obtain ⟨layout, hlayout, h⟩ := bind_eq_ok h
  simp only [unless_eq_ok] at h
  generalize (if slotAreaOffset = 0 then layout.metadataSize else slotAreaOffset) = area at h
  obtain ⟨hroom, -, -, h⟩ := h
  cases h
  simp only [not_or, Nat.not_lt, not_not] at hroom
  obtain ⟨-, hmeta, haligned, -, hoffset, hbytes⟩ := hroom
  refine ⟨⟨layout, ⟨hnull, not_not.mp hbase⟩, htable, hlayout, hmeta, haligned, rfl, rfl, ?_⟩, rfl, rfl⟩
  dsimp only at hbytes hoffset ⊢
  omega

theorem Laid.valid {layout} (h : Laid shmBase config layout g) : g.Valid := by
  have hlayout := h.computed
  simp only [SlabLayout.compute, unless_eq_ok] at hlayout
  obtain ⟨-, hlayout⟩ := hlayout
  cases hlayout
  refine ⟨.of_create h.table, ?_, ?_, h.inside, ?_⟩
  · rw [h.stride]
    dsimp only [alignUp]
    omega
  · refine Nat.le_trans ?_ h.metadata
    dsimp only [alignUp, kSuperblockSize, kClassDescriptorSize]
    omega
  · rw [h.bits]
    dsimp only [kBitmapShardBits]
    omega

theorem ofOrigin_laid (h : ofOrigin config placement origin = .ok g) :
    (∃ shmBase layout, Laid shmBase config layout g) ∧ match origin with
      | .alone _ dataRegionSize => g.handleOffsetBias = 0 ∧ g.dataRegionSize = dataRegionSize
      | .region storage => g.handleOffsetBias + g.dataRegionSize = storage.regionSize := by
  cases origin with
  | alone base dataRegionSize =>
    obtain ⟨⟨layout, hlaid⟩, hextent⟩ := createWithStorage_laid h
    exact ⟨⟨base, layout, hlaid⟩, hextent⟩
  | region storage =>
    simp only [ofOrigin, createInRegion, unless_eq_ok] at h
    obtain ⟨⟨layout, hlaid⟩, hbias, hsize⟩ := createWithStorage_laid h.2
    refine ⟨⟨_, layout, hlaid⟩, ?_⟩
    rw [hbias, hsize]
    omega

theorem Valid.of_origin (h : ofOrigin config placement origin = .ok g) : g.Valid := by
  obtain ⟨⟨shmBase, layout, hlaid⟩, -⟩ := ofOrigin_laid h
  exact hlaid.valid

/-- What the memory at the origin holds, in bytes. -/
def Origin.size : Origin → Nat
  | .alone _ dataRegionSize => dataRegionSize
  | .region storage => storage.regionSize

/-- The offsets that the allocator uses are offsets into the memory at its origin. -/
theorem extent_le_size (h : ofOrigin config placement origin = .ok g) :
    g.handleOffsetBias + g.dataRegionSize ≤ origin.size := by
  have hextent := (ofOrigin_laid h).2
  cases origin with
  | alone => exact Nat.le_of_eq (by rw [hextent.1, hextent.2, Nat.zero_add]; rfl)
  | region => exact Nat.le_of_eq hextent

theorem Valid.stride_pos (h : g.Valid) : 0 < g.slotStride := by
  have := h.stride
  unfold kSlabHeaderSize at this
  omega

theorem Valid.slotOffset_inj (h : g.Valid) {i j} (heq : g.slotOffset i = g.slotOffset j) :
    i = j := by
  unfold slotOffset at heq
  exact Nat.eq_of_mul_eq_mul_right h.stride_pos (by omega)

end SlabGeometry

end Mino.Shm
