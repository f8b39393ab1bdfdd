/-
  Lockjaw.Fat.Volume

  FAT32 on disk: the boot parameter block, the cluster arithmetic and the decoding
  of FAT entries, as the server computes them; and what a file on a volume is, the
  bytes of the clusters of its chain.

  A `Volume` is a disk with the geometry that its boot sector parses to.  Sector
  numbers are 32-bit and wrap; on a volume they do not (`clusterToSector_eq`,
  `fatEntryLocation_eq`).
-/

import Lockjaw.Lib.ByteImage
import Lockjaw.Lib.Blocks

namespace Lockjaw.Fat

open Lib List

abbrev Bytes := List UInt8

/-! ## The boot parameter block -/

structure Fat32Geometry where
  bytesPerSector : Nat
  sectorsPerCluster : Nat
  numFats : Nat
  fatStartSector : Nat
  sectorsPerFat : Nat
  dataStartSector : Nat
  rootCluster : Nat
  totalSectors : Nat
  deriving DecidableEq, Repr

namespace Fat32Geometry

def bytesPerCluster (geom : Fat32Geometry) : Nat := geom.bytesPerSector * geom.sectorsPerCluster

def clusterCount (geom : Fat32Geometry) : Nat :=
  (geom.totalSectors - geom.dataStartSector) / geom.sectorsPerCluster

def maxCluster (geom : Fat32Geometry) : Nat := geom.clusterCount + 1

end Fat32Geometry

inductive Fat32Error where
  | badBootSignature
  | notFat32
  | invalidBytesPerSector (value : Nat)
  | invalidSectorsPerCluster (value : UInt8)
  | zeroReservedSectors
  | zeroFats
  | zeroSectorsPerFat
  | invalidRootCluster (value : Nat)
  | zeroTotalSectors
  | nonZeroRootEntries (value : Nat)
  | nonZeroSectorsPerFat16 (value : Nat)
  | layoutExceedsVolume (dataStart totalSectors : Nat)
  | noDataClusters
  | rootClusterOutOfRange (value max : Nat)
  | belowFat32MinimumClusters (count minimum : Nat)
  | fatTooSmallForClusterCount (fatEntries required : Nat)
  deriving DecidableEq, Repr

def fat32MinClusters : Nat := 65525

/-- "FAT32   " -/
def fsType : Bytes := [0x46, 0x41, 0x54, 0x33, 0x32, 0x20, 0x20, 0x20]

/-- A byte of a sector; every offset read is inside it. -/
def byteAt (s : Bytes) (off : Nat) : UInt8 := (s[off]?).getD 0

/-- A little-endian number of `n` bytes of a sector. -/
def leAt (s : Bytes) (n off : Nat) : Nat := (readLe s n off).getD 0

def parseBpb (sector0 : Bytes) : Except Fat32Error Fat32Geometry :=
  let bytesPerSector := leAt sector0 2 11
  let sectorsPerCluster := byteAt sector0 13
  let reservedSectors := leAt sector0 2 14
  let numFats := (byteAt sector0 16).toNat
  let rootEntryCount := leAt sector0 2 17
  let sectorsPerFat16 := leAt sector0 2 22
  let totalSectors := leAt sector0 4 32
  let sectorsPerFat := leAt sector0 4 36
  let rootCluster := leAt sector0 4 44
  -- the sums are made in 64 bits and cannot wrap
  let dataStart := reservedSectors + numFats * sectorsPerFat
  let clusterCount := (totalSectors - dataStart) / sectorsPerCluster.toNat
  let fatEntries := sectorsPerFat * bytesPerSector / 4
  if byteAt sector0 510 ≠ 0x55 ∨ byteAt sector0 511 ≠ 0xaa then .error .badBootSignature
  else if (sector0.drop 82).take 8 ≠ fsType then .error .notFat32
  else if bytesPerSector ≠ 512 then .error (.invalidBytesPerSector bytesPerSector)
  else if sectorsPerCluster = 0 ∨ sectorsPerCluster &&& (sectorsPerCluster - 1) ≠ 0 ∨
      sectorsPerCluster > 128 then
    .error (.invalidSectorsPerCluster sectorsPerCluster)
  else if reservedSectors = 0 then .error .zeroReservedSectors
  else if numFats = 0 then .error .zeroFats
  else if rootEntryCount ≠ 0 then .error (.nonZeroRootEntries rootEntryCount)
  else if sectorsPerFat16 ≠ 0 then .error (.nonZeroSectorsPerFat16 sectorsPerFat16)
  else if totalSectors = 0 then .error .zeroTotalSectors
  else if sectorsPerFat = 0 then .error .zeroSectorsPerFat
  else if rootCluster < 2 then .error (.invalidRootCluster rootCluster)
  else if dataStart > totalSectors then .error (.layoutExceedsVolume dataStart totalSectors)
  else if clusterCount = 0 then .error .noDataClusters
  else if clusterCount < fat32MinClusters then
    .error (.belowFat32MinimumClusters clusterCount fat32MinClusters)
  else if fatEntries < clusterCount + 2 then
    .error (.fatTooSmallForClusterCount fatEntries (clusterCount + 2))
  else if rootCluster > clusterCount + 1 then
    .error (.rootClusterOutOfRange rootCluster (clusterCount + 1))
  else
    .ok { bytesPerSector, sectorsPerCluster := sectorsPerCluster.toNat, numFats
          fatStartSector := reservedSectors, sectorsPerFat, dataStartSector := dataStart
          rootCluster, totalSectors }

/-! ## Clusters and FAT entries -/

def clusterToSector (cluster : Nat) (geom : Fat32Geometry) : Option Nat :=
  if cluster < 2 ∨ cluster > geom.maxCluster then none
  else some ((geom.dataStartSector + (cluster - 2) * geom.sectorsPerCluster) % 2 ^ 32)

def fatEntryLocation (cluster : Nat) (geom : Fat32Geometry) : Option (Nat × Nat) :=
  if cluster > geom.maxCluster then none
  else
    let byteOffset := cluster * 4
    let sectorOffset := byteOffset / geom.bytesPerSector % 2 ^ 32
    some ((geom.fatStartSector + sectorOffset) % 2 ^ 32, byteOffset % geom.bytesPerSector)

inductive FatEntry where
  | free
  | used (next : Nat)
  | reserved
  | bad
  | endOfChain
  deriving DecidableEq, Repr

def classifyEntry (value : Nat) : FatEntry :=
  if value = 0 then .free
  else if value = 1 then .reserved
  else if value ≤ 0xFFFFFEF then .used value
  else if value ≤ 0xFFFFFF6 then .reserved
  else if value = 0xFFFFFF7 then .bad
  else .endOfChain

/-- `decode_fat_entry_value`: the top four bits are masked off. -/
def decodeFatEntryValue (raw : Nat) : FatEntry := classifyEntry (raw % 2 ^ 28)

/-! ## Volumes -/

def sectorSize : Nat := 512

structure Disk where
  sector : Nat → Bytes
  length_sector : ∀ s, (sector s).length = sectorSize

/-- What a transfer of `count` sectors from `start` on brings in. -/
def Disk.read (disk : Disk) (start count : Nat) : Bytes :=
  ((range count).map fun i => disk.sector (start + i)).flatten

theorem Disk.length_read (disk : Disk) (start count : Nat) :
    (disk.read start count).length = count * sectorSize := by
  unfold Disk.read
  rw [length_flatten_of_forall, length_map, length_range]
  intro B hB
  obtain ⟨i, -, rfl⟩ := mem_map.mp hB
  exact disk.length_sector _

/-- A disk with the geometry its boot sector states. -/
structure Volume where
  disk : Disk
  geom : Fat32Geometry
  mounted : parseBpb (disk.sector 0) = .ok geom

/-- What `parse_bpb` guarantees. -/
structure Fat32Geometry.Valid (geom : Fat32Geometry) : Prop where
  sector : geom.bytesPerSector = sectorSize
  cluster_pos : 0 < geom.sectorsPerCluster
  data_le : geom.dataStartSector ≤ geom.totalSectors
  total_lt : geom.totalSectors < 2 ^ 32
  fat_le : geom.fatStartSector + geom.sectorsPerFat ≤ geom.dataStartSector
  entries : (geom.clusterCount + 2) * 4 ≤ geom.sectorsPerFat * sectorSize

/-- A check that did not stop with its error was passed. -/
theorem check_passed {ε β : Type} {p : Prop} [Decidable p] {e : ε} {x : Except ε β} {b : β}
    (h : (if p then .error e else x) = .ok b) : ¬ p ∧ x = .ok b := by grind

/-- The rest of what it guarantees: where the FAT copies end and where the root directory is. -/
structure Fat32Geometry.Layout (geom : Fat32Geometry) : Prop where
  fats_pos : 0 < geom.numFats
  data_eq : geom.dataStartSector = geom.fatStartSector + geom.numFats * geom.sectorsPerFat
  cluster_le : geom.sectorsPerCluster ≤ 128
  root_ge : 2 ≤ geom.rootCluster
  root_le : geom.rootCluster ≤ geom.maxCluster

variable {sector0 : Bytes}

theorem parseBpb_layout {geom : Fat32Geometry}
    (h : parseBpb sector0 = .ok geom) : geom.Valid ∧ geom.Layout := by
  have htotal : leAt sector0 4 32 < 2 ^ 32 := by
    unfold leAt
    cases hread : readLe sector0 4 32 with
    | none => decide
    | some x => exact readLe_lt hread
  unfold parseBpb at h
  obtain ⟨-, h⟩ := check_passed h
  obtain ⟨-, h⟩ := check_passed h
  obtain ⟨hbytes, h⟩ := check_passed h
  obtain ⟨hspc, h⟩ := check_passed h
  obtain ⟨-, h⟩ := check_passed h
  obtain ⟨hfats, h⟩ := check_passed h
  obtain ⟨-, h⟩ := check_passed h
  obtain ⟨-, h⟩ := check_passed h
  obtain ⟨-, h⟩ := check_passed h
  obtain ⟨-, h⟩ := check_passed h
  obtain ⟨hroot, h⟩ := check_passed h
  obtain ⟨hlayout, h⟩ := check_passed h
  obtain ⟨-, h⟩ := check_passed h
  obtain ⟨-, h⟩ := check_passed h
  obtain ⟨hentries, h⟩ := check_passed h
  obtain ⟨hmax, h⟩ := check_passed h
  cases h
  rw [not_not] at hbytes
  rw [not_or, not_or] at hspc
  constructor
  · refine ⟨hbytes, ?_, Nat.not_lt.mp hlayout, htotal, ?_, ?_⟩
    · exact Nat.pos_of_ne_zero fun h0 => hspc.1 (UInt8.toNat_inj.mp h0)
    · have hle := Nat.le_mul_of_pos_left (leAt sector0 4 36) (Nat.pos_of_ne_zero hfats)
      dsimp only
      omega
    · rw [hbytes] at hentries
      unfold Fat32Geometry.clusterCount sectorSize
      dsimp only
      omega
  · refine ⟨Nat.pos_of_ne_zero hfats, rfl, ?_, Nat.not_lt.mp hroot, Nat.not_lt.mp hmax⟩
    exact UInt8.le_iff_toNat_le.mp (UInt8.not_lt.mp hspc.2.2)

/-! ## The geometry is sound -/

namespace Fat32Geometry

/-- First sector of a data cluster, in unbounded arithmetic. -/
def clusterStart (geom : Fat32Geometry) (c : Nat) : Nat :=
  geom.dataStartSector + (c - 2) * geom.sectorsPerCluster

def IsData (geom : Fat32Geometry) (c : Nat) : Prop := 2 ≤ c ∧ c ≤ geom.maxCluster

/-- What the 32-bit arithmetic on a geometry relies on, and what it computes. -/
structure Sound (geom : Fat32Geometry) : Prop where
  /-- `cluster_count`, `max_cluster` and `bytes_per_cluster` neither wrap nor borrow. -/
  counts : geom.dataStartSector ≤ geom.totalSectors ∧ geom.maxCluster < 2 ^ 32 ∧
    geom.bytesPerCluster < 2 ^ 32
  rejected : ∀ c, ¬ geom.IsData c → clusterToSector c geom = none
  located : ∀ c, geom.IsData c → clusterToSector c geom = some (geom.clusterStart c) ∧
    (c - 2) * geom.sectorsPerCluster < 2 ^ 32 ∧ geom.clusterStart c < 2 ^ 32
  inside : ∀ c, geom.IsData c → geom.dataStartSector ≤ geom.clusterStart c ∧
    geom.clusterStart c + geom.sectorsPerCluster ≤ geom.totalSectors
  apart : ∀ c c', geom.IsData c → geom.IsData c' → c < c' →
    geom.clusterStart c + geom.sectorsPerCluster ≤ geom.clusterStart c'
  /-- The entry is inside the first copy, at the place of its number. -/
  entry : ∀ c, c ≤ geom.maxCluster → ∃ sector off, fatEntryLocation c geom = some (sector, off) ∧
    geom.fatStartSector ≤ sector ∧ sector < geom.fatStartSector + geom.sectorsPerFat ∧
    sector < 2 ^ 32 ∧ off + 4 ≤ sectorSize
  entry_inj : ∀ c c', c ≤ geom.maxCluster → c' ≤ geom.maxCluster →
    fatEntryLocation c geom = fatEntryLocation c' geom → c = c'
  /-- Copy `i` ends before the next one and before the data area. -/
  copies : ∀ i, i < geom.numFats →
    geom.fatStartSector + (i + 1) * geom.sectorsPerFat ≤ geom.dataStartSector
  root : geom.IsData geom.rootCluster

variable {geom : Fat32Geometry} {c : Nat}

theorem Valid.cluster_end_le (hv : geom.Valid) (hc : geom.IsData c) :
    geom.clusterStart c + geom.sectorsPerCluster ≤ geom.totalSectors := by
  have hle : (c - 2 + 1) * geom.sectorsPerCluster ≤ geom.totalSectors - geom.dataStartSector := by
    apply (Nat.le_div_iff_mul_le hv.cluster_pos).mp
    have hhi := hc.2
    unfold maxCluster clusterCount at hhi
    have hlo := hc.1
    omega
  have hdata := hv.data_le
  rw [Nat.succ_mul] at hle
  unfold clusterStart
  omega

theorem Valid.clusterToSector_eq (hv : geom.Valid) (hc : geom.IsData c) :
    clusterToSector c geom = some (geom.clusterStart c) := by
  have hend := hv.cluster_end_le hc
  have htotal := hv.total_lt
  have hdata := hc
  unfold IsData at hdata
  unfold clusterToSector
  rw [if_neg (by omega), Nat.mod_eq_of_lt (by unfold clusterStart at hend; omega)]
  rfl

/-- The FAT has an entry for every cluster, in a sector of the volume. -/
theorem Valid.entry_sector_lt (hv : geom.Valid) (hc : c ≤ geom.maxCluster) :
    c * 4 / sectorSize < geom.sectorsPerFat := by
  have hentries := hv.entries
  unfold maxCluster at hc
  unfold sectorSize at hentries ⊢
  omega

theorem Valid.fatEntryLocation_eq (hv : geom.Valid) (hc : c ≤ geom.maxCluster) :
    fatEntryLocation c geom =
      some (geom.fatStartSector + c * 4 / sectorSize, c * 4 % sectorSize) := by
  have hlt := hv.entry_sector_lt hc
  have hfat := hv.fat_le
  have htotal := hv.total_lt
  have hdata := hv.data_le
  unfold fatEntryLocation
  rw [if_neg (Nat.not_lt.mpr hc), hv.sector]
  dsimp only
  rw [Nat.mod_eq_of_lt (a := c * 4 / sectorSize) (by omega), Nat.mod_eq_of_lt (by omega)]

end Fat32Geometry

open Fat32Geometry in
/-- Every sector that `parse_bpb` accepts states a sound geometry. -/
theorem parseBpb_sound {geom : Fat32Geometry} (h : parseBpb sector0 = .ok geom) : geom.Sound := by
  obtain ⟨hv, hl⟩ := parseBpb_layout h
  have htotal := hv.total_lt
  constructor
  case counts =>
    refine ⟨hv.data_le, ?_, ?_⟩
    · -- the boot sector and one FAT sector are no data sectors
      have hdiv := Nat.div_le_self (geom.totalSectors - geom.dataStartSector)
        geom.sectorsPerCluster
      have hentries := hv.entries
      have hfat := hv.fat_le
      have hdata := hv.data_le
      unfold maxCluster clusterCount
      unfold sectorSize at hentries
      omega
    · have hle := hl.cluster_le
      unfold bytesPerCluster
      rw [hv.sector]
      unfold sectorSize
      omega
  case rejected =>
    intro c hc
    unfold IsData at hc
    exact if_pos (by omega)
  case located =>
    intro c hc
    have hend := hv.cluster_end_le hc
    refine ⟨hv.clusterToSector_eq hc, ?_, by omega⟩
    unfold clusterStart at hend
    omega
  case inside =>
    intro c hc
    exact ⟨Nat.le_add_right _ _, hv.cluster_end_le hc⟩
  case apart =>
    intro c c' hc hc' hlt
    have hlo := hc.1
    have hmul := Nat.mul_le_mul_right geom.sectorsPerCluster (show c - 2 + 1 ≤ c' - 2 by omega)
    rw [Nat.succ_mul] at hmul
    unfold clusterStart
    omega
  case entry =>
    intro c hc
    have hlt := hv.entry_sector_lt hc
    have hfat := hv.fat_le
    have hdata := hv.data_le
    refine ⟨_, _, hv.fatEntryLocation_eq hc, Nat.le_add_right _ _, by omega, by omega, ?_⟩
    unfold sectorSize
    omega
  case entry_inj =>
    intro c c' hc hc' heq
    rw [hv.fatEntryLocation_eq hc, hv.fatEntryLocation_eq hc'] at heq
    simp only [Option.some.injEq, Prod.mk.injEq, Nat.add_left_cancel_iff] at heq
    unfold sectorSize at heq
    omega
  case copies =>
    intro i hi
    have hmul := Nat.mul_le_mul_right geom.sectorsPerFat hi
    rw [hl.data_eq]
    exact Nat.add_le_add_left hmul _
  case root => exact ⟨hl.root_ge, hl.root_le⟩

/-- A boot sector: one reserved sector, one FAT of 512 sectors, 65525 clusters. -/
def bootSector : Bytes :=
  replicate 11 0 ++ [0x00, 0x02, 1, 1, 0, 1, 0, 0] ++ replicate 13 0 ++
    [0xF6, 0x01, 0x01, 0x00] ++ [0x00, 0x02, 0, 0] ++ replicate 4 0 ++ [2, 0, 0, 0] ++
    replicate 34 0 ++ fsType ++ replicate 420 0 ++ [0x55, 0xaa]

theorem length_bootSector : bootSector.length = sectorSize := by decide +kernel

theorem parseBpb_sound_small : ∃ geom, parseBpb bootSector = .ok geom ∧ geom.Sound := by
  have h : parseBpb bootSector = .ok ⟨512, 1, 1, 1, 512, 513, 2, 66038⟩ := by decide +kernel
  exact ⟨_, h, parseBpb_sound h⟩

namespace Volume

variable (vol : Volume)

/-- The data cluster with this number exists. -/
def InRange (cluster : Nat) : Prop := 2 ≤ cluster ∧ cluster ≤ vol.geom.maxCluster

def clusterData (cluster : Nat) : Bytes :=
  vol.disk.read (vol.geom.dataStartSector + (cluster - 2) * vol.geom.sectorsPerCluster)
    vol.geom.sectorsPerCluster

def fatEntry (cluster : Nat) : FatEntry :=
  decodeFatEntryValue
    (leAt (vol.disk.sector (vol.geom.fatStartSector + cluster * 4 / sectorSize)) 4
      (cluster * 4 % sectorSize))

/-- `chain` is the cluster chain that starts at `cluster`, up to its end mark; an empty file may
    have none. -/
def IsChain : Nat → List Nat → Prop
  | cluster, [] => cluster = 0
  | cluster, [c] => c = cluster ∧ vol.InRange c ∧ vol.fatEntry c = .endOfChain
  | cluster, c :: c' :: rest =>
    c = cluster ∧ vol.InRange c ∧ vol.fatEntry c = .used c' ∧ IsChain c' (c' :: rest)

def chainData (chain : List Nat) : Bytes := (chain.map vol.clusterData).flatten

variable {vol} {cluster : Nat} {chain : List Nat}

theorem valid : vol.geom.Valid := (parseBpb_layout vol.mounted).1

theorem bytesPerCluster_eq :
    vol.geom.bytesPerCluster = vol.geom.sectorsPerCluster * sectorSize := by
  unfold Fat32Geometry.bytesPerCluster
  rw [vol.valid.sector, Nat.mul_comm]

theorem bytesPerCluster_pos : 0 < vol.geom.bytesPerCluster := by
  rw [bytesPerCluster_eq]
  exact Nat.mul_pos vol.valid.cluster_pos (by decide)

theorem length_clusterData (cluster : Nat) :
    (vol.clusterData cluster).length = vol.geom.bytesPerCluster := by
  rw [clusterData, Disk.length_read, bytesPerCluster_eq]

theorem length_chainData (chain : List Nat) :
    (vol.chainData chain).length = chain.length * vol.geom.bytesPerCluster := by
  grind [length_map, chainData, length_clusterData, length_flatten_of_forall]

/-- The position `pos` of a chain lies at `pos % b` of the cluster `pos / b`. -/
theorem drop_chainData (chain : List Nat) (pos : Nat) :
    (vol.chainData chain).drop pos =
      (vol.chainData (chain.drop (pos / vol.geom.bytesPerCluster))).drop
        (pos % vol.geom.bytesPerCluster) := by
  unfold chainData
  rw [map_drop, ← drop_flatten (b := vol.geom.bytesPerCluster), drop_drop,
    Nat.div_add_mod']
  intro B hB
  obtain ⟨c, -, rfl⟩ := mem_map.mp hB
  exact length_clusterData c

/-- The clusters of a volume start inside it, so their sector numbers do not wrap. -/
theorem clusterToSector_eq (h : vol.InRange cluster) :
    clusterToSector cluster vol.geom =
      some (vol.geom.dataStartSector + (cluster - 2) * vol.geom.sectorsPerCluster) :=
  vol.valid.clusterToSector_eq h

/-- The FAT has an entry for every cluster, in a sector of the volume. -/
theorem fatEntryLocation_eq (h : cluster ≤ vol.geom.maxCluster) :
    fatEntryLocation cluster vol.geom =
      some (vol.geom.fatStartSector + cluster * 4 / sectorSize, cluster * 4 % sectorSize) :=
  vol.valid.fatEntryLocation_eq h

end Volume

end Lockjaw.Fat
