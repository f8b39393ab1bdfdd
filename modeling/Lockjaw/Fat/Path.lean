/-
  Lockjaw.Fat.Path

  How fat32-server finds the file of a path: `parse_dirent`, `iter_dir` and
  `match_8_3` of lockjaw-types/src/fat32.rs, `lookup_in_dir` and `resolve_path` of
  the server; and which opens and reads are answered.

  `lookup_in_dir` follows the FAT for as long as its entries point on, with no
  bound, so its model has fuel, and `none` means that it has not returned yet.
-/

import Lockjaw.Fat.Server
import Mathlib.Data.Set.Finite.Range
import Mathlib.Logic.Relation
import Mathlib.Order.Interval.Finset.Nat
import Mathlib.Order.WellFounded

namespace Lockjaw.Fat

open Relation

/-! ## Directories -/

def attrVolumeId : UInt8 := 0x08
def attrDirectory : UInt8 := 0x10
def attrLfnMask : UInt8 := 0x0F

/-- `fat32::DirEntry`, with its name as on the disk, padded to 8 + 3 bytes. -/
structure Dirent where
  name : Bytes
  attr : UInt8
  firstCluster : Nat
  size : UInt32

def Dirent.isDirectory (entry : Dirent) : Bool := entry.attr &&& attrDirectory ≠ 0

inductive DirEntryStatus where
  | endOfDir
  | skip
  | entry (entry : Dirent)

/-- `parse_dirent`; a first byte 0x05 stands for 0xE5. -/
def parseDirent (bytes : Bytes) : DirEntryStatus :=
  let first := byteAt bytes 0
  let attr := byteAt bytes 11
  if first = 0x00 then .endOfDir
  else if first = 0xE5 then .skip
  else if attr &&& attrLfnMask = attrLfnMask then .skip
  else if attr &&& attrVolumeId ≠ 0 then .skip
  else
    let name := (bytes.take 11).set 0 (if first = 0x05 then 0xE5 else first)
    let firstCluster := leAt bytes 2 20 * 2 ^ 16 + leAt bytes 2 26
    .entry ⟨name, attr, firstCluster, UInt32.ofNat (leAt bytes 4 28)⟩

/-- `iter_dir` over the first `slots` slots of 32 bytes. -/
def iterDir : (slots : Nat) → Bytes → List Dirent
  | 0, _ => []
  | slots + 1, bytes =>
    match parseDirent (bytes.take 32) with
    | .endOfDir => []
    | .skip => iterDir slots (bytes.drop 32)
    | .entry entry => entry :: iterDir slots (bytes.drop 32)

def asciiUppercase (b : UInt8) : UInt8 := if 0x61 ≤ b ∧ b ≤ 0x7A then b - 32 else b

/-- In upper case, padded with blanks to `n` bytes. -/
def canon (n : Nat) (part : Bytes) : Bytes :=
  part.map asciiUppercase ++ List.replicate (n - part.length) 0x20

/-- `match_8_3`; 0x2E is the dot. -/
def match83 (query : Bytes) (entry : Dirent) : Bool :=
  let namePart := query.takeWhile (· ≠ 0x2E)
  let extPart := (query.dropWhile (· ≠ 0x2E)).drop 1
  if query = [0x2E] then entry.name.take 2 = [0x2E, 0x20]
  else if query = [0x2E, 0x2E] then entry.name.take 3 = [0x2E, 0x2E, 0x20]
  else if namePart = [] then false
  else if namePart.length > 8 ∨ extPart.length > 3 then false
  else canon 8 namePart ++ canon 3 extPart = entry.name

/-- The first entry of the slots of a cluster that `name` matches. -/
def lookup (dirData name : Bytes) : Option Dirent :=
  (iterDir (dirData.length / 32) dirData).find? (match83 name)

/-! ## Paths -/

variable (vol : Volume)

/-- One round of the loop of `lookup_in_dir`: the answer, or the next cluster. -/
def lookupRound (io : Io) (name : Bytes) (i cluster : Nat) : Except (Except FsError Dirent) Nat :=
  match readCluster vol (io.data i) cluster with
  | .error e => .error (.error e)
  | .ok dirData =>
    match lookup dirData name with
    | some entry => .error (.ok entry)
    | none =>
      match fatNext vol (io.fat i) cluster with
      | .ok (.used next) => .ok next
      | .ok .endOfChain => .error (.error .notFound)
      | _ => .error (.error .io)

/-- `lookup_in_dir`, from round `i` on. -/
def lookupInDir (io : Io) (name : Bytes) :
    (fuel i cluster : Nat) → Option (Except FsError Dirent)
  | 0, _, _ => none
  | fuel + 1, i, cluster =>
    match lookupRound vol io name i cluster with
    | .error answer => some answer
    | .ok next => lookupInDir io name fuel (i + 1) next

/-- The directory `resolve_path` searches next, after it found `last`. -/
def nextDirectory : (last : Option Dirent) → Except FsError Nat
  | none => .ok vol.geom.rootCluster
  | some prev =>
    if !prev.isDirectory then .error .notDirectory
    else if prev.firstCluster < 2 then .error .notFound
    else .ok prev.firstCluster

/-- The loop of `resolve_path`; `io` and `fuel` say what the transfers of each search do and how
    many rounds it gets. -/
def resolveFrom : (io : Nat → Io) → (fuel : Nat → Nat) → (last : Option Dirent) → List Bytes →
    Option (Except FsError (Option Dirent))
  | _, _, last, [] => some (.ok last)
  | io, fuel, last, component :: rest =>
    match nextDirectory vol last with
    | .error e => some (.error e)
    | .ok cluster =>
      match lookupInDir vol (io 0) component (fuel 0) 0 cluster with
      | none => none
      | some (.error e) => some (.error e)
      | some (.ok entry) =>
        resolveFrom (fun k => io (k + 1)) (fun k => fuel (k + 1)) (some entry) rest

/-- The parts of a path between its slashes (0x2F) that are not empty. -/
def components (path : Bytes) : List Bytes := (path.splitOn 0x2F).filter (· ≠ [])

def resolvePath (io : Nat → Io) (fuel : Nat → Nat) (path : Bytes) :
    Option (Except FsError Dirent) :=
  (resolveFrom vol io fuel none (components path)).map fun
    | .error e => .error e
    | .ok none => .error .notFound
    | .ok (some entry) =>
      if path.getLast? = some 0x2F ∧ !entry.isDirectory then .error .notDirectory else .ok entry

def openPath (io : Nat → Io) (fuel : Nat → Nat) (path : Bytes) (callerToken : UInt64)
    (bufferPages : Nat) (a : OpenAnswers) (fs : Fs) :
    Option (Except FsError (Nat × Nat × Nat) × Fs) :=
  (resolvePath vol io fuel path).map fun r =>
    handleOpen callerToken (r.map fun e => ⟨e.isDirectory, e.firstCluster, e.size⟩) bufferPages a fs

/-! ## Which requests are answered -/

/-- A search for `name` goes on from one cluster to another: the first has no match, and the FAT
    links it to the second. -/
def Volume.GoesOn (name : Bytes) (c d : Nat) : Prop :=
  vol.InRange c ∧ lookup (vol.clusterData c) name = none ∧ vol.fatEntry c = .used d

/-- A search from a cluster on comes to no cluster twice before a match. -/
def Volume.Settles (name : Bytes) (c : Nat) : Prop :=
  ∀ d, ReflTransGen (vol.GoesOn name) c d → ¬ TransGen (vol.GoesOn name) d d

/-- The first match on the way from a cluster on. -/
def Volume.Finds (name : Bytes) (c : Nat) (entry : Dirent) : Prop :=
  ∃ d, ReflTransGen (vol.GoesOn name) c d ∧ vol.InRange d ∧
    lookup (vol.clusterData d) name = some entry

/-- Every directory search on the way along the components settles. -/
def Volume.Searchable : (last : Option Dirent) → List Bytes → Prop
  | _, [] => True
  | last, name :: rest => ∀ c, nextDirectory vol last = .ok c → vol.Settles name c ∧
      ∀ entry, vol.Finds name c entry → Searchable (some entry) rest

/-- The copy loop of a read is over before its model runs out of fuel. -/
def Volume.ReadsEnd : Prop :=
  ∀ io i j cluster cursor toRead dest buf extra, 0 < toRead →
    copyClusters vol io (toRead + extra) i j cluster (cursor % vol.geom.bytesPerCluster) toRead
      dest buf =
    copyClusters vol io toRead i j cluster (cursor % vol.geom.bytesPerCluster) toRead dest buf

/-- Nothing fails. -/
def Io.sound : Io := ⟨true, fun _ => true, fun _ => true⟩

variable {vol} {io : Io} {name : Bytes} {i c : Nat}

/-- What a round does where its cluster exists. -/
theorem lookupRound_of_inRange (hc : vol.InRange c) : lookupRound vol io name i c =
    if io.data i then
      match lookup (vol.clusterData c) name with
      | some entry => .error (.ok entry)
      | none =>
        if io.fat i then
          match vol.fatEntry c with
          | .used next => .ok next
          | .endOfChain => .error (.error .notFound)
          | _ => .error (.error .io)
        else .error (.error .io)
    else .error (.error .io) := by
  unfold lookupRound
  rw [readCluster_of_inRange hc, fatNext_of_inRange hc]
  grind

theorem lookupRound_of_not_inRange (hc : ¬ vol.InRange c) :
    lookupRound vol io name i c = .error (.error .io) := by
  have hnone : clusterToSector c vol.geom = none := by
    unfold Volume.InRange at hc
    exact if_pos (by omega)
  simp [lookupRound, readCluster, hnone]

/-- A round goes on where the transfers succeed and the search does. -/
theorem lookupRound_ok_iff {d : Nat} : lookupRound vol io name i c = .ok d ↔
    io.data i = true ∧ io.fat i = true ∧ vol.GoesOn name c d := by
  unfold Volume.GoesOn
  by_cases hc : vol.InRange c
  · rw [lookupRound_of_inRange hc]
    grind
  · simp [lookupRound_of_not_inRange hc, hc]

/-- A round finds what its cluster holds. -/
theorem lookupRound_found_iff {entry : Dirent} :
    lookupRound vol io name i c = .error (.ok entry) ↔
      io.data i = true ∧ vol.InRange c ∧ lookup (vol.clusterData c) name = some entry := by
  by_cases hc : vol.InRange c
  · rw [lookupRound_of_inRange hc]
    grind
  · simp [lookupRound_of_not_inRange hc, hc]

/-- Clusters are finitely many, so a search that comes to none twice ends. -/
theorem Volume.Settles.acc (h : vol.Settles name c) : Acc (fun d c => vol.GoesOn name c d) c := by
  rw [acc_iff_isEmpty_descending_chain]
  refine ⟨fun ⟨f, h0, hstep⟩ => ?_⟩
  have hreach : ∀ n, ReflTransGen (vol.GoesOn name) c (f n) := fun n => by
    induction n with
    | zero => exact h0 ▸ .refl
    | succ n ih => exact ih.tail (hstep n)
  have hcycle : ∀ i j, i < j → TransGen (vol.GoesOn name) (f i) (f j) := fun i j hij => by
    induction hij with
    | refl => exact .single (hstep i)
    | step _ ih => exact ih.tail (hstep _)
  -- a chain without a repetition would give as many clusters as there are numbers
  have hinj : Function.Injective f := fun i j heq => by
    rcases Nat.lt_trichotomy i j with hij | hij | hij
    · exact absurd (heq ▸ hcycle i j hij) (h _ (hreach i))
    · exact hij
    · exact absurd (heq ▸ hcycle j i hij) (h _ (hreach j))
  exact Set.infinite_range_of_injective hinj
    ((Set.finite_Iic vol.geom.maxCluster).subset (Set.range_subset_iff.mpr fun n => (hstep n).1.2))

/-- A search that ends comes to no cluster twice. -/
theorem Volume.settles_of_acc (h : Acc (fun d c => vol.GoesOn name c d) c) :
    vol.Settles name c := by
  intro d hd
  induction hd using ReflTransGen.head_induction_on with
  | refl =>
    intro hcycle
    induction h with
    | intro d _ ih =>
      obtain ⟨e, hde, hed⟩ := TransGen.head'_iff.mp hcycle
      exact ih e hde (TransGen.tail'_iff.mpr ⟨d, hed, hde⟩)
  | head hstep _ ih => exact ih (h.inv hstep)

theorem Volume.Settles.answered (h : vol.Settles name c) (io : Io) (i : Nat) :
    ∃ fuel r, lookupInDir vol io name fuel i c = some r := by
  have hacc := h.acc
  clear h
  induction hacc generalizing i with
  | intro c _ ih =>
    cases hround : lookupRound vol io name i c with
    | error answer => exact ⟨1, answer, by rw [lookupInDir, hround]⟩
    | ok d =>
      obtain ⟨fuel, r, hr⟩ := ih d (lookupRound_ok_iff.mp hround).2.2 (i + 1)
      exact ⟨fuel + 1, r, by rw [lookupInDir, hround]; exact hr⟩

variable {fuel : Nat} {r : Except FsError Dirent}

/-- A search that returns without a failed transfer settles. -/
theorem settles_of_answered (h : lookupInDir vol Io.sound name fuel i c = some r) :
    vol.Settles name c := by
  apply Volume.settles_of_acc
  induction fuel generalizing i c with
  | zero => cases h
  | succ fuel ih =>
    refine ⟨c, fun d hd => ?_⟩
    rw [lookupInDir, lookupRound_ok_iff.mpr ⟨rfl, rfl, hd⟩] at h
    exact ih h

/-- More fuel does not change what a search returns. -/
theorem lookupInDir_unique {fuel' : Nat} {r' : Except FsError Dirent}
    (h : lookupInDir vol io name fuel i c = some r)
    (h' : lookupInDir vol io name fuel' i c = some r') : r = r' := by
  induction fuel generalizing fuel' i c with
  | zero => cases h
  | succ fuel ih =>
    cases fuel' with
    | zero => cases h'
    | succ fuel' =>
      rw [lookupInDir] at h h'
      cases hround : lookupRound vol io name i c with
      | error answer =>
        rw [hround] at h h'
        exact Option.some.inj (h.symm.trans h')
      | ok d =>
        rw [hround] at h h'
        exact ih h h'

/-- A search finds the first match on its way, and finds it where no transfer fails. -/
theorem finds_of_lookupInDir {entry : Dirent}
    (h : lookupInDir vol io name fuel i c = some (.ok entry)) : vol.Finds name c entry := by
  induction fuel generalizing i c with
  | zero => cases h
  | succ fuel ih =>
    rw [lookupInDir] at h
    cases hround : lookupRound vol io name i c with
    | error answer =>
      rw [hround] at h
      cases h
      exact ⟨c, .refl, (lookupRound_found_iff.mp hround).2⟩
    | ok d =>
      rw [hround] at h
      obtain ⟨e, hde, he⟩ := ih h
      exact ⟨e, .head (lookupRound_ok_iff.mp hround).2.2 hde, he⟩

theorem Volume.Finds.lookupInDir {entry : Dirent} (h : vol.Finds name c entry) (i : Nat) :
    ∃ fuel, lookupInDir vol Io.sound name fuel i c = some (.ok entry) := by
  obtain ⟨d, hcd, hd⟩ := h
  induction hcd using ReflTransGen.head_induction_on generalizing i with
  | refl =>
    refine ⟨1, ?_⟩
    rw [Fat.lookupInDir, lookupRound_found_iff.mpr ⟨rfl, hd⟩]
  | head hstep _ ih =>
    obtain ⟨fuel, hfuel⟩ := ih (i + 1)
    refine ⟨fuel + 1, ?_⟩
    rw [Fat.lookupInDir, lookupRound_ok_iff.mpr ⟨rfl, rfl, hstep⟩]
    exact hfuel

theorem resolveFrom_answered_iff {last : Option Dirent} {names : List Bytes} :
    (∀ io, ∃ fuel, (resolveFrom vol io fuel last names).isSome) ↔ vol.Searchable last names := by
  induction names generalizing last with
  | nil => exact ⟨fun _ => trivial, fun _ _ => ⟨fun _ => 0, rfl⟩⟩
  | cons name rest ih =>
    cases hdir : nextDirectory vol last with
    | error e => simp [resolveFrom, Volume.Searchable, hdir]
    | ok c =>
      constructor
      · intro h c' hc'
        obtain rfl := Except.ok.inj (hdir.symm.trans hc')
        refine ⟨?_, fun entry hfinds => ih.mp fun ios => ?_⟩
        · obtain ⟨fuel, hdone⟩ := h fun _ => Io.sound
          cases hr : lookupInDir vol Io.sound name (fuel 0) 0 c with
          | none => simp [resolveFrom, hdir, hr] at hdone
          | some r => exact settles_of_answered hr
        · -- the first search without a failure, the others with `ios`
          obtain ⟨fuel, hfound⟩ := hfinds.lookupInDir 0
          obtain ⟨fuels, hdone⟩ := h (Nat.rec Io.sound fun k _ => ios k)
          refine ⟨fun k => fuels (k + 1), ?_⟩
          cases hr : lookupInDir vol Io.sound name (fuels 0) 0 c with
          | none => simp [resolveFrom, hdir, hr] at hdone
          | some r =>
            obtain rfl := lookupInDir_unique hfound hr
            simpa [resolveFrom, hdir, hr] using hdone
      · intro h io
        obtain ⟨hsettles, hrest⟩ := h c hdir
        obtain ⟨fuel, r, hr⟩ := hsettles.answered (io 0) 0
        cases r with
        | error e => exact ⟨fun _ => fuel, by simp [resolveFrom, hdir, hr]⟩
        | ok entry =>
          obtain ⟨fuels, hdone⟩ := ih.mpr (hrest entry (finds_of_lookupInDir hr)) fun k => io (k + 1)
          exact ⟨Nat.rec fuel fun k _ => fuels k, by simpa [resolveFrom, hdir, hr] using hdone⟩

/-- Every round of the copy loop copies a byte or more. -/
theorem copyClusters_fuel {fuel extra j off left dest : Nat} {buf : Bytes}
    (hoff : off < vol.geom.bytesPerCluster) (hpos : 0 < left) (hfuel : left ≤ fuel) :
    copyClusters vol io (fuel + extra) i j c off left dest buf =
      copyClusters vol io fuel i j c off left dest buf := by
  induction fuel generalizing i j c off left dest buf with
  | zero => omega
  | succ fuel ih =>
    rw [Nat.succ_add]
    unfold copyClusters
    split
    · rfl
    dsimp only
    split
    · rfl
    split
    · exact ih vol.bytesPerCluster_pos (by omega) (by omega)
    · rfl
    · rfl

/-- Every open of a path and every read is answered exactly when every directory search on the
    way settles. -/
theorem requests_answered_iff (vol : Volume) (path : Bytes) (token : UInt64) (bufferPages : Nat)
    (a : OpenAnswers) (fs : Fs) :
    ((∀ io, ∃ fuel, (openPath vol io fuel path token bufferPages a fs).isSome) ∧ vol.ReadsEnd) ↔
      vol.Searchable none (components path) := by
  unfold openPath resolvePath
  simp only [Option.isSome_map, resolveFrom_answered_iff]
  refine and_iff_left fun io i j cluster cursor toRead dest buf extra hpos => ?_
  exact copyClusters_fuel (Nat.mod_lt _ vol.bytesPerCluster_pos) hpos (Nat.le_refl _)

/-- The root directory is one empty cluster, which the FAT links to itself. -/
def loopVolume : Volume where
  disk :=
    { sector := fun s =>
        if s = 0 then bootSector else (List.replicate sectorSize 0).set 8 (if s = 1 then 2 else 0)
      length_sector := fun s => by
        split
        · exact length_bootSector
        · rw [List.length_set, List.length_replicate] }
  geom := ⟨512, 1, 1, 1, 512, 513, 2, 66038⟩
  mounted := by decide +kernel

/-- A file that is not there is searched for without end. -/
theorem open_unanswered : ¬ ∃ fuel, (openPath loopVolume (fun _ => Io.sound) fuel [0x41] 7 1
    ⟨true, true, true, true, fun _ => 0⟩ Fs.init).isSome := by
  rintro ⟨fuel, h⟩
  have hself : loopVolume.GoesOn [0x41] 2 2 :=
    ⟨by constructor <;> decide +kernel, by decide +kernel, by decide +kernel⟩
  have hroot : nextDirectory loopVolume none = .ok 2 := rfl
  have hpath : components [0x41] = [[0x41]] := by decide +kernel
  cases hr : lookupInDir loopVolume Io.sound [0x41] (fuel 0) 0 2 with
  | none => simp [openPath, resolvePath, hpath, resolveFrom, hroot, hr] at h
  | some r => exact settles_of_answered hr 2 .refl (.single hself)

end Lockjaw.Fat
