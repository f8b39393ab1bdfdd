/-
  Lockjaw.Fat.Server

  The FAT32 server: its open-file table and the open, read and close requests.  A
  read walks the FAT chain from the file's first cluster to the cursor and copies
  cluster by cluster into the handle's buffer.

  The buffer is a PageSet that the client has mapped too, so its contents are kept
  by PageSet (`pages`).  `Io` says which of the block transfers of one read
  succeed; the directory search of an open is represented by the entry it finds.
-/

import Lockjaw.Cap.PageTable
import Lockjaw.Fat.Volume

namespace Lockjaw.Fat

open Lib List
open Cap (pageSize)

/-! ## Requests to the block server -/

/-- `FsError`: the statuses of the server, and the failures of a call. -/
inductive FsError where
  | notFound
  | invalid
  | tooManyOpen
  | io
  | pathTooLong
  | invalidBufferPages
  | allocFailed
  | isDirectory
  | notDirectory
  | unknown
  | ipcFailed
  deriving DecidableEq, Repr

/-- Whether the read request is delivered, and which of its FAT and cluster transfers succeed, by
    their order. -/
structure Io where
  delivered : Bool
  fat : Nat → Bool
  data : Nat → Bool

/-- Nothing fails. -/
structure Io.Ok (io : Io) : Prop where
  delivered : io.delivered = true
  fat : ∀ i, io.fat i = true
  data : ∀ j, io.data j = true

variable (vol : Volume)

/-- `Mount::read_cluster` and `cluster_bytes` -/
def readCluster (ok : Bool) (cluster : Nat) : Except FsError Bytes :=
  match clusterToSector cluster vol.geom with
  | none => .error .io
  | some startSector =>
    if ok then .ok (vol.disk.read startSector vol.geom.sectorsPerCluster) else .error .io

/-- `Mount::fat_next` -/
def fatNext (ok : Bool) (cluster : Nat) : Except FsError FatEntry :=
  match fatEntryLocation cluster vol.geom with
  | none => .error .io
  | some (sector, inSectorOffset) =>
    if ok then .ok (decodeFatEntryValue (leAt (vol.disk.sector sector) 4 inSectorOffset))
    else .error .io

/-! ## The open-file table -/

def maxOpenFiles : Nat := 8

structure OpenFile where
  callerToken : UInt64
  startCluster : Nat
  size : UInt32
  cursor : Nat
  bufferPs : Nat
  bufferSizeBytes : Nat
  bufferPages : Nat
  deriving DecidableEq, Repr

/-- The server's table, the contents of PageSets, and the next PageSet the kernel hands out. -/
structure Fs where
  table : List (Option OpenFile)
  pages : Nat → Bytes
  nextPs : Nat

def Fs.init : Fs := ⟨replicate maxOpenFiles none, fun _ => [], 0⟩

namespace Fs

/-- `OpenTable::get` -/
def get (handle : Nat) (callerToken : UInt64) (fs : Fs) : Option OpenFile :=
  if handle = 0 then none
  else
    match fs.table[handle - 1]? with
    | some (some of) => if of.callerToken = callerToken then some of else none
    | _ => none

def put (handle : Nat) (slot : Option OpenFile) (fs : Fs) : Fs :=
  { fs with table := fs.table.set (handle - 1) slot }

def setPage (ps : Nat) (bytes : Bytes) (fs : Fs) : Fs :=
  { fs with pages := fun ps' => if ps' = ps then bytes else fs.pages ps' }

/-- `sys_alloc_pages`: a PageSet of `size` bytes that holds what was there before. -/
def allocPages (size : Nat) (stale : Nat → UInt8) (fs : Fs) : Fs :=
  { fs.setPage fs.nextPs ((range size).map stale) with nextPs := fs.nextPs + 1 }

end Fs

/-! ## Open and close -/

/-- A directory entry, as the path search finds it. -/
structure DirEntry where
  isDirectory : Bool
  firstCluster : Nat
  size : UInt32
  deriving DecidableEq, Repr

/-- What the kernel answers during an open, and what a fresh page holds. -/
structure OpenAnswers where
  alloc : Bool
  va : Bool
  map : Bool
  exported : Bool
  stale : Nat → UInt8

/-- `handle_open`: the handle, its buffer and the buffer's size. -/
def handleOpen (callerToken : UInt64) (resolved : Except FsError DirEntry) (bufferPages : Nat)
    (a : OpenAnswers) (fs : Fs) : Except FsError (Nat × Nat × Nat) × Fs :=
  match resolved with
  | .error e => (.error e, fs)
  | .ok entry =>
    if entry.isDirectory then (.error .isDirectory, fs)
    else if !a.alloc then (.error .allocFailed, fs)
    else
      let bufferPs := fs.nextPs
      let bufferSizeBytes := bufferPages * pageSize
      let fs := fs.allocPages bufferSizeBytes a.stale
      if !a.va then (.error .allocFailed, fs)
      else if !a.map then (.error .allocFailed, fs)
      else
        match fs.table.findIdx? Option.isNone with
        | none => (.error .tooManyOpen, fs)
        | some idx =>
          -- a failed export takes the entry out again
          if !a.exported then (.error .allocFailed, fs)
          else
            (.ok (idx + 1, bufferPs, bufferSizeBytes),
              fs.put (idx + 1) (some { callerToken, startCluster := entry.firstCluster
                                       size := entry.size, cursor := 0, bufferPs
                                       bufferSizeBytes, bufferPages }))

def handleClose (callerToken : UInt64) (handle : Nat) (fs : Fs) : Except FsError Unit × Fs :=
  match fs.get handle callerToken with
  | none => (.error .invalid, fs)
  | some _ => (.ok (), fs.put handle none)

/-! ## Read -/

/-- The chain walk of `handle_read`, `n` clusters on; FAT transfer `i` is next. -/
def skipClusters (io : Io) : Nat → Nat → Nat → Except FsError Nat
  | 0, _, cluster => .ok cluster
  | n + 1, i, cluster =>
    match fatNext vol (io.fat i) cluster with
    | .ok (.used next) => skipClusters io n (i + 1) next
    | _ => .error .io

/-- The copy loop of `handle_read`.  Every round copies at least one byte, so `bytesLeft` rounds
    are enough. -/
def copyClusters (io : Io) :
    (fuel i j cluster inClusterOffset bytesLeft destOffset : Nat) → Bytes →
    Except FsError Nat × Bytes
  | 0, _, _, _, _, _, _, buf => (.error .io, buf)
  | fuel + 1, i, j, cluster, inClusterOffset, bytesLeft, destOffset, buf =>
    match readCluster vol (io.data j) cluster with
    | .error _ => (.error .io, buf)
    | .ok clusterBytes =>
      let inThisCluster := min (vol.geom.bytesPerCluster - inClusterOffset) bytesLeft
      let buf := writeAt buf destOffset ((clusterBytes.drop inClusterOffset).take inThisCluster)
      let destOffset := destOffset + inThisCluster
      let bytesLeft := bytesLeft - inThisCluster
      if bytesLeft = 0 then (.ok destOffset, buf)
      else
        match fatNext vol (io.fat i) cluster with
        | .ok (.used next) =>
          copyClusters io fuel (i + 1) (j + 1) next 0 bytesLeft destOffset buf
        | .ok .endOfChain => (.ok destOffset, buf)
        | _ => (.error .io, buf)

/-- `handle_read`: the number of bytes put into the handle's buffer. -/
def handleRead (io : Io) (callerToken : UInt64) (handle len : Nat) (fs : Fs) :
    Except FsError Nat × Fs :=
  match fs.get handle callerToken with
  | none => (.error .invalid, fs)
  | some of =>
    let remaining := of.size.toNat - of.cursor
    let toRead := min (min len of.bufferSizeBytes) remaining
    if toRead = 0 then (.ok 0, fs)
    else
      let bytesPerCluster := vol.geom.bytesPerCluster
      let skip := of.cursor / bytesPerCluster
      match skipClusters vol io skip 0 of.startCluster with
      | .error e => (.error e, fs)
      | .ok cluster =>
        match copyClusters vol io toRead skip 0 cluster (of.cursor % bytesPerCluster) toRead 0
            (fs.pages of.bufferPs) with
        | (.error e, buf) => (.error e, fs.setPage of.bufferPs buf)
        | (.ok bytesReturned, buf) =>
          (.ok bytesReturned,
            (fs.setPage of.bufferPs buf).put handle
              (some { of with cursor := min (of.cursor + bytesReturned) (2 ^ 32 - 1) }))

/-! ## What a read copies -/

section

variable {vol} {io : Io} {cluster : Nat} {chain : List Nat}

variable {bs : Bytes} {c n i fuel j off left dest : Nat} {buf buf' : Bytes}

theorem length_readCluster {ok : Bool} (h : readCluster vol ok cluster = .ok bs) :
    bs.length = vol.geom.bytesPerCluster := by
  grind [Disk.length_read, Volume.bytesPerCluster_eq, readCluster]

theorem readCluster_of_inRange (h : vol.InRange cluster) (ok : Bool) :
    readCluster vol ok cluster = if ok then .ok (vol.clusterData cluster) else .error .io := by
  unfold readCluster
  rw [Volume.clusterToSector_eq h]
  rfl

theorem fatNext_of_inRange (h : vol.InRange cluster) (ok : Bool) :
    fatNext vol ok cluster = if ok then .ok (vol.fatEntry cluster) else .error .io := by
  unfold fatNext
  rw [Volume.fatEntryLocation_eq h.2]
  rfl

/-- A chain starts at its first cluster and goes on where that one's entry points. -/
theorem isChain_cons (h : vol.IsChain cluster (c :: chain)) :
    c = cluster ∧ vol.InRange cluster ∧
      ∀ c' rest, chain = c' :: rest → vol.fatEntry cluster = .used c' ∧ vol.IsChain c' chain := by
  cases chain with
  | nil =>
    obtain ⟨rfl, hin, -⟩ := h
    exact ⟨rfl, hin, fun c' rest h => by cases h⟩
  | cons c1 rest1 =>
    obtain ⟨rfl, hin, hused, hrest⟩ := h
    refine ⟨rfl, hin, ?_⟩
    rintro c' rest ⟨⟩
    exact ⟨hused, hrest⟩

/-- Skipping inside a chain ends on it, and runs through if no transfer fails. -/
theorem skipClusters_chain (hchain : vol.IsChain cluster chain) (hn : n < chain.length) :
    (io.Ok → ∃ c, skipClusters vol io n i cluster = .ok c) ∧
      ∀ c, skipClusters vol io n i cluster = .ok c → vol.IsChain c (chain.drop n) := by
  induction n generalizing i cluster chain with
  | zero =>
    refine ⟨fun _ => ⟨cluster, rfl⟩, fun c h => ?_⟩
    cases h
    exact hchain
  | succ n ih =>
    cases chain with
    | nil => cases hn
    | cons c0 rest =>
      obtain ⟨rfl, hin, hnext⟩ := isChain_cons hchain
      rw [length_cons, Nat.succ_lt_succ_iff] at hn
      obtain ⟨c', rest', rfl⟩ := exists_cons_of_length_pos (Nat.zero_lt_of_lt hn)
      obtain ⟨hused, hrest⟩ := hnext c' rest' rfl
      unfold skipClusters
      rw [fatNext_of_inRange hin, hused]
      refine ⟨fun hio => ?_, fun c h => ?_⟩
      · rw [hio.fat, if_pos rfl]
        exact (ih hrest hn).1 hio
      · grind

/-- One round of the copy loop writes a chunk of the length it accounts for. -/
theorem length_chunk (hbs : bs.length = vol.geom.bytesPerCluster) (off left : Nat) :
    ((bs.drop off).take (min (vol.geom.bytesPerCluster - off) left)).length =
      min (vol.geom.bytesPerCluster - off) left := by
  rw [length_take, length_drop, hbs]
  omega

/-- The copy loop stays inside the window it was given. -/
theorem copyClusters_bounds {r : Except FsError Nat}
    (h : copyClusters vol io fuel i j cluster off left dest buf = (r, buf'))
    (hfit : dest + left ≤ buf.length) :
    buf'.length = buf.length ∧ ∀ n, r = .ok n → dest ≤ n ∧ n ≤ dest + left := by
  induction fuel generalizing i j cluster off left dest buf with
  | zero =>
    cases h
    exact ⟨rfl, fun n hn => by cases hn⟩
  | succ fuel ih =>
    unfold copyClusters at h
    split at h
    · cases h
      exact ⟨rfl, fun n hn => by cases hn⟩
    next bs hbs =>
    have hchunk := length_chunk (length_readCluster hbs) off left
    dsimp only at h
    generalize hm : min (vol.geom.bytesPerCluster - off) left = m at h hchunk
    have hmle : m ≤ left := by omega
    have hlen : (writeAt buf dest ((bs.drop off).take m)).length = buf.length :=
      length_writeAt (by omega)
    split at h
    all_goals grind

/-- On a chain with enough data the copy loop, if no transfer fails, copies exactly the bytes from
    its offset on. -/
theorem copyClusters_chain (hchain : vol.IsChain cluster chain)
    (h : copyClusters vol io fuel i j cluster off left dest buf = (.ok n, buf'))
    (hoff : off < vol.geom.bytesPerCluster) (hpos : 0 < left) (hfuel : left ≤ fuel)
    (hdata : off + left ≤ (vol.chainData chain).length) (hfit : dest + left ≤ buf.length) :
    n = dest + left ∧
      buf'.take n = buf.take dest ++ ((vol.chainData chain).drop off).take left := by
  induction fuel generalizing i j cluster chain off left dest buf with
  | zero => omega
  | succ fuel ih =>
    cases chain with
    | nil =>
      rw [Volume.length_chainData, length_nil, Nat.zero_mul] at hdata
      omega
    | cons c rest =>
      obtain ⟨rfl, hin, hnext⟩ := isChain_cons hchain
      change off + left ≤ (vol.clusterData c ++ vol.chainData rest).length at hdata
      rw [length_append, vol.length_clusterData] at hdata
      -- what the first cluster has, and the rest from the next ones
      have hsplit := take_drop_append (hoff.le.trans_eq (vol.length_clusterData c).symm)
        (vol.chainData rest) left
      rw [vol.length_clusterData] at hsplit
      have hchunk := length_chunk (vol.length_clusterData c) off left
      have hwrite := take_writeAt (by omega : dest ≤ buf.length)
        (((vol.clusterData c).drop off).take (min (vol.geom.bytesPerCluster - off) left))
      have hwlen : (writeAt buf dest (((vol.clusterData c).drop off).take
          (min (vol.geom.bytesPerCluster - off) left))).length = buf.length :=
        length_writeAt (by omega)
      unfold copyClusters at h
      rw [readCluster_of_inRange hin] at h
      cases hio : io.data j with
      | false => simp [hio] at h
      | true =>
        simp only [hio, if_true] at h
        -- this round copies `m` bytes, the rounds after it the others
        generalize hm : min (vol.geom.bytesPerCluster - off) left = m
          at h hchunk hsplit hwrite hwlen
        rw [hchunk] at hwrite
        change _ ∧ _ = _ ++ ((vol.clusterData c ++ vol.chainData rest).drop off).take left
        rw [hsplit]
        split at h
        · grind
        next hmore =>
        have hrest : rest ≠ [] := by
          rintro rfl
          rw [Volume.length_chainData, length_nil, Nat.zero_mul] at hdata
          omega
        obtain ⟨c', rest', rfl⟩ := exists_cons_of_ne_nil hrest
        obtain ⟨hused, hchain'⟩ := hnext c' rest' rfl
        rw [fatNext_of_inRange hin, hused] at h
        grind

/-- On a chain the copy loop runs through if no transfer fails. -/
theorem copyClusters_ok (hio : io.Ok)
    (hchain : vol.IsChain cluster chain) (hne : chain ≠ []) (hoff : off < vol.geom.bytesPerCluster)
    (hpos : 0 < left) (hfuel : left ≤ fuel) :
    ∃ n, (copyClusters vol io fuel i j cluster off left dest buf).1 = .ok n := by
  induction fuel generalizing i j cluster chain off left dest buf with
  | zero => omega
  | succ fuel ih =>
    obtain ⟨c, rest, rfl⟩ := exists_cons_of_ne_nil hne
    obtain ⟨rfl, hin, hnext⟩ := isChain_cons hchain
    unfold copyClusters
    rw [readCluster_of_inRange hin, hio.data, if_pos rfl]
    dsimp only
    split
    · exact ⟨_, rfl⟩
    rw [fatNext_of_inRange hin, hio.fat, if_pos rfl]
    cases rest with
    | nil =>
      rw [hchain.2.2]
      exact ⟨_, rfl⟩
    | cons c' rest' =>
      obtain ⟨hused, hchain'⟩ := hnext c' rest' rfl
      rw [hused]
      exact ih hchain' (cons_ne_nil _ _) Volume.bytesPerCluster_pos (by omega) (by omega)

end

/-! ## What a request does to the table -/

/-- The open file of a handle, whoever opened it. -/
def Fs.slot (handle : Nat) (fs : Fs) : Option OpenFile :=
  if handle = 0 then none else (fs.table[handle - 1]?).join

/-- Every open file has a buffer of its own of the size it states, and a cursor inside the file. -/
structure Fs.Inv (fs : Fs) : Prop where
  buffer : ∀ h of, fs.slot h = some of →
    of.bufferPs < fs.nextPs ∧ (fs.pages of.bufferPs).length = of.bufferSizeBytes
  cursor : ∀ h of, fs.slot h = some of → of.cursor ≤ of.size.toNat
  apart : ∀ h h' of of', fs.slot h = some of → fs.slot h' = some of' → h ≠ h' →
    of.bufferPs ≠ of'.bufferPs

namespace Fs

variable {fs : Fs} {handle : Nat} {token : UInt64} {of : OpenFile}

theorem get_eq_some : fs.get handle token = some of ↔
    fs.slot handle = some of ∧ of.callerToken = token := by
  unfold get slot
  by_cases h0 : handle = 0
  · simp [h0]
  rw [if_neg h0, if_neg h0]
  cases hs : fs.table[handle - 1]? with
  | none => simp
  | some o =>
    cases o with
    | none => simp
    | some of' =>
      by_cases ht : of'.callerToken = token
      all_goals grind

theorem slot_put {h : Nat} (hpos : handle ≠ 0) (hlt : handle - 1 < fs.table.length)
    (o : Option OpenFile) : (fs.put handle o).slot h = if h = handle then o else fs.slot h := by
  unfold put slot
  grind

/-- A handle that is open can be overwritten. -/
theorem slot_put_of_slot (h : fs.slot handle = some of) (o : Option OpenFile) (h' : Nat) :
    (fs.put handle o).slot h' = if h' = handle then o else fs.slot h' := by grind [slot, slot_put]

@[simp] theorem pages_put (handle : Nat) (o : Option OpenFile) (fs : Fs) :
    (fs.put handle o).pages = fs.pages := rfl

theorem pages_setPage_self (ps : Nat) (bytes : Bytes) (fs : Fs) :
    (fs.setPage ps bytes).pages ps = bytes := if_pos rfl

theorem pages_setPage_of_ne {ps ps' : Nat} (h : ps' ≠ ps) (bytes : Bytes) (fs : Fs) :
    (fs.setPage ps bytes).pages ps' = fs.pages ps' := if_neg h

end Fs

section

variable {fs fs' : Fs} {handle : Nat} {token : UInt64} {of : OpenFile}

/-- What an open that returned a handle did. -/
structure Opened (token : UInt64) (entry : DirEntry) (bufferPages : Nat) (fs fs' : Fs)
    (handle ps size : Nat) : Prop where
  free : fs.slot handle = none
  slot : ∀ h, fs'.slot h =
    if h = handle then some { callerToken := token, startCluster := entry.firstCluster
                              size := entry.size, cursor := 0, bufferPs := ps
                              bufferSizeBytes := size, bufferPages }
    else fs.slot h
  fresh : ps = fs.nextPs
  pages : size = bufferPages * pageSize
  length : (fs'.pages ps).length = size

/-- Of the PageSets handed out before, none has changed. -/
structure Kept (fs fs' : Fs) : Prop where
  next : fs.nextPs ≤ fs'.nextPs
  pages : ∀ ps < fs.nextPs, fs'.pages ps = fs.pages ps

theorem Fs.allocPages_spec (size : Nat) (stale : Nat → UInt8) (fs : Fs) :
    (fs.allocPages size stale).nextPs = fs.nextPs + 1 ∧
      ((fs.allocPages size stale).pages fs.nextPs).length = size ∧
      Kept fs (fs.allocPages size stale) := by
  refine ⟨rfl, ?_, ⟨Nat.le_succ _, fun ps hps => Fs.pages_setPage_of_ne (Nat.ne_of_lt hps) _ _⟩⟩
  show ((fs.setPage fs.nextPs _).pages fs.nextPs).length = size
  rw [Fs.pages_setPage_self, length_map, length_range]

variable {resolved : Except FsError DirEntry} {bufferPages : Nat} {a : OpenAnswers}
  {r : Except FsError (Nat × Nat × Nat)}

theorem handleOpen_spec (h : handleOpen token resolved bufferPages a fs = (r, fs')) :
    Kept fs fs' ∧ ((∃ e, r = .error e ∧ ∀ h, fs'.slot h = fs.slot h) ∨
      ∃ entry handle ps size, resolved = .ok entry ∧ r = .ok (handle, ps, size) ∧
        fs'.nextPs = fs.nextPs + 1 ∧ Opened token entry bufferPages fs fs' handle ps size) := by
  unfold handleOpen at h
  have hkeep : Kept fs fs := ⟨le_rfl, fun _ _ => rfl⟩
  split at h
  · cases h
    exact ⟨hkeep, .inl ⟨_, rfl, fun _ => rfl⟩⟩
  next entry =>
  split at h
  · cases h
    exact ⟨hkeep, .inl ⟨_, rfl, fun _ => rfl⟩⟩
  split at h
  · cases h
    exact ⟨hkeep, .inl ⟨_, rfl, fun _ => rfl⟩⟩
  -- a fresh PageSet is there from here on
  dsimp only at h
  have hslot : ∀ h, (fs.allocPages (bufferPages * pageSize) a.stale).slot h = fs.slot h :=
    fun _ => rfl
  obtain ⟨hnext, hfresh, hkeep1⟩ := fs.allocPages_spec (bufferPages * pageSize) a.stale
  generalize fs.allocPages (bufferPages * pageSize) a.stale = fs1 at h hslot hnext hfresh hkeep1
  split at h
  · cases h
    exact ⟨hkeep1, .inl ⟨_, rfl, hslot⟩⟩
  split at h
  · cases h
    exact ⟨hkeep1, .inl ⟨_, rfl, hslot⟩⟩
  split at h
  · cases h
    exact ⟨hkeep1, .inl ⟨_, rfl, hslot⟩⟩
  next idx hidx =>
  split at h
  · cases h
    exact ⟨hkeep1, .inl ⟨_, rfl, hslot⟩⟩
  cases h
  obtain ⟨hlt, hnone, -⟩ := findIdx?_eq_some_iff_getElem.mp hidx
  refine ⟨⟨hkeep1.next, hkeep1.pages⟩, .inr ⟨entry, idx + 1, fs.nextPs, _, rfl, rfl, hnext, ?_⟩⟩
  refine ⟨?_, fun h => ?_, rfl, rfl, ?_⟩
  · rw [← hslot]
    unfold Fs.slot
    rw [if_neg (Nat.succ_ne_zero idx), Nat.add_sub_cancel, getElem?_eq_getElem hlt]
    rw [Option.isNone_iff_eq_none] at hnone
    rw [hnone]
    rfl
  · rw [Fs.slot_put (Nat.succ_ne_zero idx) hlt, hslot]
  · rw [Fs.pages_put, hfresh]

theorem Fs.Inv.opened (hinv : fs.Inv)
    (h : handleOpen token resolved bufferPages a fs = (r, fs')) : fs'.Inv := by
  obtain ⟨hkept, ⟨e, -, hslot⟩ | ⟨entry, handle, ps, size, -, -, hnext, ho⟩⟩ := handleOpen_spec h
  · refine ⟨fun h of hof => ?_, fun h of hof => ?_, fun h h' of of' hof hof' => ?_⟩
    · grind [hinv.buffer, hkept.next, hkept.pages]
    · exact hinv.cursor h of (hslot h ▸ hof)
    · exact hinv.apart h h' of of' (hslot h ▸ hof) (hslot h' ▸ hof')
  · have hps := ho.fresh
    have hold {h : Nat} {of : OpenFile} (hof : fs.slot h = some of) : of.bufferPs < ps :=
      hps ▸ (hinv.buffer h of hof).1
    refine ⟨fun h of hof => ?_, fun h of hof => ?_, fun h h' of of' hof hof' hne => ?_⟩
    · grind [hinv.buffer, hkept.pages, ho.length, ho.slot]
    · rw [ho.slot] at hof
      split at hof
      · cases hof
        exact Nat.zero_le _
      · exact hinv.cursor h of hof
    · grind [hinv.apart, ho.slot]

theorem handleClose_spec {r : Except FsError Unit} (h : handleClose token handle fs = (r, fs')) :
    fs'.pages = fs.pages ∧ fs'.nextPs = fs.nextPs ∧
      ((∃ e, r = .error e ∧ fs' = fs) ∨
        r = .ok () ∧ ∀ h, fs'.slot h = if h = handle then none else fs.slot h) := by
  unfold handleClose at h
  split at h
  · cases h
    exact ⟨rfl, rfl, .inl ⟨_, rfl, rfl⟩⟩
  next of hget =>
  cases h
  exact ⟨rfl, rfl, .inr ⟨rfl, Fs.slot_put_of_slot (Fs.get_eq_some.mp hget).1 none⟩⟩

theorem Fs.Inv.closed {r : Except FsError Unit} (hinv : fs.Inv)
    (h : handleClose token handle fs = (r, fs')) : fs'.Inv := by
  obtain ⟨hpages, hnext, ⟨e, -, rfl⟩ | ⟨-, hslot⟩⟩ := handleClose_spec h
  · exact hinv
  have hold {h : Nat} {of : OpenFile} (hof : fs'.slot h = some of) : fs.slot h = some of := by
    rw [hslot] at hof
    split at hof
    · cases hof
    · exact hof
  refine ⟨fun h of hof => ?_, fun h of hof => hinv.cursor h of (hold hof),
    fun h h' of of' hof hof' => hinv.apart h h' of of' (hold hof) (hold hof')⟩
  rw [hpages, hnext]
  exact hinv.buffer h of (hold hof)

end

/-! ## What a read does -/

/-- The chain of an open file: valid, without a repetition, and long enough for its size. -/
structure OpenFile.Backed (of : OpenFile) (chain : List Nat) : Prop where
  valid : vol.IsChain of.startCluster chain
  acyclic : chain.Nodup
  enough : of.size.toNat ≤ chain.length * vol.geom.bytesPerCluster

def OpenFile.contents (of : OpenFile) (chain : List Nat) : Bytes :=
  (vol.chainData chain).take of.size.toNat

/-- Inside the file, the contents are the bytes of the chain. -/
theorem OpenFile.take_drop_contents {of : OpenFile} {chain : List Nat} {pos n : Nat}
    (h : pos + n ≤ of.size.toNat) :
    ((of.contents vol chain).drop pos).take n = ((vol.chainData chain).drop pos).take n := by
  unfold OpenFile.contents
  rw [drop_take, take_take, Nat.min_eq_left (by omega)]

section

variable {vol} {fs fs' : Fs} {handle len : Nat} {token : UInt64} {of : OpenFile} {io : Io}
  {r : Except FsError Nat}

/-- What a read of an open file does: it moves the file's cursor by the bytes it returns, or not
    at all, and writes into the file's buffer. -/
structure Reads (fs fs' : Fs) (handle : Nat) (of : OpenFile) (len : Nat)
    (r : Except FsError Nat) (cursor : Nat) : Prop where
  slot : ∀ h, fs'.slot h = if h = handle then some { of with cursor } else fs.slot h
  pages : ∀ ps ≠ of.bufferPs, fs'.pages ps = fs.pages ps
  length : (fs'.pages of.bufferPs).length = (fs.pages of.bufferPs).length
  next : fs'.nextPs = fs.nextPs
  cursor_le : cursor ≤ of.size.toNat
  failed : ∀ e, r = .error e → cursor = of.cursor
  moved : ∀ n, r = .ok n → cursor = of.cursor + n ∧ n ≤ len

/-- A request that changes nothing but the buffer. -/
theorem reads_of_buffer (hinv : fs.Inv) (hslot : fs.slot handle = some of)
    (hpages : ∀ ps ≠ of.bufferPs, fs'.pages ps = fs.pages ps)
    (hlength : (fs'.pages of.bufferPs).length = (fs.pages of.bufferPs).length)
    (hnext : fs'.nextPs = fs.nextPs) (hkeep : ∀ h, fs'.slot h = fs.slot h)
    (hr : ∀ n, r = .ok n → n = 0) : Reads fs fs' handle of len r of.cursor where
  slot h := by
    rw [hkeep]
    split
    · next hh => rw [hh, hslot]
    · rfl
  pages := hpages
  length := hlength
  next := hnext
  cursor_le := hinv.cursor handle of hslot
  failed _ _ := rfl
  moved n hn := by
    rw [hr n hn]
    exact ⟨rfl, Nat.zero_le _⟩

theorem handleRead_reads (hinv : fs.Inv) (hget : fs.get handle token = some of)
    (h : handleRead vol io token handle len fs = (r, fs')) :
    ∃ cursor, Reads fs fs' handle of len r cursor := by
  have hslot := (Fs.get_eq_some.mp hget).1
  have hbuffer := (hinv.buffer handle of hslot).2
  have hcursor := hinv.cursor handle of hslot
  unfold handleRead at h
  rw [hget] at h
  dsimp only at h
  split at h
  · cases h
    refine ⟨_, reads_of_buffer hinv hslot (fun _ _ => rfl) rfl rfl (fun _ => rfl) ?_⟩
    rintro n ⟨⟩
    rfl
  split at h
  · cases h
    exact ⟨_, reads_of_buffer hinv hslot (fun _ _ => rfl) rfl rfl (fun _ => rfl)
      fun n hn => by cases hn⟩
  split at h
  · next e buf hcopy =>
    obtain ⟨hlen, -⟩ := copyClusters_bounds hcopy (by omega)
    cases h
    refine ⟨_, reads_of_buffer hinv hslot (fun ps hps => Fs.pages_setPage_of_ne hps _ _) ?_ rfl
      (fun _ => rfl) fun n hn => by cases hn⟩
    rw [Fs.pages_setPage_self, hlen]
  · next n buf hcopy =>
    obtain ⟨hlen, hn⟩ := copyClusters_bounds hcopy (by omega)
    have hle := (hn n rfl).2
    cases h
    have hsize := of.size.toNat_lt
    have hsat : min (of.cursor + n) (2 ^ 32 - 1) = of.cursor + n := by omega
    refine ⟨of.cursor + n, ?_⟩
    constructor
    · intro h
      have hslot' : (fs.setPage of.bufferPs buf).slot handle = some of := hslot
      rw [Fs.slot_put_of_slot hslot', hsat]
      rfl
    · exact fun ps hps => Fs.pages_setPage_of_ne hps _ _
    · rw [Fs.pages_put, Fs.pages_setPage_self, hlen]
    · rfl
    all_goals grind

variable {chain : List Nat}

/-- A read of a file with a good chain that succeeds returns as much as the request, the buffer and
    the file allow, and the buffer holds the next bytes of the file. -/
theorem handleRead_chain {n : Nat} (hinv : fs.Inv)
    (hget : fs.get handle token = some of) (hbacked : of.Backed vol chain)
    (h : handleRead vol io token handle len fs = (.ok n, fs')) :
    n = min (min len of.bufferSizeBytes) (of.size.toNat - of.cursor) ∧
      (fs'.pages of.bufferPs).take n = ((of.contents vol chain).drop of.cursor).take n := by
  have hslot := (Fs.get_eq_some.mp hget).1
  have hbuffer := (hinv.buffer handle of hslot).2
  have hcursor := hinv.cursor handle of hslot
  have hpos := vol.bytesPerCluster_pos
  have henough := hbacked.enough
  unfold handleRead at h
  rw [hget] at h
  dsimp only at h
  split at h
  · next hzero =>
    cases h
    exact ⟨hzero.symm, by simp⟩
  next hnz =>
  split at h
  · cases h
  next cluster hskip =>
  split at h
  · cases h
  next n' buf hcopy =>
  cases h
  -- the cursor lies inside the chain
  have hlt : of.cursor / vol.geom.bytesPerCluster < chain.length :=
    (Nat.div_lt_iff_lt_mul hpos).mpr (by omega)
  have hchain := (skipClusters_chain hbacked.valid hlt).2 _ hskip
  have hdrop := vol.drop_chainData chain of.cursor
  have hlen := congrArg length hdrop
  rw [length_drop, length_drop, Volume.length_chainData] at hlen
  have hmod := Nat.mod_lt of.cursor hpos
  obtain ⟨hn, htake⟩ := copyClusters_chain hchain hcopy hmod (Nat.pos_of_ne_zero hnz) le_rfl
    (by omega) (by omega)
  rw [Nat.zero_add] at hn
  refine ⟨hn, ?_⟩
  rw [Fs.pages_put, Fs.pages_setPage_self, htake, take_zero, nil_append, hn,
    OpenFile.take_drop_contents vol (by omega), hdrop]

/-- A read of a file with a good chain fails only if something fails on the way. -/
theorem handleRead_ok (hio : io.Ok) (hinv : fs.Inv)
    (hget : fs.get handle token = some of) (hbacked : of.Backed vol chain) :
    ∃ n, (handleRead vol io token handle len fs).1 = .ok n := by
  have hcursor := hinv.cursor handle of (Fs.get_eq_some.mp hget).1
  have hpos := vol.bytesPerCluster_pos
  have henough := hbacked.enough
  unfold handleRead
  rw [hget]
  dsimp only
  split
  · exact ⟨0, rfl⟩
  next hnz =>
  have hlt : of.cursor / vol.geom.bytesPerCluster < chain.length :=
    (Nat.div_lt_iff_lt_mul hpos).mpr (by omega)
  obtain ⟨c, hskip⟩ := (skipClusters_chain hbacked.valid hlt).1 hio
  rw [hskip]
  dsimp only
  have hchain := (skipClusters_chain hbacked.valid hlt).2 _ hskip
  have hne : chain.drop (of.cursor / vol.geom.bytesPerCluster) ≠ [] := by
    rw [ne_eq, drop_eq_nil_iff]
    omega
  obtain ⟨n, hcopy⟩ := copyClusters_ok hio hchain hne (Nat.mod_lt _ hpos)
    (Nat.pos_of_ne_zero hnz) le_rfl
  split
  · next e buf hfail =>
    rw [hfail] at hcopy
    cases hcopy
  · exact ⟨_, rfl⟩

theorem Fs.Inv.read {cursor : Nat} (hinv : fs.Inv) (hslot : fs.slot handle = some of)
    (hr : Reads fs fs' handle of len r cursor) : fs'.Inv := by
  refine ⟨fun h of' hof => ?_, fun h of' hof => ?_, fun h h' of1 of2 hof1 hof2 hne => ?_⟩
  · rw [hr.slot] at hof
    rw [hr.next]
    split at hof
    · cases hof
      obtain ⟨hlt, hlen⟩ := hinv.buffer handle of hslot
      exact ⟨hlt, hr.length.trans hlen⟩
    · next hh =>
      obtain ⟨hlt, hlen⟩ := hinv.buffer h of' hof
      refine ⟨hlt, ?_⟩
      rw [hr.pages _ (hinv.apart h handle of' of hof hslot hh), hlen]
  · rw [hr.slot] at hof
    split at hof
    · cases hof
      exact hr.cursor_le
    · exact hinv.cursor h of' hof
  · grind [hinv.apart, hr.slot]

end

end Lockjaw.Fat
