/-
  Lockjaw.User.PosixRead

  Files of a POSIX child: `openat`, `close`, `read` and `readv` of the libc shim,
  through posix-server to the FAT32 server.  Data goes from the handle's buffer to
  the page that posix-server shares with the child, and from there to the caller.

  Lengths are `size_t` on the caller's side and `long` in the shim.  The kernel
  either refuses a call or carries it through, so a call that fails in transport
  (`Io.delivered`) has not reached the server.
-/

import Lockjaw.Fat.Server

namespace Lockjaw.User.PosixRead

open Lib Fat List
open Cap (pageSize)

/-! ## The file descriptor table -/

inductive FdKind where
  | stdio
  | file
  deriving DecidableEq, Repr

structure FdEntry where
  kind : FdKind
  serverHandle : Nat
  flags : UInt32
  deriving DecidableEq, Repr

def maxFds : Nat := 32

def firstUserFd : Nat := 3

/-- posix-server's mapping of the buffer of an open file. -/
structure FileResource where
  bufferPageset : Nat
  bufferSize : Nat
  deriving DecidableEq, Repr

/-- The FAT32 server, the tables of posix-server, and the page it shares with the child. -/
structure World where
  fs : Fs
  fdTable : List (Option FdEntry)
  fileResources : List (Option FileResource)
  shared : Bytes

open World

/-- `FdTable::with_stdio`, and nothing open. -/
def World.boot : World where
  fs := .init
  fdTable := replicate firstUserFd (some ⟨.stdio, 0, 0⟩) ++
    replicate (maxFds - firstUserFd) none
  fileResources := replicate maxFds none
  shared := replicate pageSize 0

/-- `FdTable::lookup` -/
def World.lookup (fd : UInt32) (w : World) : Option FdEntry := (w.fdTable[fd.toNat]?).join

/-- The free descriptor that `FdTable::alloc` takes. -/
def World.freeFd (w : World) : Option Nat :=
  (range' firstUserFd (maxFds - firstUserFd)).find? fun fd => w.fdTable[fd]? == some none

/-! ## posix-server -/

def ebadf : Nat := 9

def einval : Nat := 22

def emfile : Nat := 24

def enomem : Nat := 12

def fsErrorToErrno : FsError → Nat
  | .notFound => 2
  | .isDirectory => 21
  | .notDirectory => 20
  | .tooManyOpen => emfile
  | .allocFailed => enomem
  | .io => 5
  | .pathTooLong | .invalid | .invalidBufferPages | .unknown | .ipcFailed => einval

def negErrno (e : Nat) : Int := -e

/-- What the kernel answers during an `openat`, in the FAT32 server and in posix-server. -/
structure FileOpenAnswers where
  server : OpenAnswers
  va : Bool
  map : Bool

section

variable (vol : Volume) (token : UInt64)

/-- `handle_file_open`, with the result of the path search. -/
def handleFileOpen (a : FileOpenAnswers) (resolved : Except FsError DirEntry) (flags : UInt32)
    (w : World) : Int × World :=
  match handleOpen token resolved 1 a.server w.fs with
  | (.error e, fs) => (negErrno (fsErrorToErrno e), { w with fs })
  | (.ok (handle, pageset, bufferSize), fs) =>
    if !a.va || !a.map then (negErrno enomem, { w with fs := (handleClose token handle fs).2 })
    else
      match w.freeFd with
      | none => (negErrno emfile, { w with fs := (handleClose token handle fs).2 })
      | some fd =>
        (fd, { w with
          fs
          fdTable := w.fdTable.set fd (some ⟨.file, handle, flags⟩)
          fileResources := w.fileResources.set fd (some ⟨pageset, bufferSize⟩) })

def handleFileClose (fd : UInt32) (w : World) : Int × World :=
  match w.lookup fd with
  | none => (negErrno ebadf, w)
  | some ⟨.stdio, _, _⟩ => (negErrno ebadf, w)
  | some ⟨.file, handle, _⟩ =>
    match handleClose token handle w.fs with
    | (.error e, fs) => (negErrno (fsErrorToErrno e), { w with fs })
    | (.ok (), fs) =>
      (0, { w with
        fs
        fdTable := w.fdTable.set fd.toNat none
        fileResources := w.fileResources.set fd.toNat none })

def handleFileRead (io : Io) (fd : UInt32) (len : Nat) (w : World) : Int × World :=
  match w.lookup fd with
  | none => (negErrno ebadf, w)
  | some ⟨.stdio, _, _⟩ => (if fd = 0 then 0 else negErrno ebadf, w)
  | some ⟨.file, handle, _⟩ =>
    match (w.fileResources[fd.toNat]?).join with
    | none => (negErrno ebadf, w)
    | some resource =>
      let cap := min (min (len % 2 ^ 32) resource.bufferSize) pageSize
      if !io.delivered then (negErrno (fsErrorToErrno .ipcFailed), w)
      else
        match handleRead vol io token handle cap w.fs with
        | (.error e, fs) => (negErrno (fsErrorToErrno e), { w with fs })
        | (.ok bytesReturned, fs) =>
          (bytesReturned, { w with
            fs
            shared :=
              writeAt w.shared 0 ((fs.pages resource.bufferPageset).take bytesReturned) })

/-- The `NR_READ` arm of `dispatch` and its action; the length arrives as `u64`. -/
def serveRead (io : Io) (fd : UInt32) (len : Int) (w : World) : Int × World :=
  if len < 0 ∨ len > pageSize then (negErrno einval, w)
  else handleFileRead vol token io fd len.toNat w

/-! ## The shim -/

/-- A value stored into a `long`. -/
def toLong (x : Int) : Int := x.bmod (2 ^ 64)

def longMax : Nat := 2 ^ 63 - 1

/-- The return value of a call, and the bytes it wrote to each iovec. -/
structure Outcome where
  ret : Int
  delivered : List Bytes
  deriving DecidableEq, Repr

/-- The length that `read` asks for. -/
def clampLen (count : Nat) : Int :=
  if toLong count > pageSize then pageSize else toLong count

/-- `read` -/
def shimRead (io : Io) (fd : UInt32) (count : Nat) (w : World) : Outcome × World :=
  let r := serveRead vol token io fd (clampLen count) w
  (⟨r.1, [if r.1 > 0 then r.2.shared.take r.1.toNat else []]⟩, r.2)

/-- The first loop of `readv`: the length to ask for. -/
def gatherTotal : List Nat → Int → Int
  | [], total => total
  | iovLen :: iov, total =>
    let chunk := toLong iovLen
    if toLong (total + chunk) > pageSize then pageSize
    else gatherTotal iov (toLong (total + chunk))

/-- The second loop of `readv`: what goes to each iovec. -/
def scatterShared (shared : Bytes) (ret : Int) : List Nat → Int → List Bytes
  | [], _ => []
  | iovLen :: iov, copied =>
    if copied < ret then
      let chunk := if copied + toLong iovLen > ret then ret - copied else toLong iovLen
      (shared.drop copied.toNat).take chunk.toNat :: scatterShared shared ret iov (copied + chunk)
    else [] :: scatterShared shared ret iov copied

/-- `readv` -/
def shimReadv (io : Io) (fd : UInt32) (iov : List Nat) (iovcnt : Int32) (w : World) :
    Outcome × World :=
  if iovcnt < 0 then (⟨negErrno einval, []⟩, w)
  else
    let iov := iov.take iovcnt.toInt.toNat
    let total := gatherTotal iov 0
    if total = 0 then (⟨0, iov.map fun _ => []⟩, w)
    else
      let r := serveRead vol token io fd total w
      (⟨r.1, if r.1 ≤ 0 then iov.map fun _ => [] else scatterShared r.2.shared r.1 iov 0⟩, r.2)

/-- A read of the child. -/
inductive Request where
  | read (fd : UInt32) (count : Nat)
  | readv (fd : UInt32) (iov : List Nat) (iovcnt : Int32)
  deriving DecidableEq, Repr

namespace Request

def fd : Request → UInt32
  | read fd _ => fd
  | readv fd _ _ => fd

/-- The lengths of the buffers to fill, in order. -/
def lens : Request → List Nat
  | read _ count => [count]
  | readv _ iov iovcnt => iov.take iovcnt.toInt.toNat

def total (req : Request) : Nat := req.lens.sum

/-- The count of the iovecs is not negative. -/
def Counted : Request → Prop
  | read _ _ => True
  | readv _ _ iovcnt => ¬ iovcnt < 0

theorem total_read (fd : UInt32) (count : Nat) : (read fd count).total = count :=
  sum_singleton

end Request

def World.call (io : Io) (req : Request) (w : World) : Outcome × World :=
  match req with
  | .read fd count => shimRead vol token io fd count w
  | .readv fd iov iovcnt => shimReadv vol token io fd iov iovcnt w

/-- The reads of a child one after the other. -/
def World.calls : List (Request × Io) → World → List Outcome × World
  | [], w => ([], w)
  | (req, io) :: reqs, w =>
    let r := w.call vol token io req
    let rest := calls reqs r.2
    (r.1 :: rest.1, rest.2)

inductive Event where
  | openat (answers : FileOpenAnswers) (resolved : Except FsError DirEntry) (flags : UInt32)
  | close (fd : UInt32)
  | call (io : Io) (req : Request)

def World.step (w : World) : Event → World
  | .openat answers resolved flags => (handleFileOpen token answers resolved flags w).2
  | .close fd => (handleFileClose token fd w).2
  | .call io req => (w.call vol token io req).2

def World.run (events : List Event) : World := events.foldl (step vol token) .boot

/-- The open file behind a descriptor. -/
def World.file (fd : UInt32) (w : World) : Option OpenFile :=
  match w.lookup fd with
  | some ⟨.file, handle, _⟩ => w.fs.get handle token
  | _ => none

end

/-! ## The descriptors and their files -/

/-- Every file descriptor has an open file of the FAT32 server, whose buffer posix-server has
    mapped, and no two descriptors have the same one. -/
structure Inv (token : UInt64) (w : World) : Prop where
  fs : w.fs.Inv
  shared : w.shared.length = pageSize
  length : w.fileResources.length = w.fdTable.length
  file : ∀ (fd h : Nat) flags, w.fdTable[fd]? = some (some ⟨.file, h, flags⟩) →
    ∃ of, w.fs.get h token = some of ∧ of.bufferSizeBytes = pageSize ∧
      w.fileResources[fd]? = some (some ⟨of.bufferPs, pageSize⟩)
  apart : ∀ (fd fd' h : Nat) flags flags', w.fdTable[fd]? = some (some ⟨.file, h, flags⟩) →
    w.fdTable[fd']? = some (some ⟨.file, h, flags'⟩) → fd = fd'

section

variable {vol : Volume} {token : UInt64} {w w' : World} {fs' : Fs} {fd : UInt32} {io : Io}

theorem Inv.boot : Inv token .boot where
  fs := by
    have hnone (h : Nat) : Fs.init.slot h = none := by grind [Fs.init, Fs.slot]
    constructor
    · intro h f hf
      cases (hnone h).symm.trans hf
    · intro h f hf
      cases (hnone h).symm.trans hf
    · intro h h' f f' hf
      cases (hnone h).symm.trans hf
  shared := length_replicate
  length := rfl
  file fd h flags hfd := by
    have hmem := mem_of_getElem? hfd
    simp [World.boot] at hmem
  apart fd fd' h flags flags' hfd := by
    have hmem := mem_of_getElem? hfd
    simp [World.boot] at hmem

/-- The server may change anything but the open files. -/
theorem Inv.keep (hinv : Inv token w) (hfs : fs'.Inv)
    (hslot : ∀ h of, w.fs.slot h = some of → fs'.slot h = some of) :
    Inv token { w with fs := fs' } := by
  refine { hinv with fs := hfs, file := fun fd h flags hfd => ?_ }
  grind [hinv.file, Fs.get_eq_some]

variable {n handle : Nat} {of : OpenFile} {len : Nat} {shared : Bytes} {chain iov : List Nat}
  {req : Request} {o : Outcome} {f : OpenFile}

/-- A file opened and closed again leaves the other files as they were. -/
theorem slot_open_close {entry : DirEntry} {ps size : Nat} {fs fs1 fs2 : Fs}
    {r : Except FsError Unit} (ho : Opened token entry n fs fs1 handle ps size)
    (hc : handleClose token handle fs1 = (r, fs2)) {h : Nat}
    (hof : fs.slot h = some of) : fs2.slot h = some of := by
  have hne : h ≠ handle := by
    rintro rfl
    rw [ho.free] at hof
    cases hof
  have hslot : fs1.slot h = some of := by rw [ho.slot, if_neg hne, hof]
  obtain ⟨-, -, ⟨e, -, rfl⟩ | ⟨-, hclosed⟩⟩ := handleClose_spec hc
  · exact hslot
  · rw [hclosed, if_neg hne, hslot]

theorem World.freeFd_spec (h : w.freeFd = some n) : w.fdTable[n]? = some none := by
  simpa using find?_some h

theorem Inv.openat (hinv : Inv token w) (a : FileOpenAnswers) (resolved : Except FsError DirEntry)
    (flags : UInt32) : Inv token (handleFileOpen token a resolved flags w).2 := by
  unfold handleFileOpen
  split
  · next e fs hopen =>
    obtain ⟨-, ⟨e', -, hslot⟩ | ⟨_, _, _, _, -, hr, -, -⟩⟩ := handleOpen_spec hopen
    · exact hinv.keep (hinv.fs.opened hopen) fun h of hof => by rw [hslot, hof]
    · cases hr
  next handle ps size fs hopen =>
  obtain ⟨-, ⟨e', hr, -⟩ | ⟨entry, h1, ps1, size1, -, hr, -, ho⟩⟩ := handleOpen_spec hopen
  · cases hr
  cases hr
  have hfs := hinv.fs.opened hopen
  -- a failure from here on closes the file again
  have hundo : Inv token { w with fs := (handleClose token handle fs).2 } :=
    hinv.keep (hfs.closed rfl) fun h of hof => slot_open_close ho rfl hof
  split
  · exact hundo
  split
  · exact hundo
  next fd hfd =>
  have hfree := freeFd_spec hfd
  have hlt : fd < w.fdTable.length := (List.getElem?_eq_some_iff.mp hfree).1
  have hlt' : fd < w.fileResources.length := hinv.length ▸ hlt
  -- the new handle was free, so no other descriptor has it
  have hother {fd' h : Nat} {fl : UInt32} (hfd' : w.fdTable[fd']? = some (some ⟨.file, h, fl⟩)) :
      h ≠ handle := by
    rintro rfl
    obtain ⟨of, hget, -⟩ := hinv.file fd' h fl hfd'
    cases ho.free.symm.trans (Fs.get_eq_some.mp hget).1
  refine ⟨hfs, hinv.shared, ?_, fun fd' h fl hfd' => ?_, fun fd1 fd2 h fl fl' h1 h2 => ?_⟩
  · dsimp only
    rw [length_set, length_set, hinv.length]
  · dsimp only at hfd' ⊢
    by_cases heq : fd = fd'
    · subst heq
      rw [getElem?_set_self hlt] at hfd'
      cases hfd'
      have hslot := (ho.slot handle).trans (if_pos rfl)
      refine ⟨_, Fs.get_eq_some.mpr ⟨hslot, rfl⟩, ?_, ?_⟩
      · rw [ho.pages, Nat.one_mul]
      · rw [getElem?_set_self hlt', ho.pages, Nat.one_mul]
    · rw [getElem?_set_ne heq] at hfd'
      obtain ⟨of, hget, hsize, hres⟩ := hinv.file fd' h fl hfd'
      obtain ⟨hof, htoken⟩ := Fs.get_eq_some.mp hget
      refine ⟨of, Fs.get_eq_some.mpr ⟨?_, htoken⟩, hsize, ?_⟩
      · rw [ho.slot, if_neg (hother hfd'), hof]
      · rw [getElem?_set_ne heq, hres]
  · dsimp only at h1 h2
    by_cases he1 : fd = fd1 <;> by_cases he2 : fd = fd2
    · exact he1.symm.trans he2
    · grind
    all_goals grind [hinv.apart]

theorem World.lookup_eq_some {e : FdEntry} :
    w.lookup fd = some e ↔ w.fdTable[fd.toNat]? = some (some e) := by
  unfold lookup
  exact Option.join_eq_some_iff

theorem Inv.close (hinv : Inv token w) (fd : UInt32) :
    Inv token (handleFileClose token fd w).2 := by
  unfold handleFileClose
  split
  · exact hinv
  · exact hinv
  next handle flags hfd =>
  rw [lookup_eq_some] at hfd
  split
  · next e fs hclose =>
    obtain ⟨-, -, ⟨e', -, rfl⟩ | ⟨hr, -⟩⟩ := handleClose_spec hclose
    · exact hinv
    · cases hr
  next fs hclose =>
  obtain ⟨-, -, ⟨e', hr, -⟩ | ⟨-, hslot⟩⟩ := handleClose_spec hclose
  · cases hr
  have hlt : fd.toNat < w.fdTable.length := (List.getElem?_eq_some_iff.mp hfd).1
  have hold {fd' h : Nat} {fl : UInt32}
      (h' : (w.fdTable.set fd.toNat none)[fd']? = some (some ⟨.file, h, fl⟩)) :
      fd.toNat ≠ fd' ∧ w.fdTable[fd']? = some (some ⟨.file, h, fl⟩) := by
    by_cases heq : fd.toNat = fd'
    · subst heq
      rw [getElem?_set_self hlt] at h'
      cases h'
    · rw [getElem?_set_ne heq] at h'
      exact ⟨heq, h'⟩
  refine ⟨hinv.fs.closed hclose, hinv.shared, ?_, fun fd' h fl hfd' => ?_,
    fun fd1 fd2 h fl fl' h1 h2 => hinv.apart fd1 fd2 h fl fl' (hold h1).2 (hold h2).2⟩
  · dsimp only
    rw [length_set, length_set, hinv.length]
  · obtain ⟨hne, hfd'⟩ := hold hfd'
    obtain ⟨of, hget, hsize, hres⟩ := hinv.file fd' h fl hfd'
    obtain ⟨hof, htoken⟩ := Fs.get_eq_some.mp hget
    have hh : h ≠ handle := by
      rintro rfl
      exact hne (hinv.apart fd.toNat fd' h flags fl hfd hfd')
    refine ⟨of, Fs.get_eq_some.mpr ⟨?_, htoken⟩, hsize, ?_⟩
    · rw [hslot, if_neg hh, hof]
    · dsimp only
      rw [getElem?_set_ne hne, hres]

/-! ## What a read does to the files -/

theorem World.file_eq_some : w.file token fd = some of ↔
    ∃ handle flags, w.fdTable[fd.toNat]? = some (some ⟨.file, handle, flags⟩) ∧
      w.fs.get handle token = some of := by grind [file, lookup_eq_some]

/-- A read of `fd` that returned `ret`: the file of `fd` has moved by the bytes returned, if any,
    and no other file has. -/
def Moves (token : UInt64) (fd : UInt32) (ret : Int) (w w' : World) : Prop :=
  ∀ fd' of, w.file token fd' = some of →
    w'.file token fd' = some { of with cursor := of.cursor + if fd' = fd then ret.toNat else 0 }

theorem Moves.refl {ret : Int} (h : ret ≤ 0) : Moves token fd ret w w := by
  intro fd' of hof
  rw [Int.toNat_of_nonpos h, ite_self, Nat.add_zero]
  exact hof

theorem negErrno_nonpos (e : Nat) : negErrno e ≤ 0 := by
  unfold negErrno
  omega

theorem fsErrorToErrno_pos (e : FsError) : 0 < fsErrorToErrno e := by
  cases e <;> decide

/-- The FAT32 server's read, seen through the descriptors. -/
theorem Inv.reads {cursor : Nat} {flags : UInt32} {r : Except FsError Nat} (hinv : Inv token w)
    (hfd : w.fdTable[fd.toNat]? = some (some ⟨.file, handle, flags⟩))
    (hget : w.fs.get handle token = some of) (hr : Reads w.fs fs' handle of len r cursor)
    (hshared : shared.length = pageSize) (hle : of.cursor ≤ cursor) :
    Inv token { w with fs := fs', shared } ∧
      Moves token fd ((cursor - of.cursor : Nat) : Int) w { w with fs := fs', shared } := by
  obtain ⟨hslot, htoken⟩ := Fs.get_eq_some.mp hget
  -- an open file keeps everything but its cursor
  have hfile {h : Nat} {f : OpenFile} (hf : w.fs.get h token = some f) :
      fs'.get h token = some (if h = handle then { f with cursor } else f) := by
    obtain ⟨hf, htok⟩ := Fs.get_eq_some.mp hf
    rw [Fs.get_eq_some, hr.slot]
    by_cases hh : h = handle
    · grind
    · rw [if_neg hh, if_neg hh]
      exact ⟨hf, htok⟩
  constructor
  · refine ⟨hinv.fs.read hslot hr, hshared, hinv.length, fun fd' h fl hfd' => ?_, hinv.apart⟩
    obtain ⟨f, hf, hsize, hres⟩ := hinv.file fd' h fl hfd'
    refine ⟨_, hfile hf, ?_, ?_⟩ <;> split <;> assumption
  · intro fd' f hf
    obtain ⟨h, fl, hfd', hf⟩ := file_eq_some.mp hf
    refine file_eq_some.mpr ⟨h, fl, hfd', ?_⟩
    show fs'.get h token = _
    rw [hfile hf]
    by_cases hh : h = handle
    · subst hh
      have heq : fd' = fd := UInt32.toNat_inj.mp (hinv.apart _ _ h fl flags hfd' hfd)
      obtain rfl := Option.some.inj (hget.symm.trans hf)
      rw [if_pos rfl, if_pos heq, Int.toNat_natCast, Nat.add_sub_cancel' hle]
    · have hne : fd' ≠ fd := by
        rintro rfl
        rw [hfd] at hfd'
        cases hfd'
        exact hh rfl
      rw [if_neg hh, if_neg hne, Nat.add_zero]

theorem Inv.handleFileRead {ret : Int} (hinv : Inv token w)
    (h : handleFileRead vol token io fd len w = (ret, w')) :
    Inv token w' ∧ Moves token fd ret w w' ∧ ret ≤ len := by
  -- every refusal leaves the world as it was
  have hstay (hret : ret ≤ 0) (hw : w = w') :
      Inv token w' ∧ Moves token fd ret w w' ∧ ret ≤ len := by
    subst hw
    exact ⟨hinv, .refl hret, Int.le_trans hret (Int.natCast_nonneg len)⟩
  unfold PosixRead.handleFileRead at h
  split at h
  · cases h
    exact hstay (negErrno_nonpos _) rfl
  · cases h
    refine hstay ?_ rfl
    split
    · exact Int.le_refl 0
    · exact negErrno_nonpos _
  next handle flags hfd =>
  rw [lookup_eq_some] at hfd
  obtain ⟨of, hget, hsize, hres⟩ := hinv.file _ handle flags hfd
  rw [hres] at h
  dsimp only [Option.join_some] at h
  split at h
  · cases h
    exact hstay (negErrno_nonpos _) rfl
  split at h
  · next e fs hread =>
    cases h
    obtain ⟨cursor, hr⟩ := handleRead_reads hinv.fs hget hread
    have hc := hr.failed e rfl
    obtain ⟨hinv', hmoves⟩ := hinv.reads hfd hget hr hinv.shared hc.ge
    refine ⟨hinv', ?_, Int.le_trans (negErrno_nonpos _) (Int.natCast_nonneg len)⟩
    intro fd' f hf
    rw [Int.toNat_of_nonpos (negErrno_nonpos _)]
    have hmove := hmoves fd' f hf
    -- a failed read keeps the cursor where it was
    rwa [hc, Nat.sub_self, Int.toNat_natCast] at hmove
  · next n fs hread =>
    cases h
    obtain ⟨cursor, hr⟩ := handleRead_reads hinv.fs hget hread
    obtain ⟨hc, hn⟩ := hr.moved n rfl
    have hbuf : (fs.pages of.bufferPs).length = pageSize := by
      rw [hr.length, (hinv.fs.buffer handle of (Fs.get_eq_some.mp hget).1).2, hsize]
    have hshared : (writeAt w.shared 0 ((fs.pages of.bufferPs).take n)).length = pageSize := by
      rw [length_writeAt, hinv.shared]
      rw [length_take, hbuf, hinv.shared]
      omega
    obtain ⟨hinv', hmoves⟩ := hinv.reads hfd hget hr hshared (by omega)
    grind

/-- A read of a file with a good chain that does not fail returns the next bytes of the file, and
    they stand in the shared page. -/
theorem handleFileRead_chain {ret : Int}
    (hinv : Inv token w) (hfile : w.file token fd = some of) (hbacked : of.Backed vol chain)
    (hlen : len ≤ pageSize) (h : handleFileRead vol token io fd len w = (ret, w'))
    (hret : 0 ≤ ret) :
    ret = (min len (of.size.toNat - of.cursor) : Nat) ∧
      w'.shared.take ret.toNat = ((of.contents vol chain).drop of.cursor).take ret.toNat := by
  obtain ⟨handle, flags, hfd, hget⟩ := file_eq_some.mp hfile
  obtain ⟨of', hget', hsize, hres⟩ := hinv.file _ handle flags hfd
  obtain rfl := Option.some.inj (hget.symm.trans hget')
  unfold PosixRead.handleFileRead at h
  rw [lookup_eq_some.mpr hfd, hres] at h
  dsimp only [Option.join_some] at h
  have hfail (e : FsError) : ¬ 0 ≤ negErrno (fsErrorToErrno e) := by
    have hpos := fsErrorToErrno_pos e
    unfold negErrno
    omega
  split at h
  · cases h
    exact absurd hret (hfail _)
  split at h
  · cases h
    exact absurd hret (hfail _)
  next n fs hread =>
  cases h
  obtain ⟨hn, htake⟩ := handleRead_chain hinv.fs hget hbacked hread
  have hcap : min (min (min (len % 2 ^ 32) pageSize) pageSize) of.bufferSizeBytes = len := by
    rw [hsize]
    unfold pageSize at hlen ⊢
    omega
  rw [hcap] at hn
  obtain ⟨cursor, hr⟩ := handleRead_reads hinv.fs hget hread
  have hbuf : (fs.pages of.bufferPs).length = pageSize := by
    rw [hr.length, (hinv.fs.buffer handle of (Fs.get_eq_some.mp hget).1).2, hsize]
  refine ⟨by rw [hn], ?_⟩
  rw [Int.toNat_natCast, ← htake]
  have hwrite := take_writeAt (Nat.zero_le w.shared.length) ((fs.pages of.bufferPs).take n)
  grind

theorem handleFileRead_ok (hio : io.Ok)
    (hinv : Inv token w) (hfile : w.file token fd = some of) (hbacked : of.Backed vol chain) :
    0 ≤ (handleFileRead vol token io fd len w).1 := by
  obtain ⟨handle, flags, hfd, hget⟩ := file_eq_some.mp hfile
  obtain ⟨of', hget', hsize, hres⟩ := hinv.file _ handle flags hfd
  unfold PosixRead.handleFileRead
  rw [lookup_eq_some.mpr hfd, hres, hio.delivered]
  dsimp only [Option.join_some]
  rw [if_neg (by decide)]
  obtain ⟨n, hread⟩ := handleRead_ok hio hinv.fs hget hbacked
  split
  · next e fs hfail =>
    rw [hfail] at hread
    cases hread
  · exact Int.natCast_nonneg _

/-! ## What the shim asks for and hands out -/

theorem toLong_of_le (h : n ≤ longMax) : toLong n = n := by
  unfold toLong longMax at *
  rw [Int.bmod_eq_of_le] <;> omega

/-- The length asked for is the total of the iovecs, up to a page. -/
theorem gatherTotal_eq {total : Nat} (h : total + iov.sum ≤ longMax) (htotal : total ≤ pageSize) :
    gatherTotal iov total = (min (total + iov.sum) pageSize : Nat) := by
  induction iov generalizing total with
  | nil =>
    rw [gatherTotal, sum_nil, Nat.add_zero, Nat.min_eq_left htotal]
  | cons iovLen iov ih =>
    rw [sum_cons] at h ⊢
    have hlen : toLong iovLen = iovLen := toLong_of_le (by omega)
    have hsum : toLong (total + iovLen) = (total + iovLen : Nat) := by
      rw [← Int.natCast_add]
      exact toLong_of_le (by omega)
    unfold gatherTotal
    dsimp only
    rw [hlen, hsum]
    split
    · rw [Nat.min_eq_right (by omega)]
    · rw [ih (by omega) (by omega), Nat.add_assoc]

/-- The bytes in the shared page go to the iovecs in order. -/
theorem scatterShared_eq {ret copied : Nat} (h : iov.sum ≤ longMax) (hcopied : copied ≤ ret) :
    scatterShared shared ret iov copied = scatter iov ((shared.take ret).drop copied) := by
  induction iov generalizing copied with
  | nil => rfl
  | cons iovLen iov ih =>
    rw [sum_cons] at h
    have hlen : toLong iovLen = iovLen := toLong_of_le (by omega)
    unfold scatterShared scatter
    rw [hlen]
    split
    · next hlt =>
      -- the chunk is what the iovec takes of the bytes that are left
      have hchunk : (if (copied : Int) + iovLen > ret then (ret : Int) - copied else iovLen) =
          (min iovLen (ret - copied) : Nat) := by
        split <;> omega
      have hhead : (shared.drop copied).take (min iovLen (ret - copied)) =
          ((shared.take ret).drop copied).take iovLen := by
        rw [drop_take, take_take]
      have htail : (shared.take ret).drop (copied + min iovLen (ret - copied)) =
          ((shared.take ret).drop copied).drop iovLen := by
        rw [drop_drop]
        by_cases hfit : iovLen ≤ ret - copied
        · rw [Nat.min_eq_left hfit]
        · rw [drop_eq_nil_of_le (by rw [length_take]; omega),
            drop_eq_nil_of_le (by rw [length_take]; omega)]
      grind
    · grind

theorem flatten_map_nil (iov : List Nat) : (iov.map fun _ => ([] : Bytes)).flatten = [] := by
  induction iov with
  | nil => rfl
  | cons n iov ih => rw [map_cons, flatten_cons, ih, append_nil]

theorem Inv.serveRead {len ret : Int} (hinv : Inv token w)
    (h : serveRead vol token io fd len w = (ret, w')) :
    Inv token w' ∧ Moves token fd ret w w' ∧ (ret ≤ len ∨ ret ≤ 0) := by
  unfold PosixRead.serveRead at h
  split at h
  · cases h
    exact ⟨hinv, .refl (negErrno_nonpos _), .inr (negErrno_nonpos _)⟩
  · obtain ⟨hinv', hmoves, hle⟩ := hinv.handleFileRead h
    exact ⟨hinv', hmoves, .inl (by omega)⟩

/-- What a call does: it asks the server for a read or changes nothing, and a call in range asks for
    its total up to a page and hands out what has come. -/
structure Calls (vol : Volume) (token : UInt64) (io : Io) (req : Request) (w : World) (o : Outcome)
    (w' : World) : Prop where
  served : (w' = w ∧ o.ret ≤ 0) ∨ ∃ len, serveRead vol token io req.fd len w = (o.ret, w')
  nothing : o.ret ≤ 0 → o.delivered.flatten = []
  asked : req.total ≤ longMax → req.Counted → (o.ret = 0 ∧ req.total = 0) ∨
    serveRead vol token io req.fd (min req.total pageSize : Nat) w = (o.ret, w')
  counted : 0 ≤ o.ret → req.Counted
  delivered : req.total ≤ longMax → 0 ≤ o.ret →
    o.delivered = scatter req.lens (w'.shared.take o.ret.toNat)

theorem gatherTotal_readv {iovcnt : Int32} (h : (Request.readv fd iov iovcnt).total ≤ longMax) :
    gatherTotal (iov.take iovcnt.toInt.toNat) 0 =
      (min (Request.readv fd iov iovcnt).total pageSize : Nat) := by
  have hsum : 0 + (iov.take iovcnt.toInt.toNat).sum ≤ longMax := by
    rw [Nat.zero_add]
    exact h
  have hgather := gatherTotal_eq hsum (Nat.zero_le pageSize)
  rw [Nat.zero_add] at hgather
  exact hgather

theorem clampLen_eq {count : Nat} (h : count ≤ longMax) :
    clampLen count = (min count pageSize : Nat) := by
  unfold clampLen
  rw [toLong_of_le h]
  split <;> omega

theorem Inv.calls (hinv : Inv token w) (vol : Volume) (io : Io) (req : Request) :
    ∃ o w', w.call vol token io req = (o, w') ∧ Calls vol token io req w o w' := by
  cases req with
  | read fd count =>
    cases hserve : PosixRead.serveRead vol token io fd (clampLen count) w with
    | mk ret w' =>
      rw [call, shimRead, hserve]
      refine ⟨_, w', rfl, ⟨.inr ⟨_, hserve⟩, fun hret => ?_, fun htotal _ => ?_, fun _ => trivial,
        fun htotal hret => ?_⟩⟩
      · dsimp only at hret ⊢
        rw [if_neg (Int.not_lt.mpr hret), flatten_cons, flatten_nil, append_nil]
      · rw [Request.total_read] at htotal ⊢
        rw [clampLen_eq htotal] at hserve
        exact .inr hserve
      · rw [Request.total_read] at htotal
        rw [clampLen_eq htotal] at hserve
        obtain ⟨-, -, hle⟩ := hinv.serveRead hserve
        have hfits : (w'.shared.take ret.toNat).length ≤ count := by
          rw [length_take]
          omega
        show [_] = [(w'.shared.take ret.toNat).take count]
        grind
  | readv fd iov iovcnt =>
    rw [call, shimReadv]
    -- a negative count is refused and an empty vector answered without the server
    by_cases hcnt : iovcnt < 0
    · have hneg : ¬ 0 ≤ negErrno einval := by decide
      rw [if_pos hcnt]
      exact ⟨_, w, rfl, ⟨.inl ⟨rfl, negErrno_nonpos _⟩, fun _ => rfl,
        fun _ h => absurd hcnt h, fun h => absurd h hneg, fun _ h => absurd h hneg⟩⟩
    rw [if_neg hcnt]
    dsimp only
    by_cases hgather : gatherTotal (iov.take iovcnt.toInt.toNat) 0 = 0
    · rw [if_pos hgather]
      refine ⟨_, w, rfl, ⟨.inl ⟨rfl, Int.le_refl 0⟩, fun _ => flatten_map_nil _,
        fun htotal _ => .inl ⟨rfl, ?_⟩, fun _ => hcnt, fun _ _ => ?_⟩⟩
      · rw [gatherTotal_readv htotal] at hgather
        unfold pageSize at hgather
        omega
      · rw [Int.toNat_zero, take_zero, scatter_nil]
        rfl
    · cases hserve : PosixRead.serveRead vol token io fd
          (gatherTotal (iov.take iovcnt.toInt.toNat) 0) w with
      | mk ret w' =>
        rw [if_neg hgather]
        refine ⟨_, w', rfl, ⟨.inr ⟨_, hserve⟩, fun hret => ?_, fun htotal _ => ?_, fun _ => hcnt,
          fun htotal hret => ?_⟩⟩
        · dsimp only at hret ⊢
          rw [if_pos hret, flatten_map_nil]
        · rw [gatherTotal_readv htotal] at hserve
          exact .inr hserve
        · dsimp only at hret ⊢
          split
          · next hneg =>
            rw [Int.toNat_of_nonpos hneg, take_zero, scatter_nil]
            rfl
          · obtain ⟨n, rfl⟩ := Int.eq_ofNat_of_zero_le hret
            exact scatterShared_eq htotal (Nat.zero_le n)

/-! ## Runs -/

theorem Calls.moves (hinv : Inv token w)
    (h : Calls vol token io req w o w') : Inv token w' ∧ Moves token req.fd o.ret w w' := by
  rcases h.served with ⟨rfl, hret⟩ | ⟨len, hserve⟩
  · exact ⟨hinv, .refl hret⟩
  · obtain ⟨hinv', hmoves, -⟩ := hinv.serveRead hserve
    exact ⟨hinv', hmoves⟩

theorem Inv.step (hinv : Inv token w) (event : Event) : Inv token (w.step vol token event) := by
  cases event with
  | openat answers resolved flags => exact hinv.openat answers resolved flags
  | close fd => exact hinv.close fd
  | call io req =>
    obtain ⟨o, w', heq, hcalls⟩ := hinv.calls vol io req
    show Inv token (w.call vol token io req).2
    rw [heq]
    exact (hcalls.moves hinv).1

theorem Inv.run (events : List Event) : Inv token (run vol token events) := by
  suffices h : ∀ w, Inv token w → Inv token (events.foldl (World.step vol token) w) from
    h _ .boot
  induction events with
  | nil => exact fun w hinv => hinv
  | cons event events ih => exact fun w hinv => ih _ (hinv.step event)

theorem Inv.cursor_le (hinv : Inv token w) (hf : w.file token fd = some f) :
    f.cursor ≤ f.size.toNat := by
  obtain ⟨handle, flags, -, hget⟩ := file_eq_some.mp hf
  exact hinv.fs.cursor handle f (Fs.get_eq_some.mp hget).1

/-- A call on a file, which was `f` before and is `f'` after it: a call that succeeds returns as
    much as the request, a page and the file allow and fills the buffers of the caller in order
    with the next bytes of the file; a call that fails does not move the position.  A call with a
    proper count fails only if something fails on the way. -/
structure Serves (vol : Volume) (chain : List Nat) (io : Io) (req : Request) (o : Outcome)
    (f f' : OpenFile) : Prop where
  returned : 0 ≤ o.ret → o.ret = (min req.total (min pageSize (f.size.toNat - f.cursor)) : Nat)
  delivered : 0 ≤ o.ret →
    o.delivered = scatter req.lens (((f.contents vol chain).drop f.cursor).take o.ret.toNat)
  moved : 0 ≤ o.ret → f' = { f with cursor := f.cursor + o.ret.toNat }
  zero : o.ret = 0 → req.total = 0 ∨ f.cursor = f.size.toNat
  failed : o.ret < 0 → f' = f
  succeeds : io.Ok → req.Counted → 0 ≤ o.ret

theorem Calls.serves
    (hinv : Inv token w) (h : Calls vol token io req w o w') (htotal : req.total ≤ longMax)
    (hfile : w.file token req.fd = some f) (hbacked : f.Backed vol chain) :
    ∃ f', w'.file token req.fd = some f' ∧ Serves vol chain io req o f f' := by
  have hmoves := (h.moves hinv).2 req.fd f hfile
  rw [if_pos rfl] at hmoves
  have hcursor := hinv.cursor_le hfile
  -- a call that did not fail is empty or was served
  have hserved (hret : 0 ≤ o.ret) :
      o.ret = (min req.total (min pageSize (f.size.toNat - f.cursor)) : Nat) ∧
        w'.shared.take o.ret.toNat =
          ((f.contents vol chain).drop f.cursor).take o.ret.toNat := by
    rcases h.asked htotal (h.counted hret) with ⟨hzero, hempty⟩ | hserve
    · rw [hzero, hempty]
      exact ⟨by simp, by simp⟩
    · unfold PosixRead.serveRead at hserve
      rw [if_neg (by omega), Int.toNat_natCast] at hserve
      obtain ⟨hn, htake⟩ := handleFileRead_chain hinv hfile hbacked (by omega) hserve hret
      exact ⟨by rw [hn]; congr 1; omega, htake⟩
  refine ⟨_, hmoves, fun hret => (hserved hret).1, fun hret => ?_, fun _ => rfl, fun hret => ?_,
    fun hret => ?_, fun hio hcount => ?_⟩
  · rw [h.delivered htotal hret, (hserved hret).2]
  · have hn := (hserved (Int.le_of_eq hret.symm)).1
    unfold pageSize at hn
    omega
  · rw [Int.toNat_of_nonpos (by omega), Nat.add_zero]
  · rcases h.asked htotal hcount with ⟨hzero, -⟩ | hserve
    · exact Int.le_of_eq hzero.symm
    · unfold PosixRead.serveRead at hserve
      rw [if_neg (by omega), Int.toNat_natCast] at hserve
      have hok : 0 ≤ (handleFileRead vol token io req.fd (min req.total pageSize) w).1 :=
        handleFileRead_ok hio hinv hfile hbacked
      rwa [hserve] at hok

end

/-- What the calls of a sequence on `fd` have delivered, one after the other. -/
def receivedOn (fd : UInt32) : List (Request × Io) → List Outcome → Bytes
  | (req, _) :: reqs, o :: os =>
    (if req.fd = fd then o.delivered.flatten else []) ++ receivedOn fd reqs os
  | _, _ => []

section

variable {vol : Volume} {token : UInt64} {w w' : World} {fd : UInt32} {io : Io} {f : OpenFile}
  {chain : List Nat}

/-- One call, seen from a file: the position moves by the bytes it delivers from there. -/
theorem Calls.received {req : Request} {o : Outcome} (hinv : Inv token w)
    (h : Calls vol token io req w o w') (htotal : req.total ≤ longMax)
    (hfile : w.file token fd = some f) (hbacked : f.Backed vol chain) :
    ∃ n, w'.file token fd = some { f with cursor := f.cursor + n } ∧
      (if req.fd = fd then o.delivered.flatten else []) =
        ((f.contents vol chain).drop f.cursor).take n := by
  by_cases hfd : req.fd = fd
  · subst hfd
    rw [if_pos rfl]
    obtain ⟨f', hf', hserves⟩ := h.serves hinv htotal hfile hbacked
    by_cases hret : 0 ≤ o.ret
    · refine ⟨o.ret.toNat, hserves.moved hret ▸ hf', ?_⟩
      rw [hserves.delivered hret, flatten_scatter]
      have hn := hserves.returned hret
      show _ ≤ req.total
      rw [length_take]
      omega
    · refine ⟨0, ?_, ?_⟩
      · rw [hf', hserves.failed (by omega)]
        rfl
      · rw [h.nothing (by omega), take_zero]
  · have hmoves := (h.moves hinv).2 fd f hfile
    rw [if_neg (fun h => hfd h.symm)] at hmoves
    exact ⟨0, hmoves, by rw [if_neg hfd, take_zero]⟩

/-- The calls of a sequence, seen from a file. -/
theorem calls_received {reqs : List (Request × Io)} (hinv : Inv token w)
    (htotal : ∀ r ∈ reqs, r.1.total ≤ longMax) (hfile : w.file token fd = some f)
    (hbacked : f.Backed vol chain) :
    Inv token (w.calls vol token reqs).2 ∧ ∃ n,
      (w.calls vol token reqs).2.file token fd = some { f with cursor := f.cursor + n } ∧
      receivedOn fd reqs (w.calls vol token reqs).1 =
        ((f.contents vol chain).drop f.cursor).take n := by
  induction reqs generalizing w f with
  | nil => exact ⟨hinv, 0, hfile, by rw [take_zero]; rfl⟩
  | cons r reqs ih =>
    obtain ⟨req, io⟩ := r
    obtain ⟨hreq, hreqs⟩ := forall_mem_cons.mp htotal
    obtain ⟨o, w1, heq, hcalls⟩ := hinv.calls vol io req
    obtain ⟨n, hfile₁, hreceived⟩ := hcalls.received hinv hreq hfile hbacked
    have hbacked₁ : ({ f with cursor := f.cursor + n } : OpenFile).Backed vol chain :=
      ⟨hbacked.valid, hbacked.acyclic, hbacked.enough⟩
    obtain ⟨hinv', m, hfile', hreceived'⟩ := ih (hcalls.moves hinv).1 hreqs hfile₁ hbacked₁
    rw [calls, heq]
    refine ⟨hinv', n + m, ?_, ?_⟩
    · rw [hfile', Nat.add_assoc]
    · show (if req.fd = fd then o.delivered.flatten else []) ++
        receivedOn fd reqs (w1.calls vol token reqs).1 = _
      rw [hreceived, hreceived', take_add, drop_drop]
      rfl

end

/-- A descriptor's file after the events of a child and any sequence of reads on any descriptors:
    what the reads on it have delivered is the part of the file between the two positions, and the
    next call serves the file from its position on, or leaves it alone. -/
theorem reads_deliver_next_bytes (vol : Volume) (token : UInt64) (events : List Event)
    (reqs : List (Request × Io)) (req : Request) (io : Io)
    (htotals : ∀ r ∈ reqs, r.1.total ≤ longMax) (htotal : req.total ≤ longMax)
    (fd : UInt32) (f : OpenFile) (chain : List Nat)
    (hfile : (run vol token events).file token fd = some f)
    (hbacked : f.Backed vol chain) :
    ∃ n f₁ f₂,
      ((run vol token events).calls vol token reqs).2.file token fd = some f₁ ∧
      f₁ = { f with cursor := f.cursor + n } ∧ f₁.cursor ≤ f.size.toNat ∧
      receivedOn fd reqs ((run vol token events).calls vol token reqs).1 =
        ((f.contents vol chain).drop f.cursor).take n ∧
      (((run vol token events).calls vol token reqs).2.call vol token io req).2.file token fd
        = some f₂ ∧
      (req.fd = fd → Serves vol chain io req
        (((run vol token events).calls vol token reqs).2.call vol token io req).1 f₁ f₂) ∧
      (req.fd ≠ fd → f₂ = f₁) := by
  obtain ⟨hinv, n, hfile₁, hreceived⟩ := calls_received (Inv.run events) htotals hfile hbacked
  have hbacked₁ : ({ f with cursor := f.cursor + n } : OpenFile).Backed vol chain :=
    ⟨hbacked.valid, hbacked.acyclic, hbacked.enough⟩
  obtain ⟨o, w', heq, hcalls⟩ := hinv.calls vol io req
  have hcursor := hinv.cursor_le hfile₁
  rw [heq]
  -- a read on another descriptor moves that descriptor's cursor only
  by_cases hfd : req.fd = fd
  · subst hfd
    obtain ⟨f₂, hf₂, hserves⟩ := hcalls.serves hinv htotal hfile₁ hbacked₁
    exact ⟨n, _, f₂, hfile₁, rfl, hcursor, hreceived, hf₂, fun _ => hserves,
      fun hne => absurd rfl hne⟩
  · have hmoves := (hcalls.moves hinv).2 fd _ hfile₁
    rw [if_neg (fun h => hfd h.symm)] at hmoves
    exact ⟨n, _, _, hfile₁, rfl, hcursor, hreceived, hmoves, fun h => absurd h hfd, fun _ => rfl⟩

/-! ### A small volume: one sector to a cluster, and a file of two clusters -/

/-- The first sector of the FAT: cluster 2 is followed by cluster 3, the last one. -/
def fatSector : Bytes :=
  replicate 8 0 ++ [3, 0, 0, 0] ++ [0xFF, 0xFF, 0xFF, 0x0F] ++ replicate 496 0

def smallVolume : Volume where
  disk :=
    { sector := fun s =>
        if s = 0 then bootSector else if s = 1 then fatSector
        else replicate sectorSize (UInt8.ofNat s)
      length_sector := fun s => by
        split
        · decide +kernel
        · split
          · decide +kernel
          · exact length_replicate }
  geom :=
    { bytesPerSector := 512, sectorsPerCluster := 1, numFats := 1, fatStartSector := 1
      sectorsPerFat := 512, dataStartSector := 513, rootCluster := 2, totalSectors := 66038 }
  mounted := by decide +kernel

/-- The file of 600 bytes that starts at cluster 2 is opened. -/
def openSmall : Event :=
  .openat ⟨⟨true, true, true, true, fun _ => 0⟩, true, true⟩ (.ok ⟨false, 2, 600⟩) 0

theorem reads_deliver_next_bytes_small :
    ∃ f io, (run smallVolume 7 [openSmall]).file 7 3 = some f ∧
      f.Backed smallVolume [2, 3] ∧ io.Ok ∧ ∃ n f₁ f₂, f₁ = { f with cursor := f.cursor + n } ∧
        Serves smallVolume [2, 3] io (.readv 3 [300, 1000] 2)
          (((run smallVolume 7 [openSmall]).calls smallVolume 7 [(.read 3 100, io)]).2.call
            smallVolume 7 io (.readv 3 [300, 1000] 2)).1 f₁ f₂ := by
  let io : Io := ⟨true, fun _ => true, fun _ => true⟩
  have hfile : (run smallVolume 7 [openSmall]).file 7 3 =
      some ⟨7, 2, 600, 0, 0, 4096, 1⟩ := by
    decide +kernel
  have hbacked : OpenFile.Backed smallVolume ⟨7, 2, 600, 0, 0, 4096, 1⟩ [2, 3] :=
    ⟨⟨rfl, ⟨by decide, by decide⟩, by decide +kernel, rfl, ⟨by decide, by decide⟩,
      by decide +kernel⟩, by decide, by decide⟩
  obtain ⟨n, f₁, f₂, -, hf₁, -, -, -, hserves, -⟩ :=
    reads_deliver_next_bytes smallVolume 7 [openSmall] [(.read 3 100, io)]
      (.readv 3 [300, 1000] 2) io (by decide) (by decide) 3 _ _ hfile hbacked
  exact ⟨_, io, hfile, hbacked, ⟨rfl, fun _ => rfl, fun _ => rfl⟩, n, f₁, f₂, hf₁, hserves rfl⟩

end Lockjaw.User.PosixRead
