/-
  Lockjaw.User.Elf

  Loading an ELF image into a new process: the parser, the plan that cuts the
  loadable segments into pages, and the address space that the kernel builds from
  the plan and the stack.  `none` of a read is an index out of bounds, on which
  the parser panics; its offsets are 64-bit sums that wrap.

  `Loaded` is what the loader is for: every byte of every segment reads as the
  image says.  A page that two segments share gets one entry for each, and the
  later entry supersedes the earlier one with everything on it, so `Loaded` turns
  on what the shared pages hold (`SharesHarmlessly`).
-/

import Mathlib.Data.List.Pairwise
import Lockjaw.Lib.ByteImage
import Lockjaw.Lib.Overlay
import Lockjaw.Cap.CreateProcess

namespace Lockjaw.User.Elf

open Lib List
open Cap (pageSize userVaEnd userStackBase)

/-! ## The parser -/

abbrev Bytes := List UInt8

def elfMagic : Bytes := [0x7f, 0x45, 0x4c, 0x46]

def elfClass64 : UInt8 := 2

def elfData2Lsb : UInt8 := 1

def etExec : Nat := 2

def emAarch64 : Nat := 183

def ptLoad : Nat := 1

/-- Maximum number of loadable segments. -/
def maxSegments : Nat := 8

structure LoadSegment where
  vaddr : UInt64
  fileOffset : UInt64
  fileSize : UInt64
  memSize : UInt64
  executable : Bool
  writable : Bool
  deriving DecidableEq, Repr

/-- `segments` holds the valid entries of the source's fixed array. -/
structure ElfInfo where
  entryPoint : UInt64
  segments : List LoadSegment
  deriving DecidableEq, Repr

inductive ElfError where
  | tooSmall
  | badMagic
  | badFormat
  | notExec
  | notAarch64
  | tooManySegments
  deriving DecidableEq, Repr

inductive ElfLoadError where
  | vaddrRangeOverflow (segIdx : Nat)
  | fileRangeOutOfBounds (segIdx fileEnd elfLen : Nat)
  | tooManyEntries (needed cap : Nat)
  | vaddrOutOfUserRange (segIdx : Nat) (vaddr : UInt64)
  | fileSizeExceedsMemSize (segIdx : Nat) (fileSize memSize : UInt64)
  deriving DecidableEq, Repr

/-- Why an image is not loaded. -/
inductive Fault where
  | parse (e : ElfError)
  | plan (e : ElfLoadError)
  | panicked
  deriving DecidableEq, Repr

def orPanic (x : Option Nat) : Except Fault Nat :=
  match x with
  | some n => .ok n
  | none => .error .panicked

def readU16 (data : Bytes) (off : Nat) : Except Fault Nat := orPanic (readLe data 2 off)

def readU32 (data : Bytes) (off : Nat) : Except Fault Nat := orPanic (readLe data 4 off)

def readU64 (data : Bytes) (off : Nat) : Except Fault UInt64 :=
  UInt64.ofNat <$> orPanic (readLe data 8 off)

/-- The loadable segment whose program header stands at `off`. -/
def readSegment (data : Bytes) (off : Nat) : Except Fault LoadSegment := do
  let pFlags ← readU32 data (off + 4)
  let pOffset ← readU64 data (off + 8)
  let pVaddr ← readU64 data (off + 16)
  let pFilesz ← readU64 data (off + 32)
  let pMemsz ← readU64 data (off + 40)
  return { vaddr := pVaddr, fileOffset := pOffset, fileSize := pFilesz, memSize := pMemsz
           executable := pFlags.testBit 0, writable := pFlags.testBit 1 }

/-- The program header loop from header `i` on, `n` headers before its end. -/
def parseHeaders (data : Bytes) (phoff phentsize : Nat) :
    Nat → Nat → List LoadSegment → Except Fault (List LoadSegment)
  | 0, _, segs => .ok segs
  | n + 1, i, segs =>
    let off := (phoff + i * phentsize) % 2 ^ 64
    if (off + phentsize) % 2 ^ 64 > data.length then .ok segs
    else do
      let pType ← readU32 data off
      if pType ≠ ptLoad then parseHeaders data phoff phentsize n (i + 1) segs
      else if segs.length ≥ maxSegments then throw (.parse .tooManySegments)
      else
        let seg ← readSegment data off
        parseHeaders data phoff phentsize n (i + 1) (segs ++ [seg])

def parseElf (data : Bytes) : Except Fault ElfInfo :=
  if data.length < 64 then throw (.parse .tooSmall)
  else if data.take 4 ≠ elfMagic then throw (.parse .badMagic)
  else if data[4]? ≠ some elfClass64 ∨ data[5]? ≠ some elfData2Lsb then throw (.parse .badFormat)
  else do
    let eType ← readU16 data 16
    let eMachine ← readU16 data 18
    if eType ≠ etExec then throw (.parse .notExec)
    else if eMachine ≠ emAarch64 then throw (.parse .notAarch64)
    else
      let entryPoint ← readU64 data 24
      let phoff ← readU64 data 32
      let phentsize ← readU16 data 54
      let phnum ← readU16 data 56
      let segments ← parseHeaders data phoff.toNat phentsize phnum 0 []
      return { entryPoint, segments }

/-! ## The plan -/

/-- One page of a plan: the slice of the image that goes on it, and where. -/
structure ElfLoadEntry where
  pageVa : Nat
  srcFileRange : Nat × Nat
  inPageOffset : Nat
  executable : Bool
  deriving DecidableEq, Repr

namespace LoadSegment

def endVa (seg : LoadSegment) : Nat := seg.vaddr.toNat + seg.memSize.toNat

def firstPageVa (seg : LoadSegment) : Nat := seg.vaddr.toNat / pageSize * pageSize

def numPages (seg : LoadSegment) : Nat :=
  ((seg.endVa - 1) / pageSize * pageSize - seg.firstPageVa) / pageSize + 1

/-- The entry for the segment's page at `pageVa`. -/
def entryAt (seg : LoadSegment) (pageVa : Nat) : ElfLoadEntry :=
  let copyStartVa := max pageVa seg.vaddr.toNat
  let copyEndVa := min (pageVa + pageSize) (seg.vaddr.toNat + seg.fileSize.toNat)
  if copyEndVa > copyStartVa then
    let srcStart := seg.fileOffset.toNat + (copyStartVa - seg.vaddr.toNat)
    { pageVa, srcFileRange := (srcStart, srcStart + (copyEndVa - copyStartVa))
      inPageOffset := copyStartVa - pageVa, executable := seg.executable }
  else { pageVa, srcFileRange := (0, 0), inPageOffset := 0, executable := seg.executable }

/-- The entries for all pages of the segment, in order. -/
def entries (seg : LoadSegment) : List ElfLoadEntry :=
  if seg.memSize = 0 then []
  else (range seg.numPages).map fun p => seg.entryAt (seg.firstPageVa + p * pageSize)

end LoadSegment

open LoadSegment

/-- The body of `plan_elf_load`'s segment loop, with `count` entries planned before. -/
def planSegment (elfLen cap count i : Nat) (seg : LoadSegment) :
    Except ElfLoadError (List ElfLoadEntry) :=
  if seg.fileSize > seg.memSize then
    .error (.fileSizeExceedsMemSize i seg.fileSize seg.memSize)
  else if seg.memSize = 0 then .ok []
  else if seg.endVa ≥ 2 ^ 64 then .error (.vaddrRangeOverflow i)
  else
    let fileEnd := seg.fileOffset.toNat + seg.fileSize.toNat
    if fileEnd ≥ 2 ^ 64 then .error (.fileRangeOutOfBounds i (2 ^ 64 - 1) elfLen)
    else if fileEnd > elfLen ∨ seg.fileOffset.toNat > elfLen then
      .error (.fileRangeOutOfBounds i fileEnd elfLen)
    else if seg.vaddr.toNat ≥ userVaEnd ∨ seg.endVa > userVaEnd then
      .error (.vaddrOutOfUserRange i seg.vaddr)
    else if count + seg.numPages > cap then .error (.tooManyEntries (count + seg.numPages) cap)
    else .ok seg.entries

def planSegments (elfLen cap : Nat) :
    Nat → List ElfLoadEntry → List LoadSegment → Except ElfLoadError (List ElfLoadEntry)
  | _, out, [] => .ok out
  | i, out, seg :: segs =>
    match planSegment elfLen cap out.length i seg with
    | .ok es => planSegments elfLen cap (i + 1) (out ++ es) segs
    | .error e => .error e

/-- `plan_elf_load`, into a buffer of `cap` entries -/
def planElfLoad (info : ElfInfo) (elfLen cap : Nat) : Except ElfLoadError (List ElfLoadEntry) :=
  planSegments elfLen cap 0 [] info.segments

/-- The parsed image and its plan, as the loaders of init and posix-server obtain them. -/
def planImage (data : Bytes) (cap : Nat) : Except Fault (ElfInfo × List ElfLoadEntry) :=
  match parseElf data with
  | .error f => .error f
  | .ok info =>
    match planElfLoad info data.length cap with
    | .error e => .error (.plan e)
    | .ok plan => .ok (info, plan)

/-! ## The child's address space -/

/-- A mapped page: its bytes by offset, and whether it is mapped executable. -/
structure Frame where
  bytes : Nat → UInt8
  executable : Bool

/-- The zeroed page of an entry with the file slice copied in. -/
def ElfLoadEntry.frame (data : Bytes) (e : ElfLoadEntry) : Frame where
  bytes off :=
    if e.inPageOffset ≤ off ∧ off < e.inPageOffset + (e.srcFileRange.2 - e.srcFileRange.1) then
      data.getD (e.srcFileRange.1 + (off - e.inPageOffset)) 0
    else 0
  executable := e.executable

/-- Pages by their virtual address. -/
abbrev AddressSpace := Nat → Option Frame

/-- The stack's mappings, contiguous from `USER_STACK_BASE` on. -/
def stackMappings (stack : List (Nat → UInt8)) : List (Nat × Frame) :=
  stack.mapIdx fun s bytes => (userStackBase + s * pageSize, { bytes, executable := false })

/-- What `sys_create_process` maps: the plan's entries in order, then the stack. -/
def childSpace (data : Bytes) (plan : List ElfLoadEntry) (stack : List (Nat → UInt8)) :
    AddressSpace :=
  overlay (fun _ => none)
    ((plan.map fun e => (e.pageVa, e.frame data)) ++ stackMappings stack)

/-- The byte a load from `a` sees. -/
def AddressSpace.read (space : AddressSpace) (a : Nat) : Option UInt8 :=
  (space (a / pageSize * pageSize)).map fun f => f.bytes (a % pageSize)

/-! ## What a loaded image is -/

namespace LoadSegment

def Covers (seg : LoadSegment) (a : Nat) : Prop := seg.vaddr.toNat ≤ a ∧ a < seg.endVa

instance (seg : LoadSegment) (a : Nat) : Decidable (seg.Covers a) :=
  inferInstanceAs (Decidable (_ ∧ _))

/-- What the image gives the address `a` of the segment: the file byte, or zero beyond the
    segment's file size. -/
def byteAt (data : Bytes) (seg : LoadSegment) (a : Nat) : Option UInt8 :=
  if a < seg.vaddr.toNat + seg.fileSize.toNat then
    data[seg.fileOffset.toNat + (a - seg.vaddr.toNat)]?
  else some 0

def onPage (seg : LoadSegment) (page : Nat) : Bool :=
  page % pageSize = 0 && max page seg.vaddr.toNat < min (page + pageSize) seg.endVa

end LoadSegment

/-- The memory ranges of the segments do not overlap; they may share pages. -/
def RangesDisjoint (segs : List LoadSegment) : Prop :=
  segs.Pairwise fun s t => ∀ a, ¬ (s.Covers a ∧ t.Covers a)

/-- Every segment is in the child's memory as the image has it, and the plan maps nothing else. -/
structure Loaded (data : Bytes) (info : ElfInfo) (plan : List ElfLoadEntry)
    (space : AddressSpace) : Prop where
  reads : ∀ seg ∈ info.segments, ∀ a, seg.Covers a → space.read a = seg.byteAt data a
  executable : ∀ seg ∈ info.segments, seg.executable = true → ∀ page, seg.onPage page = true →
    ∃ f, space page = some f ∧ f.executable = true
  within : ∀ e ∈ plan, ∃ seg ∈ info.segments, seg.onPage e.pageVa = true

def lastOn (segs : List LoadSegment) (page : Nat) : Option LoadSegment :=
  (segs.filter (·.onPage page)).getLast?

/-- On a page where `last` supersedes `seg`, `seg` has only zeroes, and is executable only if
    `last` is. -/
def SharesHarmlessly (data : Bytes) (segs : List LoadSegment) : Prop :=
  ∀ seg ∈ segs, ∀ page, seg.onPage page = true → ∀ last, lastOn segs page = some last →
    last ≠ seg →
      (∀ a, page ≤ a → a < page + pageSize → seg.Covers a → seg.byteAt data a = some 0) ∧
      (seg.executable = true → last.executable = true)

/-- No segment has bytes on one of the `n` pages of the stack. -/
def ClearOfStack (n : Nat) (segs : List LoadSegment) : Prop :=
  ∀ seg ∈ segs, ∀ s < n, seg.onPage (userStackBase + s * pageSize) = false

instance (n : Nat) (segs : List LoadSegment) : Decidable (ClearOfStack n segs) :=
  inferInstanceAs (Decidable (∀ seg ∈ segs, ∀ s < n, _))

/-! ## The plan lists the pages of the segments -/

/-- What the plan has checked of a segment. -/
structure LoadSegment.Fits (elfLen : Nat) (seg : LoadSegment) : Prop where
  file_le_mem : seg.fileSize.toNat ≤ seg.memSize.toNat
  file_le : seg.memSize ≠ 0 → seg.fileOffset.toNat + seg.fileSize.toNat ≤ elfLen

section

variable {elfLen cap count i : Nat} {seg : LoadSegment} {es : List ElfLoadEntry}

theorem planSegment_ok (h : planSegment elfLen cap count i seg = .ok es) :
    es = seg.entries ∧ seg.Fits elfLen := by
  unfold planSegment at h
  by_cases hsize : seg.fileSize > seg.memSize
  · rw [if_pos hsize] at h
    cases h
  rw [if_neg hsize] at h
  have hle : seg.fileSize.toNat ≤ seg.memSize.toNat := not_lt.mp hsize
  by_cases hmem : seg.memSize = 0
  · rw [if_pos hmem] at h
    cases h
    exact ⟨by rw [entries, if_pos hmem], hle, fun hne => absurd hmem hne⟩
  rw [if_neg hmem] at h
  dsimp only at h
  split at h; · cases h
  split at h; · cases h
  split at h; · cases h
  next hfile =>
  split at h; · cases h
  split at h; · cases h
  cases h
  exact ⟨rfl, hle, fun _ => not_lt.mp fun hlt => hfile (.inl hlt)⟩

variable {plan : List ElfLoadEntry}

theorem planSegments_ok {segs : List LoadSegment} {out : List ElfLoadEntry}
    (h : planSegments elfLen cap i out segs = .ok plan) :
    plan = out ++ segs.flatMap entries ∧ ∀ seg ∈ segs, seg.Fits elfLen := by
  induction segs generalizing i out with
  | nil =>
    cases h
    exact ⟨by simp, by simp⟩
  | cons seg segs ih =>
    unfold planSegments at h
    split at h
    · next es hseg =>
      obtain ⟨rfl, hfits⟩ := planSegment_ok hseg
      grind
    · cases h

theorem planImage_ok {data : Bytes} {info : ElfInfo} (h : planImage data cap = .ok (info, plan)) :
    plan = info.segments.flatMap entries ∧
      ∀ seg ∈ info.segments, seg.Fits data.length := by
  unfold planImage at h
  split at h
  · cases h
  · next info' hparse =>
    split at h
    · cases h
    · next plan' hplan =>
      cases h
      exact planSegments_ok hplan

end

namespace LoadSegment

variable {seg : LoadSegment} {page a : Nat}

theorem onPage_iff : seg.onPage page = true ↔
    page % pageSize = 0 ∧ max page seg.vaddr.toNat < min (page + pageSize) seg.endVa := by
  simp [onPage]

/-- The pages of the segment are those of the plan's page loop. -/
theorem onPage_iff_exists (hmem : seg.memSize ≠ 0) :
    seg.onPage page = true ↔ ∃ p < seg.numPages, page = seg.firstPageVa + p * pageSize := by
  have hpos : 0 < seg.memSize.toNat :=
    Nat.pos_of_ne_zero fun h => hmem (UInt64.toNat_inj.mp h)
  rw [onPage_iff]
  unfold numPages firstPageVa endVa pageSize
  constructor
  · rintro ⟨hal, hlt⟩
    exact ⟨page / 4096 - seg.vaddr.toNat / 4096, by omega, by omega⟩
  · rintro ⟨p, hp, rfl⟩
    omega

theorem onPage_memSize (h : seg.onPage page = true) : seg.memSize ≠ 0 := by
  intro h0
  have hlt := (onPage_iff.mp h).2
  unfold endVa at hlt
  rw [h0, UInt64.toNat_zero] at hlt
  omega

/-- An address of the segment lies on the page that holds it. -/
theorem Covers.onPage (h : seg.Covers a) : seg.onPage (a / pageSize * pageSize) = true := by
  obtain ⟨hlo, hhi⟩ := h
  rw [onPage_iff]
  unfold pageSize
  omega

/-- A page of the segment holds one of its addresses. -/
theorem exists_covers (h : seg.onPage page = true) :
    ∃ a, seg.Covers a ∧ a / pageSize * pageSize = page := by
  obtain ⟨hal, hlt⟩ := onPage_iff.mp h
  unfold pageSize at hal hlt
  refine ⟨max page seg.vaddr.toNat, ⟨by omega, by omega⟩, ?_⟩
  unfold pageSize
  omega

@[simp] theorem pageVa_entryAt : (seg.entryAt page).pageVa = page := by
  unfold entryAt
  dsimp only
  split <;> rfl

theorem executable_frame_entryAt (data : Bytes) (seg : LoadSegment) (page : Nat) :
    ((seg.entryAt page).frame data).executable = seg.executable := by
  unfold ElfLoadEntry.frame entryAt
  dsimp only
  split <;> rfl

theorem mem_entries {e : ElfLoadEntry} :
    e ∈ seg.entries ↔ seg.onPage e.pageVa = true ∧ e = seg.entryAt e.pageVa := by
  unfold entries
  by_cases hmem : seg.memSize = 0
  · rw [if_pos hmem]
    grind [onPage_memSize]
  rw [if_neg hmem, onPage_iff_exists hmem, mem_map]
  constructor
  · rintro ⟨p, hp, rfl⟩
    rw [pageVa_entryAt]
    exact ⟨⟨p, mem_range.mp hp, rfl⟩, rfl⟩
  · rintro ⟨⟨p, hp, hpage⟩, he⟩
    exact ⟨p, mem_range.mpr hp, by rw [← hpage, ← he]⟩

/-- The page of an entry holds the file bytes of the segment at their addresses, and zeroes
    around them. -/
theorem bytes_frame_entryAt (data : Bytes) (seg : LoadSegment) (page off : Nat)
    (hoff : off < pageSize) :
    ((seg.entryAt page).frame data).bytes off =
      if seg.vaddr.toNat ≤ page + off ∧ page + off < seg.vaddr.toNat + seg.fileSize.toNat then
        data.getD (seg.fileOffset.toNat + (page + off - seg.vaddr.toNat)) 0
      else 0 := by
  unfold ElfLoadEntry.frame entryAt
  dsimp only
  split
  · grind
  · next hcopy =>
    -- nothing of the page is file-backed
    dsimp only
    rw [if_neg (by omega), if_neg (by omega)]

end LoadSegment

/-! ## What stands on a page -/

section

variable {segs : List LoadSegment} {page : Nat}

theorem lastOn_eq_some {last : LoadSegment} (h : lastOn segs page = some last) :
    last ∈ segs ∧ last.onPage page = true := by
  have hmem := mem_of_getLast? h
  rwa [mem_filter] at hmem

theorem exists_lastOn {seg : LoadSegment} (hseg : seg ∈ segs) (h : seg.onPage page = true) :
    ∃ last, lastOn segs page = some last := by
  have hmem : seg ∈ segs.filter (·.onPage page) := mem_filter.mpr ⟨hseg, h⟩
  exact ⟨_, getLast?_eq_some_getLast (ne_nil_of_mem hmem)⟩

variable {stack : List (Nat → UInt8)}

theorem mem_stackMappings {m : Nat × Frame} :
    m ∈ stackMappings stack ↔ ∃ s, ∃ h : s < stack.length,
      (userStackBase + s * pageSize, { bytes := stack[s], executable := false }) = m := by
  unfold stackMappings
  exact mem_mapIdx

/-- The stack's pages hold what the stack holds, whatever the plan maps there. -/
theorem childSpace_stack (data : Bytes) (plan : List ElfLoadEntry) (n s : Nat) (hs : s < n)
    (bytes : Nat → UInt8) :
    childSpace data plan (replicate n bytes) (userStackBase + s * pageSize) =
      some { bytes, executable := false } := by
  unfold childSpace
  rw [overlay_append]
  grind [mem_stackMappings, overlay_of_key]

/-- Off the stack, a page is the one that the last segment on it has there. -/
theorem childSpace_page (data : Bytes)
    (hstack : ∀ s < stack.length, page ≠ userStackBase + s * pageSize) :
    childSpace data (segs.flatMap entries) stack page =
      (lastOn segs page).map fun seg => (seg.entryAt page).frame data := by
  unfold childSpace
  rw [overlay_append, overlay_of_not_key, map_flatMap,
    overlay_flatMap _ onPage fun seg page => (seg.entryAt page).frame data]
  · unfold lastOn
    cases (segs.filter (·.onPage page)).getLast? <;> rfl
  · intro seg k f
    grind [mem_entries, pageVa_entryAt]
  · grind [mem_stackMappings]

end

section

variable {data : Bytes} {segs : List LoadSegment} {stack : List (Nat → UInt8)}
  {seg last : LoadSegment} {a : Nat}

variable {n : Nat}

theorem ClearOfStack.ne {page : Nat} (h : ClearOfStack n segs) (hseg : seg ∈ segs)
    (hpage : seg.onPage page = true) : ∀ s < n, page ≠ userStackBase + s * pageSize := by
  rintro s hs rfl
  rw [h seg hseg s hs] at hpage
  cases hpage

theorem RangesDisjoint.not_covers (h : RangesDisjoint segs) (hseg : seg ∈ segs)
    (hlast : last ∈ segs) (hne : last ≠ seg) (hcov : seg.Covers a) : ¬ last.Covers a := by
  intro hcov'
  have hsymm : Std.Symm fun s t : LoadSegment => ∀ a, ¬ (s.Covers a ∧ t.Covers a) :=
    ⟨fun _ _ hst b hb => hst b hb.symm⟩
  exact List.Pairwise.forall h hseg hlast hne.symm a ⟨hcov, hcov'⟩

/-- A load from a segment sees the segment's byte if the segment is the last one on the page,
    and zero otherwise. -/
theorem read_childSpace (hfits : ∀ seg ∈ segs, seg.Fits data.length) (hdisj : RangesDisjoint segs)
    (hclear : ClearOfStack stack.length segs) (hseg : seg ∈ segs) (hcov : seg.Covers a)
    (hlast : lastOn segs (a / pageSize * pageSize) = some last) :
    (childSpace data (segs.flatMap entries) stack).read a =
      if last = seg then seg.byteAt data a else some 0 := by
  have hpage := hcov.onPage
  have hmod : a / pageSize * pageSize + a % pageSize = a := Nat.div_add_mod' a pageSize
  unfold AddressSpace.read
  rw [childSpace_page data (hclear.ne hseg hpage), hlast, Option.map_some, Option.map_some,
    bytes_frame_entryAt _ _ _ _ (Nat.mod_lt _ (by decide)), hmod]
  by_cases heq : last = seg
  · subst heq
    rw [if_pos rfl]
    unfold byteAt
    by_cases hfile : a < last.vaddr.toNat + last.fileSize.toNat
    · have hin := (hfits last hseg).file_le (onPage_memSize hpage)
      have hlo := hcov.1
      rw [if_pos ⟨hlo, hfile⟩, if_pos hfile, getD_eq_getElem?_getD,
        getElem?_eq_getElem (by omega), Option.getD_some]
    · rw [if_neg fun h => hfile h.2, if_neg hfile]
  · rw [if_neg heq, if_neg]
    rintro ⟨hlo, hhi⟩
    obtain ⟨hmem, -⟩ := lastOn_eq_some hlast
    have hle := (hfits last hmem).file_le_mem
    refine hdisj.not_covers hseg hmem heq hcov ⟨hlo, ?_⟩
    unfold endVa
    omega

/-- A stack page reads as the stack has it, the byte of a segment is fixed. -/
theorem clearOfStack_of_reads {plan : List ElfLoadEntry}
    (h : ∀ b : UInt8, ∀ seg ∈ segs, ∀ a, seg.Covers a →
      (childSpace data plan (replicate n fun _ => b)).read a = seg.byteAt data a) :
    ClearOfStack n segs := by
  intro seg hseg s hs
  by_contra hon
  rw [Bool.not_eq_false] at hon
  obtain ⟨a, hcov, hpage⟩ := exists_covers hon
  have hreads (b : UInt8) : some b = seg.byteAt data a := by
    have hread := h b seg hseg a hcov
    unfold AddressSpace.read at hread
    rwa [hpage, childSpace_stack data _ n s hs] at hread
  have h01 := (hreads 0).trans (hreads 1).symm
  revert h01
  decide

variable {info : ElfInfo}

section

variable (hfits : ∀ seg ∈ info.segments, seg.Fits data.length)
  (hdisj : RangesDisjoint info.segments) (hclear : ClearOfStack stack.length info.segments)
include hfits hdisj hclear

theorem Loaded.sharesHarmlessly (h : Loaded data info (info.segments.flatMap entries)
      (childSpace data (info.segments.flatMap entries) stack)) :
    SharesHarmlessly data info.segments := by
  intro seg hseg page hpage last hlast hne
  constructor
  · intro a hlo hhi hcov
    have hpa : a / pageSize * pageSize = page := by
      have hal := (onPage_iff.mp hpage).1
      unfold pageSize at hhi hal ⊢
      omega
    rw [← h.reads seg hseg a hcov,
      read_childSpace hfits hdisj hclear hseg hcov (hpa ▸ hlast), if_neg hne]
  · intro hx
    obtain ⟨f, hf, hfx⟩ := h.executable seg hseg hx page hpage
    rw [childSpace_page data (hclear.ne hseg hpage), hlast] at hf
    cases hf
    rwa [executable_frame_entryAt] at hfx

theorem SharesHarmlessly.loaded (h : SharesHarmlessly data info.segments) :
    Loaded data info (info.segments.flatMap entries)
      (childSpace data (info.segments.flatMap entries) stack) where
  reads seg hseg a hcov := by
    obtain ⟨last, hlast⟩ := exists_lastOn hseg hcov.onPage
    rw [read_childSpace hfits hdisj hclear hseg hcov hlast]
    split
    · rfl
    · next hne =>
      have hlo : a / pageSize * pageSize ≤ a := Nat.div_mul_le_self a pageSize
      have hhi : a < a / pageSize * pageSize + pageSize := Nat.lt_div_mul_add (by decide)
      exact ((h seg hseg _ hcov.onPage last hlast hne).1 a hlo hhi hcov).symm
  executable seg hseg hx page hpage := by
    obtain ⟨last, hlast⟩ := exists_lastOn hseg hpage
    refine ⟨(last.entryAt page).frame data, ?_, ?_⟩
    · rw [childSpace_page data (hclear.ne hseg hpage), hlast]
      rfl
    · rw [executable_frame_entryAt]
      by_cases heq : last = seg
      · rwa [heq]
      · exact (h seg hseg page hpage last hlast heq).2 hx
  within e he := by
    obtain ⟨seg, hseg, hmem⟩ := mem_flatMap.mp he
    exact ⟨seg, hseg, (mem_entries.mp hmem).1⟩

end

end

/-- Segments with no common page supersede nothing of each other. -/
theorem sharesHarmlessly_of_pages {segs : List LoadSegment} (data : Bytes)
    (h : segs.Pairwise fun s t => ∀ page, ¬ (s.onPage page = true ∧ t.onPage page = true)) :
    SharesHarmlessly data segs := by
  intro seg hseg page hpage last hlast hne
  have hsymm : Std.Symm fun s t : LoadSegment =>
      ∀ page, ¬ (s.onPage page = true ∧ t.onPage page = true) :=
    ⟨fun _ _ hst page hp => hst page hp.symm⟩
  obtain ⟨hmem, hlastPage⟩ := lastOn_eq_some hlast
  exact absurd ⟨hpage, hlastPage⟩ (List.Pairwise.forall h hseg hmem hne.symm page)

/-! ## Two images -/

/-- `x` in `n` bytes, least significant byte first. -/
def le (n x : Nat) : Bytes := (range n).map fun i => UInt8.ofNat (x / 256 ^ i)

/-- An image that starts with its ELF header and the program headers of the segments. -/
def imageOf (segs : List LoadSegment) : Bytes :=
  elfMagic ++ [elfClass64, elfData2Lsb, 1, 0] ++ replicate 8 0 ++ le 2 etExec ++
    le 2 emAarch64 ++ le 4 1 ++ le 8 0x400000 ++ le 8 64 ++ le 8 0 ++ le 4 0 ++ le 2 64 ++
    le 2 56 ++ le 2 segs.length ++ le 2 0 ++ le 2 0 ++ le 2 0 ++
    segs.flatMap fun seg =>
      le 4 ptLoad ++ le 4 (seg.executable.toNat + 2 * seg.writable.toNat) ++
        le 8 seg.fileOffset.toNat ++ le 8 seg.vaddr.toNat ++ le 8 0 ++ le 8 seg.fileSize.toNat ++
        le 8 seg.memSize.toNat ++ le 8 pageSize

/-- Code and data, each from the start of the file. -/
def codeAndData (dataVa : UInt64) : List LoadSegment :=
  [{ vaddr := 0x400000, fileOffset := 0, fileSize := 64, memSize := 64
     executable := true, writable := false },
   { vaddr := dataVa, fileOffset := 0, fileSize := 64, memSize := 128
     executable := false, writable := true }]

/-- The plan for code and data. -/
def planOf (dataVa : UInt64) : List ElfLoadEntry :=
  (codeAndData dataVa).flatMap entries

/-- An image whose segments do not overlap is loaded, whatever its `n` stack pages hold, if and
    only if no segment has bytes on a stack page and every page that segments share holds only
    zeroes of the superseded ones, and is executable if one of them is. -/
theorem loaded_iff_sharesHarmlessly {data : Bytes} {cap : Nat} {info : ElfInfo}
    {plan : List ElfLoadEntry} (h : planImage data cap = .ok (info, plan))
    (hdisj : RangesDisjoint info.segments) (n : Nat) :
    (∀ stack, stack.length = n → Loaded data info plan (childSpace data plan stack)) ↔
      ClearOfStack n info.segments ∧ SharesHarmlessly data info.segments := by
  obtain ⟨rfl, hfits⟩ := planImage_ok h
  constructor
  · intro hloaded
    have hclear := clearOfStack_of_reads fun b =>
      (hloaded (replicate n fun _ => b) length_replicate).reads
    -- any stack will do from here on
    obtain ⟨stack, rfl⟩ : ∃ stack : List (Nat → UInt8), stack.length = n :=
      ⟨replicate n fun _ => 0, length_replicate⟩
    exact ⟨hclear, (hloaded stack rfl).sharesHarmlessly hfits hdisj hclear⟩
  · rintro ⟨hclear, hshares⟩ stack rfl
    exact hshares.loaded hfits hdisj hclear

/-- Code and data on pages of their own are loaded under every stack of four pages. -/
theorem loaded_iff_sharesHarmlessly_apart :
    ∃ plan, planImage (imageOf (codeAndData 0x401000)) 64 =
        .ok (⟨0x400000, codeAndData 0x401000⟩, plan) ∧
      ∀ stack, stack.length = 4 →
        Loaded (imageOf (codeAndData 0x401000)) ⟨0x400000, codeAndData 0x401000⟩ plan
          (childSpace (imageOf (codeAndData 0x401000)) plan stack) := by
  have hplan : planImage (imageOf (codeAndData 0x401000)) 64 =
      .ok (⟨0x400000, codeAndData 0x401000⟩, planOf 0x401000) := by decide +kernel
  have hdisj : RangesDisjoint (codeAndData 0x401000) := by
    simp [RangesDisjoint, codeAndData, LoadSegment.Covers, endVa]
    omega
  refine ⟨_, hplan, (loaded_iff_sharesHarmlessly hplan hdisj 4).mpr ⟨by decide, ?_⟩⟩
  apply sharesHarmlessly_of_pages
  simp [codeAndData, onPage_iff, endVa, pageSize]
  omega

/-- Code and data on one page: the data's page supersedes the code's, so the first byte of the
    code reads as zero and its page is not executable. -/
theorem packed_image_not_loaded :
    planImage (imageOf (codeAndData 0x400800)) 64 =
        .ok (⟨0x400000, codeAndData 0x400800⟩, planOf 0x400800) ∧
      RangesDisjoint (codeAndData 0x400800) ∧
      (imageOf (codeAndData 0x400800))[0]? = some 0x7f ∧
      (childSpace (imageOf (codeAndData 0x400800)) (planOf 0x400800)
        (replicate 4 fun _ => 0)).read 0x400000 = some 0 ∧
      ¬ Loaded (imageOf (codeAndData 0x400800)) ⟨0x400000, codeAndData 0x400800⟩ (planOf 0x400800)
        (childSpace (imageOf (codeAndData 0x400800)) (planOf 0x400800)
          (replicate 4 fun _ => 0)) := by
  have hread : (childSpace (imageOf (codeAndData 0x400800)) (planOf 0x400800)
      (replicate 4 fun _ => 0)).read 0x400000 = some 0 := by decide +kernel
  have hdisj : RangesDisjoint (codeAndData 0x400800) := by
    simp [RangesDisjoint, codeAndData, LoadSegment.Covers, endVa]
    omega
  refine ⟨by decide +kernel, hdisj, by decide +kernel, hread, fun hloaded => ?_⟩
  have hreads := hloaded.reads _ mem_cons_self 0x400000 (by decide)
  rw [hread] at hreads
  revert hreads
  decide +kernel

end Lockjaw.User.Elf
