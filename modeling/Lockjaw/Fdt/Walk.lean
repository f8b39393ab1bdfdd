/-
  Lockjaw.Fdt.Walk

  The flattened device tree parser of lockjaw-types: `walk_fdt`, which walks the
  structure block token by token with one node record per depth, and
  `parse_fdt_into`, which collects a device for every node with a `compatible`
  property and resolves `clocks` after the walk.

  An index outside the blob panics in the source; here it is `Fault.panicked`,
  next to the parser's own errors.  Arithmetic on `u32` and `u64` values of the
  blob wraps, as in a release build; positions are `usize` and are taken as
  natural numbers.  An array with a count (`compat_hashes`, `ranges`, `clocks`,
  `devices`) is the list of its first `count` entries.
-/

import Lockjaw.Lib.ByteImage

namespace Lockjaw.Fdt

open Lib Function

abbrev Bytes := List UInt8

/-- A byte string literal of the source. -/
def ascii (s : String) : Bytes := s.toList.map fun c => UInt8.ofNat c.toNat

def fdtBeginNode : UInt32 := 1
def fdtEndNode : UInt32 := 2
def fdtProp : UInt32 := 3
def fdtNop : UInt32 := 4
def fdtEnd : UInt32 := 9
def fdtMagic : UInt32 := 0xd00dfeed

def maxDepth : Nat := 4
def maxCompat : Nat := 4
def maxRanges : Nat := 3
def maxDevices : Nat := 192
def maxClockRefs : Nat := 4
def maxClockProviders : Nat := 16

/-! ## Devices -/

/-- FNV-1a. -/
def compatibleHash (s : Bytes) : UInt64 :=
  s.foldl (fun hash b => (hash ^^^ b.toUInt64) * 0x100000001b3) 0xcbf29ce484222325

structure ClockRef where
  controllerPhandle : UInt32
  clockId : UInt32
  deriving DecidableEq, Repr

structure DeviceInfo where
  compatHashes : List UInt64
  mmioAddr : UInt64
  mmioSize : UInt64
  intid : UInt32
  claimed : Bool
  claimToken : UInt64
  clocks : List ClockRef
  phandle : UInt32
  deriving DecidableEq, Repr

def DeviceInfo.hasCompat (dev : DeviceInfo) (hash : UInt64) : Bool := dev.compatHashes.contains hash

/-! ## Reading the blob -/

inductive FdtError where
  | tooSmall
  | badMagic
  | invalidOffsets
  | truncated
  deriving DecidableEq, Repr

/-- How a parse stops without a result. -/
inductive Fault where
  | error (e : FdtError)
  | panicked
  deriving DecidableEq, Repr

def readU32Be (data : Bytes) (offset : Nat) : Except Fault UInt32 :=
  match readBe32 data offset with
  | some w => .ok w
  | none => .error .panicked

def align4 (pos : Nat) : Nat := (pos + 3) / 4 * 4

def readString (data : Bytes) (offset : Nat) : Bytes := cstring data offset

def readCells (data : Bytes) (offset : Nat) (cells : UInt32) : Except Fault UInt64 :=
  if cells = 1 then do
    let lo ← readU32Be data offset
    return lo.toUInt64
  else if cells = 2 then do
    let hi ← readU32Be data offset
    let lo ← readU32Be data (offset + 4)
    return (hi.toUInt64 <<< 32) ||| lo.toUInt64
  else .ok 0

/-- `validate_header`: the offsets of the structure and strings blocks. -/
def validateHeader (data : Bytes) : Except Fault (Nat × Nat) :=
  if data.length < 40 then .error (.error .tooSmall)
  else do
    let magic ← readU32Be data 0
    if magic ≠ fdtMagic then .error (.error .badMagic)
    else
      let offDtStruct ← readU32Be data 8
      let offDtStrings ← readU32Be data 12
      if data.length ≤ offDtStruct.toNat ∨ data.length ≤ offDtStrings.toNat then
        .error (.error .invalidOffsets)
      else .ok (offDtStruct.toNat, offDtStrings.toNat)

/-- The loop of `parse_all_compat` with `slots` hashes still to fill. -/
def parseCompatFrom (data : Bytes) (stop : Nat) : Nat → Nat → List UInt64
  | 0, _ => []
  | slots + 1, pos =>
    if pos < stop then
      let s := readString data pos
      if s = [] then []
      else compatibleHash s :: parseCompatFrom data stop slots (pos + s.length + 1)
    else []

def parseAllCompat (data : Bytes) (start len : Nat) : List UInt64 :=
  parseCompatFrom data (start + len) maxCompat start

/-- `parse_interrupt`: the INTID of a GIC specifier if it is an SPI, else 0. -/
def parseInterrupt (data : Bytes) (start : Nat) : Except Fault UInt32 := do
  let intType ← readU32Be data start
  let spiNum ← readU32Be data (start + 4)
  return if intType = 0 then spiNum + 32 else 0

/-! ## Per-depth records -/

structure RangeEntry where
  childAddr : UInt64
  parentAddr : UInt64
  size : UInt64
  deriving DecidableEq, Repr

structure DepthCells where
  addressCells : UInt32 := 2
  sizeCells : UInt32 := 2
  ranges : List RangeEntry := []
  hasRanges : Bool := false
  rangesStart : Nat := 0
  rangesLen : Nat := 0

inductive EnableMethod where
  | none
  | psci
  | spinTable
  deriving DecidableEq, Repr

inductive PsciConduit where
  | unknown
  | hvc
  | smc
  deriving DecidableEq, Repr

/-- `NodeState`; the defaults are `NodeState::EMPTY`, where the largest `u32` in
    `clock_cells` means that the property is absent. -/
structure NodeState where
  compatHashes : List UInt64 := []
  regAddr : UInt64 := 0
  regSize : UInt64 := 0
  regAddr2 : UInt64 := 0
  intid : UInt32 := 0
  hasCompat : Bool := false
  regStart : Nat := 0
  regLen : Nat := 0
  enableMethod : EnableMethod := .none
  cpuReleaseAddr : UInt64 := 0
  psciConduit : PsciConduit := .unknown
  phandle : UInt32 := 0
  clockCells : UInt32 := 0xffffffff
  clocksStart : Nat := 0
  clocksLen : Nat := 0

/-- The loop of `parse_ranges_at` with `slots` entries still to fill. -/
def parseRangesFrom (data : Bytes) (childAc parentAc childSc : UInt32) (stop : Nat) :
    Nat → Nat → Except Fault (List RangeEntry)
  | 0, _ => .ok []
  | slots + 1, off =>
    let entryBytes := (childAc + parentAc + childSc).toNat * 4
    if off + entryBytes ≤ stop then do
      let ca ← readCells data off childAc
      let pa ← readCells data (off + childAc.toNat * 4) parentAc
      let sz ← readCells data (off + (childAc + parentAc).toNat * 4) childSc
      let rest ← parseRangesFrom data childAc parentAc childSc stop slots (off + entryBytes)
      return ⟨ca, pa, sz⟩ :: rest
    else .ok []

/-- `parse_ranges_at`: the record of depth `d` with its `ranges` decoded. -/
def parseRangesAt (data : Bytes) (d : Nat) (cells : Nat → DepthCells) :
    Except Fault DepthCells :=
  let dc := cells d
  let parentAc := if 0 < d then (cells (d - 1)).addressCells else 2
  if (dc.addressCells + parentAc + dc.sizeCells).toNat * 4 = 0 then .ok dc
  else do
    let entries ← parseRangesFrom data dc.addressCells parentAc dc.sizeCells
      (dc.rangesStart + dc.rangesLen) (maxRanges - dc.ranges.length) dc.rangesStart
    return { dc with ranges := dc.ranges ++ entries }

/-- One bus of `translate_address`: the first range that holds the address. -/
def applyRanges (ranges : List RangeEntry) (a : UInt64) : UInt64 :=
  match ranges.find? fun r => r.childAddr ≤ a && a - r.childAddr < r.size with
  | some r => r.parentAddr + (a - r.childAddr)
  | none => a

/-- `translate_address` from the bus at depth `level` up to depth 1. -/
def translateFrom (cells : Nat → DepthCells) : Nat → UInt64 → UInt64
  | 0, a => a
  | level + 1, a => translateFrom cells level (applyRanges (cells (level + 1)).ranges a)

def translateAddress (addr : UInt64) (nodeDepth : Nat) (cells : Nat → DepthCells) : UInt64 :=
  translateFrom cells (nodeDepth - 1) addr

/-! ## The walk -/

/-- The local variables of `walk_fdt` and what its closure has collected. -/
structure Walk (σ : Type) where
  pos : Nat
  depth : Nat
  state : Nat → NodeState
  nameStart : Nat → Nat
  nameEnd : Nat → Nat
  cells : Nat → DepthCells
  acc : σ

section Steps

variable {σ : Type} (data : Bytes) (offDtStrings : Nat) (onNode : σ → Bytes → NodeState → σ)

/-- The parent's deferred `ranges`, decoded at a child's BEGIN_NODE. -/
def finishRanges (depth : Nat) (cells : Nat → DepthCells) : Except Fault (Nat → DepthCells) :=
  if 0 < depth ∧ depth ≤ maxDepth ∧ (cells (depth - 1)).hasRanges ∧
      (cells (depth - 1)).ranges = [] ∧ 0 < (cells (depth - 1)).rangesLen then do
    let dc ← parseRangesAt data (depth - 1) cells
    return update cells (depth - 1) dc
  else .ok cells

def beginNode (w : Walk σ) : Except Fault (Walk σ) := do
  let cells ← finishRanges data w.depth w.cells
  let ne := w.pos + (readString data w.pos).length
  let pos := align4 (ne + 1)
  if w.depth < maxDepth then
    return { w with
      pos := pos
      depth := w.depth + 1
      state := update w.state w.depth {}
      cells := update cells w.depth {}
      nameStart := update w.nameStart w.depth w.pos
      nameEnd := update w.nameEnd w.depth ne }
  else return { w with pos := pos, depth := w.depth + 1, cells := cells }

/-- The address of a second `reg` entry, if there is one. -/
def secondReg (ac : UInt32) (entrySize : Nat) (s : NodeState) : Except Fault UInt64 :=
  if entrySize * 2 ≤ s.regLen then readCells data (s.regStart + entrySize) ac else .ok s.regAddr2

/-- The deferred `reg`, decoded at END_NODE with the parent's cell counts. -/
def finishReg (d : Nat) (cells : Nat → DepthCells) (s : NodeState) : Except Fault NodeState :=
  let ac := if 0 < d then (cells (d - 1)).addressCells else 2
  let sc := if 0 < d then (cells (d - 1)).sizeCells else 2
  let entrySize := (ac + sc).toNat * 4
  if 0 < s.regLen ∧ entrySize ≤ s.regLen then do
    let addr ← readCells data s.regStart ac
    let size ← readCells data (s.regStart + ac.toNat * 4) sc
    let addr2 ← secondReg data ac entrySize s
    return { s with regAddr := addr, regSize := size, regAddr2 := addr2 }
  else .ok s

/-- The addresses of a node, translated unless they are 0. -/
def translateReg (d : Nat) (cells : Nat → DepthCells) (s : NodeState) : NodeState :=
  { s with
    regAddr := if s.regAddr ≠ 0 then translateAddress s.regAddr d cells else s.regAddr
    regAddr2 := if s.regAddr2 ≠ 0 then translateAddress s.regAddr2 d cells else s.regAddr2 }

def endNode (w : Walk σ) : Except Fault (Walk σ) :=
  if w.depth = 0 then .error (.error .truncated)
  else
    let d := w.depth - 1
    if d < maxDepth then do
      let s ← finishReg data d w.cells (w.state d)
      let s := translateReg d w.cells s
      let name := (data.drop (w.nameStart d)).take (w.nameEnd d - w.nameStart d)
      return { w with
        depth := d
        state := update w.state d s
        acc := onNode w.acc name s }
    else return { w with depth := d }

/-- What the property `name`, `len` bytes at `start`, does to its node. -/
def applyProp (name : Bytes) (start len : Nat) (s : NodeState) (c : DepthCells) :
    Except Fault (NodeState × DepthCells) :=
  if name = ascii "compatible" then
    .ok ({ s with compatHashes := parseAllCompat data start len, hasCompat := true }, c)
  else if name = ascii "#address-cells" ∧ 4 ≤ len then do
    let n ← readU32Be data start
    return (s, { c with addressCells := n })
  else if name = ascii "#size-cells" ∧ 4 ≤ len then do
    let n ← readU32Be data start
    return (s, { c with sizeCells := n })
  else if name = ascii "reg" then
    -- `reg` and `ranges` wait: the cells of their bus may come after them
    .ok ({ s with regStart := start, regLen := len }, c)
  else if name = ascii "interrupts" ∧ 12 ≤ len then do
    let intid ← parseInterrupt data start
    return ({ s with intid := intid }, c)
  else if name = ascii "ranges" then
    .ok (s, { c with hasRanges := true, rangesStart := start, rangesLen := len })
  else if name = ascii "enable-method" then
    let val := readString data start
    if val = ascii "psci" then .ok ({ s with enableMethod := .psci }, c)
    else if val = ascii "spin-table" then .ok ({ s with enableMethod := .spinTable }, c)
    else .ok (s, c)
  else if name = ascii "cpu-release-addr" ∧ 8 ≤ len then do
    let a ← readCells data start 2
    return ({ s with cpuReleaseAddr := a }, c)
  else if name = ascii "method" then
    let val := readString data start
    if val = ascii "hvc" then .ok ({ s with psciConduit := .hvc }, c)
    else if val = ascii "smc" then .ok ({ s with psciConduit := .smc }, c)
    else .ok (s, c)
  else if (name = ascii "phandle" ∨ name = ascii "linux,phandle") ∧ 4 ≤ len then do
    let p ← readU32Be data start
    return ({ s with phandle := p }, c)
  else if name = ascii "#clock-cells" ∧ 4 ≤ len then do
    let n ← readU32Be data start
    return ({ s with clockCells := n }, c)
  else if name = ascii "clocks" then
    .ok ({ s with clocksStart := start, clocksLen := len }, c)
  else .ok (s, c)

def readProp (w : Walk σ) : Except Fault (Walk σ) :=
  if data.length < w.pos + 8 then .error (.error .truncated)
  else do
    let propLen ← readU32Be data w.pos
    let nameOff ← readU32Be data (w.pos + 4)
    let start := w.pos + 8
    let stop := start + propLen.toNat
    if data.length < stop then .error (.error .truncated)
    else
      let name := readString data (offDtStrings + nameOff.toNat)
      let d := w.depth - 1
      if 0 < w.depth ∧ d < maxDepth then
        let sc ← applyProp data name start propLen.toNat (w.state d) (w.cells d)
        return { w with
          pos := align4 stop
          state := update w.state d sc.1
          cells := update w.cells d sc.2 }
      else return { w with pos := align4 stop }

/-- One turn of the loop: a later state, or the end of the walk. -/
def walkStep (w : Walk σ) : Except Fault (Walk σ ⊕ σ) :=
  if data.length < w.pos + 4 then .error (.error .truncated)
  else do
    let token ← readU32Be data w.pos
    let w := { w with pos := w.pos + 4 }
    if token = fdtBeginNode then return .inl (← beginNode data w)
    else if token = fdtEndNode then return .inl (← endNode data onNode w)
    else if token = fdtProp then return .inl (← readProp data offDtStrings w)
    else if token = fdtNop then return .inl w
    else if token = fdtEnd then return .inr w.acc
    else .error (.error .truncated)

/-- The loop, with `fuel` turns.  Every turn moves `pos` by at least 4, so the
    blob's length is enough for any blob (`walkLoop_fuel`). -/
def walkLoop : Nat → Walk σ → Except Fault σ
  | 0, _ => .error (.error .truncated)
  | fuel + 1, w => do
    match ← walkStep data offDtStrings onNode w with
    | .inl w' => walkLoop fuel w'
    | .inr acc => return acc

def walkStart (offDtStruct : Nat) (acc : σ) : Walk σ where
  pos := offDtStruct
  depth := 0
  state := fun _ => {}
  nameStart := fun _ => 0
  nameEnd := fun _ => 0
  cells := fun _ => {}
  acc := acc

def walkFdt (offDtStruct : Nat) (acc : σ) : Except Fault σ :=
  walkLoop data offDtStrings onNode (data.length + 1) (walkStart offDtStruct acc)

end Steps

/-! ## parse_fdt_into -/

structure ClockProvider where
  phandle : UInt32
  clockCells : UInt32
  deriving DecidableEq, Repr

structure PendingClocks where
  deviceIdx : Nat
  bytesStart : UInt32
  bytesLen : UInt32
  deriving DecidableEq, Repr

/-- What the closure of `parse_fdt_into` collects. -/
structure Collected where
  devices : List DeviceInfo := []
  providers : List ClockProvider := []
  pending : List PendingClocks := []

def collectProvider (node : NodeState) (acc : Collected) : Collected :=
  if node.clockCells ≠ 0xffffffff ∧ node.phandle ≠ 0 ∧ acc.providers.length < maxClockProviders then
    { acc with providers := acc.providers ++ [⟨node.phandle, node.clockCells⟩] }
  else acc

/-- The entry of a node; its `clocks` are filled in after the walk. -/
def NodeState.device (node : NodeState) : DeviceInfo where
  compatHashes := node.compatHashes
  mmioAddr := node.regAddr
  mmioSize := node.regSize
  intid := node.intid
  claimed := false
  claimToken := 0
  clocks := []
  phandle := node.phandle

def collectDevice (node : NodeState) (acc : Collected) : Collected :=
  if node.hasCompat ∧ acc.devices.length < maxDevices then
    { acc with
      devices := acc.devices ++ [node.device]
      pending :=
        if 0 < node.clocksLen ∧ acc.pending.length < maxDevices then
          acc.pending ++
            [⟨acc.devices.length, UInt32.ofNat node.clocksStart, UInt32.ofNat node.clocksLen⟩]
        else acc.pending }
  else acc

def collectNode (acc : Collected) (_name : Bytes) (node : NodeState) : Collected :=
  collectDevice node (collectProvider node acc)

/-- The clock id of a reference: the first cell after the phandle, if the
    controller asks for any. -/
def clockIdAt (data : Bytes) (p : ClockProvider) (off : Nat) : Except Fault UInt32 :=
  if 1 ≤ p.clockCells then readU32Be data off else .ok 0

/-- The loop of `resolve_clocks_for` with `slots` references still to fill. -/
def resolveClocksFrom (data : Bytes) (providers : List ClockProvider) (stop : Nat) :
    Nat → Nat → Except Fault (List ClockRef)
  | 0, _ => .ok []
  | slots + 1, off =>
    if off + 4 ≤ stop then do
      let phandle ← readU32Be data off
      match providers.find? (·.phandle == phandle) with
      | none => return []
      | some p =>
        let cellsBytes := p.clockCells.toNat * 4
        if stop < off + 4 + cellsBytes then return []
        else
          let clockId ← clockIdAt data p (off + 4)
          let rest ← resolveClocksFrom data providers stop slots (off + 4 + cellsBytes)
          return ⟨phandle, clockId⟩ :: rest
    else .ok []

def resolveClocksFor (data : Bytes) (providers : List ClockProvider) (p : PendingClocks)
    (dev : DeviceInfo) : Except Fault DeviceInfo := do
  let refs ← resolveClocksFrom data providers (p.bytesStart.toNat + p.bytesLen.toNat)
    (maxClockRefs - dev.clocks.length) p.bytesStart.toNat
  return { dev with clocks := dev.clocks ++ refs }

/-- The second pass: every pending `clocks` property, in order. -/
def resolveAll (data : Bytes) (providers : List ClockProvider) :
    List PendingClocks → List DeviceInfo → Except Fault (List DeviceInfo)
  | [], devices => .ok devices
  | p :: pending, devices =>
    match devices[p.deviceIdx]? with
    | none => .error .panicked
    | some dev => do
      let dev ← resolveClocksFor data providers p dev
      resolveAll data providers pending (devices.set p.deviceIdx dev)

/-- The device table of a blob. -/
def parseFdtInto (data : Bytes) : Except Fault (List DeviceInfo) := do
  let (offDtStruct, offDtStrings) ← validateHeader data
  let acc ← walkFdt data offDtStrings collectNode offDtStruct {}
  resolveAll data acc.providers acc.pending acc.devices

end Lockjaw.Fdt
