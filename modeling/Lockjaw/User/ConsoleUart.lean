/-
  Lockjaw.User.ConsoleUart

  Who owns the console.  The kernel picks its UART with `scan_platform` (fdt.rs),
  an else-if chain run on every node that `walk_fdt` delivers; the device manager
  reserves the first PL011 of the table that `parse_fdt_into` collects in the same
  walk.  Its comment says why: "`scan_platform()` takes the first one it finds, so
  the device manager must match that policy".

  A walk with any callback is a fold of the callback over the nodes of the blob
  (`walkFdt_eq_fold`), so the two choices are compared as two searches in one list.
-/

import Lockjaw.Lib.Replay
import Lockjaw.User.DeviceManager

namespace Lockjaw.Fdt

open User.DeviceManager List

/-! ## scan_platform -/

inductive SmpMethod where
  | none
  | psci (hvc : Bool)
  | spinTable
  deriving DecidableEq, Repr

structure CpuInfo where
  mpidr : UInt64
  releaseAddr : UInt64
  deriving DecidableEq, Repr

/-- `PlatformHw`; the defaults are its values before the walk. -/
structure PlatformHw where
  pl011Base : UInt64 := 0
  gicdBase : UInt64 := 0
  gicSecondaryBase : UInt64 := 0
  gicV2 : Bool := false
  ramBase : UInt64 := 0
  ramSize : UInt64 := 0
  smpMethod : SmpMethod := .none
  cpus : List CpuInfo := []
  deriving DecidableEq, Repr

def NodeState.hasCompatHash (node : NodeState) (hash : UInt64) : Bool :=
  node.compatHashes.contains hash

def isMemory (name : Bytes) : Bool :=
  name = ascii "memory" || (7 < name.length && name.take 7 = ascii "memory@")

/-- The else-if chain of the closure: RAM, UART, GICv3, GICv2. -/
def scanDevice (name : Bytes) (node : NodeState) (hw : PlatformHw) : PlatformHw :=
  if isMemory name ∧ node.regSize ≠ 0 ∧ hw.ramSize = 0 then
    { hw with ramBase := node.regAddr, ramSize := node.regSize }
  else if node.hasCompatHash pl011Hash ∧ hw.pl011Base = 0 then
    { hw with pl011Base := node.regAddr }
  else if node.hasCompatHash (compatibleHash (ascii "arm,gic-v3")) ∧ hw.gicdBase = 0 then
    { hw with gicdBase := node.regAddr, gicSecondaryBase := node.regAddr2, gicV2 := false }
  else if (node.hasCompatHash (compatibleHash (ascii "arm,cortex-a15-gic")) ∨
      node.hasCompatHash (compatibleHash (ascii "arm,gic-400"))) ∧ hw.gicdBase = 0 then
    { hw with gicdBase := node.regAddr, gicSecondaryBase := node.regAddr2, gicV2 := true }
  else hw

/-- A `/psci` node without a known conduit changes nothing. -/
def scanPsci (name : Bytes) (node : NodeState) (hw : PlatformHw) : PlatformHw :=
  if name = ascii "psci" then
    match node.psciConduit with
    | .hvc => { hw with smpMethod := .psci true }
    | .smc => { hw with smpMethod := .psci false }
    | .unknown => hw
  else hw

/-- `cpu@N`: a spin-table CPU sets the boot method unless PSCI is known. -/
def scanCpu (name : Bytes) (node : NodeState) (hw : PlatformHw) : PlatformHw :=
  if 4 ≤ name.length ∧ name.take 4 = ascii "cpu@" ∧ hw.cpus.length < 4 then
    { hw with
      cpus := hw.cpus ++ [⟨node.regAddr, node.cpuReleaseAddr⟩]
      smpMethod := match node.enableMethod, hw.smpMethod with
        | .spinTable, .none => .spinTable
        | _, m => m }
  else hw

def scanNode (hw : PlatformHw) (name : Bytes) (node : NodeState) : PlatformHw :=
  scanCpu name node (scanPsci name node (scanDevice name node hw))

def scanPlatform (data : Bytes) : Except Fault PlatformHw := do
  let (offDtStruct, offDtStrings) ← validateHeader data
  walkFdt data offDtStrings scanNode offDtStruct {}

/-! ## The two choices -/

/-- A node that the kernel takes as RAM if it has none yet. -/
def isRam (x : Bytes × NodeState) : Bool := isMemory x.1 && x.2.regSize ≠ 0

/-- A PL011 whose address the kernel keeps. -/
def isConsole (x : Bytes × NodeState) : Bool := x.2.hasCompatHash pl011Hash && x.2.regAddr ≠ 0

/-- The address of the first console node, 0 if there is none. -/
def consoleAddr (nodes : List (Bytes × NodeState)) : UInt64 :=
  ((nodes.find? isConsole).map (·.2.regAddr)).getD 0

theorem consoleAddr_cons (x : Bytes × NodeState) (nodes : List (Bytes × NodeState)) :
    consoleAddr (x :: nodes) = if isConsole x then x.2.regAddr else consoleAddr nodes := by
  unfold consoleAddr
  rw [find?_cons]
  cases isConsole x <;> rfl

variable (x : Bytes × NodeState) (hw : PlatformHw)

/-- What a node does to the two fields that matter here. -/
theorem scanNode_eq : (scanNode hw x.1 x.2).ramSize =
      (if isRam x ∧ hw.ramSize = 0 then x.2.regSize else hw.ramSize) ∧
    (scanNode hw x.1 x.2).pl011Base =
      if ¬ (isRam x ∧ hw.ramSize = 0) ∧ x.2.hasCompatHash pl011Hash ∧ hw.pl011Base = 0 then
        x.2.regAddr
      else hw.pl011Base := by
  have hrest (hw' : PlatformHw) : (scanCpu x.1 x.2 (scanPsci x.1 x.2 hw')).ramSize = hw'.ramSize ∧
      (scanCpu x.1 x.2 (scanPsci x.1 x.2 hw')).pl011Base = hw'.pl011Base := by
    unfold scanCpu scanPsci
    split <;> split <;> try split
    all_goals exact ⟨rfl, rfl⟩
  have hram : (isRam x ∧ hw.ramSize = 0) ↔
      isMemory x.1 ∧ x.2.regSize ≠ 0 ∧ hw.ramSize = 0 := by
    simp only [isRam, Bool.and_eq_true, decide_eq_true_eq, and_assoc]
  rw [scanNode, (hrest _).1, (hrest _).2, scanDevice]
  by_cases hr : isMemory x.1 ∧ x.2.regSize ≠ 0 ∧ hw.ramSize = 0
  · rw [if_pos hr, if_pos (hram.mpr hr), if_neg fun h => h.1 (hram.mpr hr)]
    exact ⟨rfl, rfl⟩
  · have hn := mt hram.mp hr
    rw [if_neg hr, if_neg hn]
    by_cases hu : x.2.hasCompatHash pl011Hash ∧ hw.pl011Base = 0
    · rw [if_pos hu, if_pos ⟨hn, hu⟩]
      exact ⟨rfl, rfl⟩
    · have hno : ¬ (¬ (isRam x ∧ hw.ramSize = 0) ∧ x.2.hasCompatHash pl011Hash ∧
          hw.pl011Base = 0) := fun h => hu h.2
      rw [if_neg hu, if_neg hno]
      split
      · exact ⟨rfl, rfl⟩
      · split <;> exact ⟨rfl, rfl⟩

/-- The kernel's choice: the first RAM node is out of the running, and a PL011 at
    address 0 does not end the search. -/
theorem scan_pl011Base (nodes : List (Bytes × NodeState)) :
    (deliver scanNode hw nodes).pl011Base =
      if hw.pl011Base ≠ 0 then hw.pl011Base
      else consoleAddr (if hw.ramSize ≠ 0 then nodes else nodes.eraseP isRam) := by
  induction nodes generalizing hw with
  | nil =>
    show hw.pl011Base = _
    by_cases h : hw.pl011Base = 0
    · simp [h, consoleAddr]
    · rw [if_pos h]
  | cons x nodes ih =>
    obtain ⟨hram, hbase⟩ := scanNode_eq x hw
    show (deliver scanNode (scanNode hw x.1 x.2) nodes).pl011Base = _
    rw [ih, hbase, hram]
    by_cases hr : isRam x ∧ hw.ramSize = 0
    · -- taken as RAM, whatever its compatible strings are
      have hsize : x.2.regSize ≠ 0 := by
        have hx := hr.1
        simp only [isRam, Bool.and_eq_true, decide_eq_true_eq] at hx
        exact hx.2
      simp [hr, hsize]
    · have hlist : (if hw.ramSize ≠ 0 then x :: nodes else (x :: nodes).eraseP isRam) =
          x :: if hw.ramSize ≠ 0 then nodes else nodes.eraseP isRam := by
        split
        · rfl
        · exact eraseP_cons_of_neg fun hx => hr ⟨hx, not_not.mp ‹_›⟩
      rw [if_neg hr, hlist, consoleAddr_cons]
      by_cases hu : x.2.hasCompatHash pl011Hash <;> by_cases hz : hw.pl011Base = 0 <;>
        simp [hr, hu, hz, isConsole]

/-- The table's devices: the nodes with a `compatible` property, as far as it goes. -/
theorem deliver_devices (nodes : List (Bytes × NodeState)) (acc : Collected)
    (h : acc.devices.length + (nodes.filter (·.2.hasCompat)).length ≤ maxDevices) :
    (deliver collectNode acc nodes).devices =
      acc.devices ++ (nodes.filter (·.2.hasCompat)).map (·.2.device) := by
  induction nodes generalizing acc with
  | nil => exact (append_nil _).symm
  | cons x nodes ih =>
    have hprov : (collectProvider x.2 acc).devices = acc.devices := by
      unfold collectProvider
      split <;> rfl
    show (deliver collectNode (collectDevice x.2 (collectProvider x.2 acc)) nodes).devices = _
    unfold collectDevice
    cases hx : x.2.hasCompat with
    | false =>
      rw [filter_cons_of_neg (by simp [hx])] at h ⊢
      rw [if_neg (by simp), ih _ (by rw [hprov]; exact h), hprov]
    | true =>
      rw [filter_cons_of_pos (p := fun x : Bytes × NodeState => x.2.hasCompat) hx] at h ⊢
      rw [length_cons] at h
      rw [if_pos ⟨rfl, by rw [hprov]; omega⟩, ih, hprov, append_assoc]
      · rfl
      · show ((collectProvider x.2 acc).devices ++ [x.2.device]).length + _ ≤ _
        rw [hprov, length_append, length_singleton]
        omega

end Lockjaw.Fdt

namespace Lockjaw.User.DeviceManager

open Fdt

/-- A node that gives a PL011 entry of the table. -/
def isPl011 (x : Bytes × NodeState) : Bool := x.2.hasCompat ∧ x.2.hasCompatHash pl011Hash

variable {data : Bytes} {nodes : List (Bytes × NodeState)} {devices : List DeviceInfo}
  {hw : PlatformHw} {dev : DeviceInfo} {i : Nat}

theorem scan_eq (hn : deliveredNodes data = .ok nodes) :
    scanPlatform data = .ok (deliver scanNode {} nodes) := by
  obtain ⟨o, ho, hn⟩ := bind_ok hn
  unfold scanPlatform
  rw [ho]
  show walkFdt data o.2 scanNode o.1 {} = _
  rw [walkFdt_eq_fold, show walkFdt data o.2 record o.1 [] = .ok nodes from hn]
  rfl

section

variable (hn : deliveredNodes data = .ok nodes) (hp : parseFdtInto data = .ok devices)
  (hcount : (nodes.filter (·.2.hasCompat)).length ≤ maxDevices)
include hn hp hcount

theorem parse_devices :
    devices.map (fun d => (d.compatHashes, d.mmioAddr)) =
      (nodes.filter (·.2.hasCompat)).map fun x => (x.2.compatHashes, x.2.regAddr) := by
  obtain ⟨nodes', hn', hp⟩ := parse_cases hp
  cases hn.symm.trans hn'
  rw [resolveAll_map (fun d => (d.compatHashes, d.mmioAddr)) (fun _ _ => rfl) hp,
    deliver_devices nodes {} (by simpa using hcount), List.nil_append, List.map_map]
  rfl

/-- The reserved entry is the first PL011 node, whatever its address. -/
theorem kernelUart_addr (hk : kernelUart devices = some (dev, i)) :
    (nodes.find? isPl011).map (·.2.regAddr) = some dev.mmioAddr := by
  have hfind : devices.find? (·.hasCompat pl011Hash) = some dev := by
    conv_lhs => rw [← List.zipIdx_map_fst 0 devices]
    rw [List.find?_map]
    exact congrArg (Option.map Prod.fst) hk
  have hmap := congrArg (List.find? fun y => y.1.contains pl011Hash) (parse_devices hn hp hcount)
  rw [List.find?_map, List.find?_map, List.find?_filter] at hmap
  have hkey : (some dev).map (fun d => (d.compatHashes, d.mmioAddr)) =
      (nodes.find? isPl011).map fun x => (x.2.compatHashes, x.2.regAddr) := by
    rw [← hfind]
    exact hmap
  have haddr := congrArg (Option.map Prod.snd) hkey
  rw [Option.map_map, Option.map_map] at haddr
  exact haddr.symm

end

/-- The reserved entry is the kernel's UART and no request gets the UART's page exported, exactly if
    the first PL011 node has the address of the first one that has an address and is not the RAM
    node, and no other entry of the table lies in that page. -/
theorem console_reserved_iff (hn : deliveredNodes data = .ok nodes)
    (hs : scanPlatform data = .ok hw) (hp : parseFdtInto data = .ok devices)
    (hcount : (nodes.filter (·.2.hasCompat)).length ≤ maxDevices)
    (hk : kernelUart devices = some (dev, i)) :
    (dev.mmioAddr = hw.pl011Base ∧
        ∀ events, ∀ x ∈ (System.run devices events).exports, x.2 ≠ pageOf hw.pl011Base) ↔
      (nodes.find? isPl011).map (·.2.regAddr) = some (consoleAddr (nodes.eraseP isRam)) ∧
        ∀ j d, devices[j]? = some d → j ≠ i →
          pageOf d.mmioAddr ≠ pageOf (consoleAddr (nodes.eraseP isRam)) := by
  have hbase : hw.pl011Base = consoleAddr (nodes.eraseP isRam) := by
    rw [Except.ok.inj (hs.symm.trans (scan_eq hn)), scan_pl011Base]
    rfl
  have hfree := allFree_parse hp
  rw [kernelUart_addr hn hp hcount hk, hbase, Option.some.injEq]
  refine and_congr_right fun _ => ⟨fun h j d hd hj hpage => ?_, fun h events x hx hpage => ?_⟩
  · exact h _ _ (page_exported hfree hk hd hj ⟨1, by decide⟩) hpage
  · -- what was exported is the page of an entry that is not reserved
    obtain ⟨j, d, hd, hnot, hx⟩ := (System.inv_run hfree events).exports x hx
    exact h j d hd (fun hij => hnot dev (hij ▸ hk)) (hx.symm.trans hpage)

/-- A PL011 without `reg` in front of the board's UART. -/
def bareUartTree : Tree :=
  .node [] [.addressCells 2, .sizeCells 2]
    [.node (ascii "serial") [.compatible [ascii "arm,pl011"]] [],
      .node (ascii "pl011@9000000") [.compatible [ascii "arm,pl011"],
        .reg [(0x9000000, 0x1000)]] []]

/-- The kernel prints on 0x9000000; the manager reserves the entry at 0 and gives
    the console's page to the first driver that asks for it. -/
theorem console_claimed :
    (scanPlatform bareUartTree.flatten).toOption.map (·.pl011Base) = some 0x9000000 ∧
      parseFdtInto bareUartTree.flatten = .ok bareUartTree.described ∧
      (kernelUart bareUartTree.described).map (·.1.mmioAddr) = some 0 ∧
      (System.run bareUartTree.described
        [⟨⟨1, by decide⟩, .claimByAddr 0x9000000, ⟨some 7, some 3⟩⟩]).exports =
          [(⟨1, by decide⟩, 0x9000)] :=
  ⟨by decide +kernel, by decide +kernel, by decide +kernel, by decide +kernel⟩

theorem console_reserved_iff_virt :
    ∃ nodes hw, deliveredNodes virtTree.flatten = .ok nodes ∧
      scanPlatform virtTree.flatten = .ok hw ∧
      parseFdtInto virtTree.flatten = .ok virtTree.described ∧
      (nodes.filter (·.2.hasCompat)).length ≤ maxDevices ∧
      ∃ dev i, kernelUart virtTree.described = some (dev, i) ∧ dev.mmioAddr = hw.pl011Base ∧
        ∀ events, ∀ x ∈ (System.run virtTree.described events).exports,
          x.2 ≠ pageOf hw.pl011Base := by
  obtain ⟨⟨dev, i⟩, hk, halone⟩ : ∃ x, kernelUart virtTree.described = some x ∧
      ∀ y ∈ virtTree.described.zipIdx, y.2 ≠ x.2 → pageOf y.1.mmioAddr ≠ pageOf x.1.mmioAddr := by
    decide +kernel
  obtain ⟨nodes, hn, hcount, hcond⟩ : ∃ nodes, deliveredNodes virtTree.flatten = .ok nodes ∧
      (nodes.filter (·.2.hasCompat)).length ≤ maxDevices ∧
      (nodes.find? isPl011).map (·.2.regAddr) = some (consoleAddr (nodes.eraseP isRam)) := by
    decide +kernel
  have haddr := kernelUart_addr hn parse_virtTree hcount hk
  refine ⟨nodes, _, hn, scan_eq hn, parse_virtTree, hcount, dev, i, hk,
    (console_reserved_iff hn (scan_eq hn) parse_virtTree hcount hk).mpr
      ⟨hcond, fun j d hd hj => ?_⟩⟩
  rw [Option.some.inj (hcond.symm.trans haddr)]
  exact halone (d, j) (List.mem_zipIdx_iff_getElem?.mpr hd) hj

end Lockjaw.User.DeviceManager
