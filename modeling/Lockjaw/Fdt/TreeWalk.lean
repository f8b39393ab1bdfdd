/-
  Lockjaw.Fdt.TreeWalk

  The walk over a flattened tree.  `Reflects` says what a node's record holds
  after some of its properties have been read; `Delivered` what the callback
  gets when the node ends.  The induction over the tree is `Tree.walk`: the loop
  goes over a flattened node and its children, delivers them in the order in
  which they end, and leaves the records of the levels above as they are.
-/

import Mathlib.Data.List.Forall2
import Lockjaw.Fdt.WalkSpec

namespace Lockjaw.Fdt

open Lib Function Property List

variable {data : Bytes} {pos start : Nat}

/-! ## Values of properties -/

theorem valuesOf_snoc (props : List Property) (p : Property) :
    valuesOf (props ++ [p]) = (valuesOf props).add p := by
  simp [valuesOf]

/-- The hashes `parse_all_compat` finds: it stops at an empty string. -/
def parsedHashes (strings : List Bytes) : List UInt64 :=
  ((strings.take maxCompat).takeWhile (· ≠ [])).map compatibleHash

/-- The INTID `parse_interrupt` finds: it reads the first specifier only. -/
def parsedIntid : List Interrupt → UInt32
  | [] => 0
  | s :: _ => if s.kind = 0 then s.number + 32 else 0

theorem parseCompatFrom_of_holds {strings : List Bytes} (h0 : ∀ s ∈ strings, (0 : UInt8) ∉ s)
    (h : Holds data pos (stringBytes strings)) (slots : Nat) :
    parseCompatFrom data (pos + (stringBytes strings).length) slots pos =
      ((strings.take slots).takeWhile (· ≠ [])).map compatibleHash := by
  induction slots generalizing strings pos with
  | zero => simp [parseCompatFrom]
  | succ slots ih =>
    cases strings with
    | nil => simp [parseCompatFrom, stringBytes]
    | cons s rest =>
      have hb : stringBytes (s :: rest) = (s ++ [0]) ++ stringBytes rest := rfl
      rw [hb, holds_append] at h
      have hread : readString data pos = s := h.1.cstring (h0 s mem_cons_self)
      have hlen : (stringBytes (s :: rest)).length =
          s.length + 1 + (stringBytes rest).length := by
        simp only [hb, length_append, length_singleton]
      rw [parseCompatFrom, if_pos (by omega), hread]
      by_cases hs : s = []
      · simp [hs]
      · have hrest := ih (fun x hx => h0 x (mem_cons_of_mem s hx)) h.2
        have htake : ((s :: rest).take (slots + 1)).takeWhile (· ≠ []) =
            s :: (rest.take slots).takeWhile (· ≠ []) := by
          rw [take_succ_cons, takeWhile_cons_of_pos (by simpa using hs)]
        grind

theorem parseInterrupt_of_holds {s : Interrupt} {rest : List Interrupt}
    (h : Holds data pos (be32s (interruptWords (s :: rest)))) :
    parseInterrupt data pos = .ok (parsedIntid (s :: rest)) := by
  have hw : interruptWords (s :: rest) = s.kind :: s.number :: s.flags :: interruptWords rest := rfl
  rw [hw, be32s_cons, be32s_cons, holds_append, holds_append, length_be32] at h
  simp only [parseInterrupt, readU32Be_of_holds h.1, readU32Be_of_holds h.2.1, bind, Except.bind,
    pure, Except.pure, parsedIntid]

/-! ## A node's record while its properties are read -/

/-- A deferred property: where its bytes are, or no bytes at all. -/
def Deferred (data : Bytes) (start len : Nat) : Option Bytes → Prop
  | none => len = 0
  | some bs => Holds data start bs ∧ len = bs.length

/-- The records of a node on the bus `parent` whose properties so far say `v`. -/
structure Reflects (data : Bytes) (parent bus : Bus) (v : Values) (s : NodeState)
    (c : DepthCells) : Prop where
  hasCompat : s.hasCompat = v.strings.isSome
  hashes : s.compatHashes = parsedHashes (v.strings.getD [])
  noReg : s.regAddr = 0 ∧ s.regSize = 0
  reg : Deferred data s.regStart s.regLen (v.reg.map fun es => be32s (regWords parent es))
  intid : s.intid = parsedIntid (v.interrupts.getD [])
  phandle : s.phandle = v.phandle.getD 0
  clockCells : s.clockCells = v.clockCells.getD 0xffffffff
  clocks : Deferred data s.clocksStart s.clocksLen (v.clocks.map fun rs => be32s (clockWords rs))
  addressCells : c.addressCells = v.addressCells.getD 2
  sizeCells : c.sizeCells = v.sizeCells.getD 2
  noRanges : c.ranges = []
  hasRanges : c.hasRanges = v.ranges.isSome
  ranges : Deferred data c.rangesStart c.rangesLen
    (v.ranges.map fun es => be32s (rangeWords parent bus es))

/-- A property under a name the collected values do not use. -/
theorem applyProp_other {name value : Bytes} (hname : name ∉ knownNames)
    (h : Holds data start value) (s : NodeState) (c : DepthCells) :
    ∃ m a k, applyProp data name start value.length s c =
      .ok ({ s with enableMethod := m, cpuReleaseAddr := a, psciConduit := k }, c) := by
  simp only [knownNames, map_cons, map_nil, mem_cons, not_mem_nil, or_false,
    not_or] at hname
  obtain ⟨h1, h2, h3, h4, h5, h6, h7, h8, h9, h10⟩ := hname
  simp only [applyProp, if_neg h1, if_neg h4, if_neg h6, if_neg h10, h2, h3, h5, h7, h8, h9,
    false_and, or_self, if_false]
  by_cases hem : name = ascii "enable-method"
  · rw [if_pos hem]
    split
    · exact ⟨_, _, _, rfl⟩
    · split <;> exact ⟨_, _, _, rfl⟩
  rw [if_neg hem]
  by_cases hcr : name = ascii "cpu-release-addr" ∧ 8 ≤ value.length
  · have hlen := h.length_le (by rintro rfl; simp at hcr)
    obtain ⟨hi, hhi⟩ : ∃ w, readU32Be data start = .ok w := readU32Be_in_bounds (by omega)
    obtain ⟨lo, hlo⟩ : ∃ w, readU32Be data (start + 4) = .ok w := readU32Be_in_bounds (by omega)
    have hread : ∃ a, readCells data start 2 = .ok a := by
      simp +decide only [readCells, if_true, if_false, hhi, hlo, bind, bind, pure,
        pure]
      exact ⟨_, rfl⟩
    obtain ⟨a, ha⟩ := hread
    rw [if_pos hcr, ha]
    exact ⟨_, _, _, rfl⟩
  rw [if_neg hcr]
  split
  · split
    · exact ⟨_, _, _, rfl⟩
    · split <;> exact ⟨_, _, _, rfl⟩
  · exact ⟨_, _, _, rfl⟩

variable {p : Property} {s : NodeState} {c : DepthCells} {path : List Bus}
  {cells : Nat → DepthCells} {a b : UInt32} {props : List Property}

/-- Reading one more property. -/
theorem Reflects.add {parent bus : Bus} {v : Values}
    (hr : Reflects data parent bus v s c) (hv : p.Valid parent bus)
    (hnew : p.name = ascii "interrupts" → v.interrupts = none)
    (h : Holds data start (p.value parent bus)) :
    ∃ s' c', applyProp data p.name start (p.value parent bus).length s c = .ok (s', c') ∧
      Reflects data parent bus (v.add p) s' c' := by
  cases p
  case other name value =>
    obtain ⟨m, a, k, hap⟩ := applyProp_other hv.1 h s c
    exact ⟨_, c, hap, { hr with }⟩
  case compatible strings =>
    have hp : parseAllCompat data start (stringBytes strings).length = parsedHashes strings :=
      parseCompatFrom_of_holds hv h maxCompat
    refine ⟨{ s with compatHashes := parsedHashes strings, hasCompat := true }, c, ?_,
      { hr with hasCompat := rfl, hashes := rfl }⟩
    simp +decide only [Property.name, Property.value, applyProp, if_true, hp]
  case interrupts specs =>
    cases specs with
    | nil =>
      refine ⟨s, c, ?_, { hr with intid := ?_ }⟩
      · simp +decide only [Property.value, applyProp, if_false, false_and]
      · have hi := hr.intid
        rw [hnew rfl] at hi
        exact hi
    | cons i rest =>
      refine ⟨{ s with intid := parsedIntid (i :: rest) }, c, ?_, { hr with intid := rfl }⟩
      have hlen : 12 ≤ (be32s (interruptWords (i :: rest))).length := by
        simp only [length_be32s, interruptWords, flatMap_cons, length_append,
          length_cons, length_nil]
        omega
      simp +decide only [Property.name, Property.value, applyProp, if_true, if_false,
        false_and, true_and, hlen, parseInterrupt_of_holds h, bind, Except.bind, pure,
        Except.pure]
  case reg entries =>
    refine ⟨{ s with regStart := start, regLen := (be32s (regWords parent entries)).length }, c,
      ?_, { hr with reg := ⟨h, rfl⟩ }⟩
    simp +decide only [Property.name, Property.value, applyProp, if_true, if_false, false_and]
  case ranges entries =>
    refine ⟨s, { c with hasRanges := true, rangesStart := start, rangesLen :=
      (be32s (rangeWords parent bus entries)).length }, ?_,
      { hr with hasRanges := rfl, ranges := ⟨h, rfl⟩ }⟩
    simp +decide only [Property.name, Property.value, applyProp, if_true, if_false, false_and]
  case clocks refs =>
    refine ⟨{ s with clocksStart := start, clocksLen := (be32s (clockWords refs)).length }, c,
      ?_, { hr with clocks := ⟨h, rfl⟩ }⟩
    simp +decide only [Property.name, Property.value, applyProp, if_true, if_false, false_and]
  -- the others are one cell, stored as it is
  case' addressCells n =>
    refine ⟨s, { c with addressCells := n }, ?_, { hr with addressCells := rfl }⟩
  case' sizeCells n =>
    refine ⟨s, { c with sizeCells := n }, ?_, { hr with sizeCells := rfl }⟩
  case' phandle p | linuxPhandle p =>
    refine ⟨{ s with phandle := p }, c, ?_, { hr with phandle := rfl }⟩
  case' clockCells n =>
    refine ⟨{ s with clockCells := n }, c, ?_, { hr with clockCells := rfl }⟩
  all_goals simp +decide only [Property.name, Property.value, applyProp, if_true, if_false,
    false_and, true_and, true_or, or_true, length_be32, readU32Be_of_holds h, bind, Except.bind,
    pure, Except.pure]

/-! ## The buses around a node -/

/-- The record of a bus whose `ranges` have been decoded. -/
structure Settled (bus : Bus) (c : DepthCells) : Prop where
  addressCells : c.addressCells = bus.addressCells
  sizeCells : c.sizeCells = bus.sizeCells
  ranges : c.ranges = bus.ranges

/-- The records of the levels above a node are those of the buses around it. -/
def OnPath : List Bus → (Nat → DepthCells) → Prop
  | [], _ => True
  | bus :: outer, cells => Settled bus (cells outer.length) ∧ OnPath outer cells

theorem OnPath.congr {cells' : Nat → DepthCells} (h : OnPath path cells)
    (heq : ∀ i < path.length, cells' i = cells i) : OnPath path cells' := by
  induction path with
  | nil => trivial
  | cons bus outer ih =>
    refine ⟨?_, ih h.2 fun i hi => heq i (Nat.lt_succ_of_lt hi)⟩
    rw [heq outer.length (Nat.lt_succ_self _)]
    exact h.1

theorem OnPath.parentCells (h : OnPath path cells) :
    (if 0 < path.length then (cells (path.length - 1)).addressCells else 2) =
        (parentBus path).addressCells ∧
      (if 0 < path.length then (cells (path.length - 1)).sizeCells else 2) =
        (parentBus path).sizeCells := by
  cases path with
  | nil => exact ⟨rfl, rfl⟩
  | cons bus outer => exact ⟨h.1.addressCells, h.1.sizeCells⟩

theorem narrow_parentBus (h : ∀ bus ∈ path, bus.Narrow) : (parentBus path).Narrow := by
  cases path with
  | nil => decide
  | cons bus outer => exact h bus mem_cons_self

theorem covers_iff (r : RangeEntry) (a : UInt64) :
    (r.childAddr ≤ a && a - r.childAddr < r.size) = decide (r.Covers a) := by
  rw [Bool.eq_iff_iff, decide_eq_true_eq, RangeEntry.Covers]
  simp only [Bool.and_eq_true, decide_eq_true_eq, UInt64.le_iff_toNat_le, UInt64.lt_iff_toNat_lt]
  refine and_congr_right fun hle => ?_
  rw [UInt64.toNat_sub_of_le _ _ (UInt64.le_iff_toNat_le.mpr hle)]
  omega

theorem applyRanges_eq (bus : Bus) (a : UInt64) : applyRanges bus.ranges a = bus.toParent a := by
  grind [Bus.toParent, applyRanges, covers_iff]

theorem OnPath.translate (h : OnPath path cells)
    (a : UInt64) : translateAddress a path.length cells = toPhysical path a := by
  unfold translateAddress
  induction path generalizing a with
  | nil => rfl
  | cons bus outer ih =>
    cases outer with
    | nil => rfl
    | cons outer rest =>
      show translateFrom cells (rest.length + 1) a = _
      have hranges : (cells (rest.length + 1)).ranges = bus.ranges := h.1.ranges
      rw [translateFrom, hranges, applyRanges_eq]
      exact ih h.2 _

/-! ## Deferred properties -/

theorem toNat_add_narrow (ha : a = 1 ∨ a = 2) (hb : b = 1 ∨ b = 2) :
    (a + b).toNat = a.toNat + b.toNat := by
  rcases ha with rfl | rfl <;> rcases hb with rfl | rfl <;> rfl

theorem toNat_add_narrow' {c : UInt32} (ha : a = 1 ∨ a = 2) (hb : b = 1 ∨ b = 2)
    (hc : c = 1 ∨ c = 2) : (a + b + c).toNat = a.toNat + b.toNat + c.toNat := by
  rcases ha with rfl | rfl <;> rcases hb with rfl | rfl <;> rcases hc with rfl | rfl <;> rfl

theorem toNat_narrow_pos (ha : a = 1 ∨ a = 2) : 0 < a.toNat := by
  rcases ha with rfl | rfl <;> decide

section Ranges

variable {parent bus : Bus} {entries : List RangeEntry}

theorem length_rangeWords (parent bus : Bus) (entries : List RangeEntry) :
    (rangeWords parent bus entries).length = entries.length *
      (bus.addressCells.toNat + parent.addressCells.toNat + bus.sizeCells.toNat) := by
  induction entries with
  | nil => simp [rangeWords]
  | cons e entries ih =>
    rw [rangeWords, flatMap_cons, ← rangeWords, length_append, ih]
    simp only [length_append, length_cellWords, length_cons]
    rw [Nat.succ_mul]
    omega

theorem parseRangesFrom_of_holds (hp : parent.Narrow) (hb : bus.Narrow)
    (hv : (ranges entries).Valid parent bus)
    (h : Holds data pos (be32s (rangeWords parent bus entries))) {slots : Nat}
    (hslots : entries.length ≤ slots) :
    parseRangesFrom data bus.addressCells parent.addressCells bus.sizeCells
      (pos + (be32s (rangeWords parent bus entries)).length) slots pos = .ok entries := by
  have hsum := toNat_add_narrow' hb.1 hp.1 hb.2
  have hsum2 := toNat_add_narrow hb.1 hp.1
  have hpos := toNat_narrow_pos hb.1
  induction entries generalizing pos slots with
  | nil =>
    cases slots with
    | zero => rfl
    | succ slots =>
      rw [parseRangesFrom, if_neg]
      simp only [rangeWords, flatMap_nil, be32s_nil, length_nil]
      omega
  | cons e entries ih =>
    obtain ⟨slots, rfl⟩ : ∃ k, slots = k + 1 :=
      ⟨slots - 1, by simp only [length_cons] at hslots; omega⟩
    obtain ⟨hc, hpa, hs⟩ := hv e mem_cons_self
    have hw : rangeWords parent bus (e :: entries) = cellWords bus.addressCells e.childAddr ++
        cellWords parent.addressCells e.parentAddr ++ cellWords bus.sizeCells e.size ++
        rangeWords parent bus entries := rfl
    have hlen : (be32s (rangeWords parent bus (e :: entries))).length =
        (bus.addressCells + parent.addressCells + bus.sizeCells).toNat * 4 +
          (be32s (rangeWords parent bus entries)).length := by
      rw [hw, hsum]
      simp only [length_be32s, length_append, length_cellWords]
      omega
    rw [hw] at h
    simp only [be32s_append, holds_append, length_append, length_be32s,
      length_cellWords] at h
    -- child address, parent address and size, in the cells of their own bus
    obtain ⟨⟨⟨h1, h2⟩, h3⟩, h4⟩ := h
    have hca := readCells_of_holds hb.1 hc h1
    have hpar : readCells data (pos + bus.addressCells.toNat * 4) parent.addressCells =
        .ok e.parentAddr := readCells_of_holds hp.1 hpa (by rwa [Nat.mul_comm])
    have hsz : readCells data (pos + (bus.addressCells + parent.addressCells).toNat * 4)
        bus.sizeCells = .ok e.size := by
      refine readCells_of_holds hb.2 hs ?_
      rwa [hsum2, show pos + (bus.addressCells.toNat + parent.addressCells.toNat) * 4 =
        pos + (4 * bus.addressCells.toNat + 4 * parent.addressCells.toNat) by omega]
    have hnext : pos + (bus.addressCells + parent.addressCells + bus.sizeCells).toNat * 4 =
        pos + (4 * bus.addressCells.toNat + 4 * parent.addressCells.toNat +
          4 * bus.sizeCells.toNat) := by
      rw [hsum]
      omega
    have hrest := ih (fun x hx => hv x (mem_cons_of_mem e hx)) (hnext ▸ h4)
      (Nat.le_of_succ_le_succ hslots)
    rw [parseRangesFrom, hlen, if_pos (by omega), hca, hpar, hsz, ← Nat.add_assoc, hrest]
    rfl

variable {cells : Nat → DepthCells}

/-- Decoding the `ranges` of the innermost bus leaves a settled record, and a
    second child finds nothing left to decode. -/
theorem Reflects.finishRanges {props : List Property} {path : List Bus} {s : NodeState}
    (hr : Reflects data (parentBus path) (busOf props) (valuesOf props) s (cells path.length))
    (hpath : OnPath path cells) (hlevel : path.length < maxDepth) (hp : (parentBus path).Narrow)
    (hb : (busOf props).Narrow) (hlen : (busOf props).ranges.length ≤ maxRanges)
    (hv : (Property.ranges (busOf props).ranges).Valid (parentBus path) (busOf props)) :
    ∃ c, Settled (busOf props) c ∧ ¬ (c.hasRanges ∧ c.ranges = [] ∧ 0 < c.rangesLen) ∧
      finishRanges data (path.length + 1) cells = .ok (Function.update cells path.length c) := by
  have hac := hr.addressCells
  have hsc := hr.sizeCells
  have hranges := hr.ranges
  cases hes : (valuesOf props).ranges with
  | none =>
    have hbus : (busOf props).ranges = [] := by rw [busOf, hes]; rfl
    rw [hes] at hranges
    have hnot : ¬ 0 < (cells path.length).rangesLen := Nat.not_lt.mpr (Nat.le_of_eq hranges)
    -- without a `ranges` property the record is settled as it stands
    refine ⟨cells path.length, ⟨hac, hsc, hr.noRanges.trans hbus.symm⟩, fun h => hnot h.2.2, ?_⟩
    rw [Fdt.finishRanges, if_neg fun h => hnot h.2.2.2.2, Function.update_eq_self]
  | some es =>
    have hbus : (busOf props).ranges = es := by rw [busOf, hes]; rfl
    rw [hes] at hranges
    obtain ⟨hholds, hlenEq⟩ := hranges
    rw [hbus] at hlen hv
    by_cases hne : es = []
    -- an empty `ranges` has no bytes, so nothing is decoded
    · have hnot : ¬ 0 < (cells path.length).rangesLen := by
        rw [hlenEq, hne]
        exact Nat.lt_irrefl 0
      refine ⟨cells path.length, ⟨hac, hsc, (hr.noRanges.trans hne.symm).trans hbus.symm⟩,
        fun h => hnot h.2.2, ?_⟩
      rw [Fdt.finishRanges, if_neg fun h => hnot h.2.2.2.2, Function.update_eq_self]
    · refine ⟨{ cells path.length with ranges := es }, ⟨hac, hsc, hbus.symm⟩,
        fun h => hne h.2.1, ?_⟩
      have hpos : 0 < (cells path.length).rangesLen := by
        have h1 := length_pos_iff.mpr hne
        have h2 := toNat_narrow_pos hb.1
        rw [hlenEq, length_be32s, length_rangeWords]
        exact Nat.mul_pos (by omega) (Nat.mul_pos h1 (by omega))
      have hcond : 0 < path.length + 1 ∧ path.length + 1 ≤ maxDepth ∧
          (cells path.length).hasRanges ∧ (cells path.length).ranges = [] ∧
          0 < (cells path.length).rangesLen :=
        ⟨Nat.succ_pos _, hlevel, by rw [hr.hasRanges, hes]; rfl, hr.noRanges, hpos⟩
      have hparse : parseRangesAt data path.length cells =
          .ok { cells path.length with ranges := es } := by
        have hac' : (cells path.length).addressCells = (busOf props).addressCells := hac
        have hsc' : (cells path.length).sizeCells = (busOf props).sizeCells := hsc
        have hsum := toNat_add_narrow' hb.1 hp.1 hb.2
        have hpos := toNat_narrow_pos hb.1
        simp only [parseRangesAt, hpath.parentCells.1, hac', hsc', hr.noRanges, hlenEq,
          parseRangesFrom_of_holds hp hb hv hholds hlen,
          if_neg (show ¬ ((busOf props).addressCells + (parentBus path).addressCells +
            (busOf props).sizeCells).toNat * 4 = 0 by omega),
          length_nil, Nat.sub_zero, nil_append, bind, Except.bind, pure, Except.pure]
      rw [Fdt.finishRanges, Nat.add_sub_cancel, if_pos hcond, hparse]
      rfl

end Ranges

section Reg

theorem regWords_cons (bus : Bus) (e : UInt64 × UInt64) (rest : List (UInt64 × UInt64)) :
    regWords bus (e :: rest) = cellWords bus.addressCells e.1 ++ cellWords bus.sizeCells e.2 ++
      regWords bus rest := rfl

/-- The deferred `reg` gives the first entry. -/
theorem Reflects.finishReg {bus : Bus} {v : Values} {path : List Bus} {s : NodeState}
    {c : DepthCells} {cells : Nat → DepthCells}
    (hr : Reflects data (parentBus path) bus v s c) (hpath : OnPath path cells)
    (hp : (parentBus path).Narrow)
    (hv : ∀ es, v.reg = some es → (Property.reg es).Valid (parentBus path) bus) :
    ∃ addr2, finishReg data path.length cells s = .ok { s with
      regAddr := ((v.reg.bind head?).map Prod.fst).getD 0
      regSize := ((v.reg.bind head?).map Prod.snd).getD 0
      regAddr2 := addr2 } := by
  obtain ⟨hac, hsc⟩ := hpath.parentCells
  have hsum := toNat_add_narrow hp.1 hp.2
  have hpos := toNat_narrow_pos hp.1
  have hreg := hr.reg
  have hsame : { s with regAddr := 0, regSize := 0, regAddr2 := s.regAddr2 } = s := by
    obtain ⟨haddr, hsize⟩ := hr.noReg
    cases s
    dsimp only at haddr hsize
    subst haddr hsize
    rfl
  simp only [Fdt.finishReg, hac, hsc]
  cases hes : v.reg with
  | none =>
    rw [hes] at hreg
    have hlen : s.regLen = 0 := hreg
    refine ⟨s.regAddr2, ?_⟩
    rw [if_neg (by omega)]
    exact congrArg Except.ok hsame.symm
  | some es =>
    rw [hes] at hreg
    obtain ⟨hholds, hlen⟩ := hreg
    cases es with
    | nil =>
      have hlen : s.regLen = 0 := hlen
      grind
    | cons e rest =>
      have hlen : s.regLen = (be32s (regWords (parentBus path) (e :: rest))).length := hlen
      obtain ⟨hfa, hfs⟩ := hv _ hes e mem_cons_self
      have hholds : Holds data s.regStart (be32s (regWords (parentBus path) (e :: rest))) :=
        hholds
      simp only [regWords_cons, be32s_append, holds_append, length_append, length_be32s,
        length_cellWords] at hholds hlen
      obtain ⟨⟨h1, h2⟩, h3⟩ := hholds
      have haddr := readCells_of_holds hp.1 hfa h1
      have hsize := readCells_of_holds hp.2 hfs (Nat.mul_comm 4 _ ▸ h2)
      -- the second entry is read when there is one, and only its address
      have haddr2 : ∃ addr2, secondReg data (parentBus path).addressCells
          (((parentBus path).addressCells + (parentBus path).sizeCells).toNat * 4) s =
            .ok addr2 := by
        unfold secondReg
        cases rest with
        | nil => grind [regWords]
        | cons e2 rest =>
          have hfa2 := (hv _ hes e2 (mem_cons_of_mem e mem_cons_self)).1
          rw [regWords_cons, be32s_append, be32s_append] at h3
          have hread := readCells_of_holds hp.1 hfa2
            (holds_append.mp (holds_append.mp h3).1).1
          grind
      obtain ⟨addr2, haddr2⟩ := haddr2
      refine ⟨addr2, ?_⟩
      rw [if_pos ⟨by omega, by omega⟩, haddr, hsize, haddr2]
      rfl

end Reg

/-! ## What a node's properties say about it -/

theorem mem_of_reg {es : List (UInt64 × UInt64)}
    (h : (valuesOf props).reg = some es) : reg es ∈ props := by
  induction props using reverseRecOn with
  | nil => cases h
  | append_singleton props p ih =>
    rw [valuesOf_snoc] at h
    cases p with
    | reg entries =>
      cases h
      exact mem_append_right _ mem_cons_self
    | _ => exact mem_append_left _ (ih h)

theorem mem_of_ranges {es : List RangeEntry}
    (h : (valuesOf props).ranges = some es) : ranges es ∈ props := by
  induction props using reverseRecOn with
  | nil => cases h
  | append_singleton props p ih =>
    rw [valuesOf_snoc] at h
    cases p with
    | ranges entries =>
      cases h
      exact mem_append_right _ mem_cons_self
    | _ => exact mem_append_left _ (ih h)

theorem add_interrupts (v : Values) (p : Property) :
    (v.add p).interrupts = v.interrupts ∨ p.name = ascii "interrupts" := by
  cases p with
  | interrupts specs => exact Or.inr rfl
  | _ => exact Or.inl rfl

theorem Property.Valid.zero_not_mem {parent bus : Bus} (h : p.Valid parent bus) :
    (0 : UInt8) ∉ p.name := by
  cases p with
  | other name value => exact h.2
  | _ => simp only [name]; decide

theorem busOf_ranges_valid {parent : Bus} (h : ∀ p ∈ props, p.Valid parent (busOf props)) :
    (ranges (busOf props).ranges).Valid parent (busOf props) := by
  cases hes : (valuesOf props).ranges with
  | none =>
    have hbus : (busOf props).ranges = [] := by rw [busOf, hes]; rfl
    intro e he
    rw [hbus] at he
    cases he
  | some es => grind [busOf, mem_of_ranges]

/-! ## What the callback gets -/

/-- The address the parser finds: 0 is not translated. -/
def Located.parsedAddr (n : Located) : UInt64 :=
  (n.firstReg.map fun e => if e.1 = 0 then 0 else toPhysical n.path e.1).getD 0

/-- The record of the node `n` at its end. -/
structure Delivered (data : Bytes) (n : Located) (s : NodeState) : Prop where
  hasCompat : s.hasCompat = n.values.strings.isSome
  hashes : s.compatHashes = parsedHashes (n.values.strings.getD [])
  addr : s.regAddr = n.parsedAddr
  size : s.regSize = (n.firstReg.map Prod.snd).getD 0
  intid : s.intid = parsedIntid (n.values.interrupts.getD [])
  phandle : s.phandle = n.phandle
  clockCells : s.clockCells = n.values.clockCells.getD 0xffffffff
  clocks : Deferred data s.clocksStart s.clocksLen
    (n.values.clocks.map fun rs => be32s (clockWords rs))

theorem Reflects.delivered (n : Located) (addr2 : UInt64) {bus : Bus}
    (hr : Reflects data (parentBus n.path) bus n.values s c) (hpath : OnPath n.path cells) :
    Delivered data n (translateReg n.path.length cells { s with
      regAddr := (n.firstReg.map Prod.fst).getD 0
      regSize := (n.firstReg.map Prod.snd).getD 0
      regAddr2 := addr2 }) where
  hasCompat := hr.hasCompat
  hashes := hr.hashes
  addr := by
    simp only [translateReg, Located.parsedAddr, hpath.translate]
    cases n.firstReg with
    | none => rfl
    | some e =>
      by_cases h0 : e.1 = 0
      · simp [h0]
      · simp [h0]
  size := rfl
  intid := hr.intid
  phandle := hr.phandle
  clockCells := hr.clockCells
  clocks := hr.clocks

/-! ## The walk over a flattened tree -/

section TreeWalk

variable {σ : Type} {offDtStrings : Nat} {onNode : σ → Bytes → NodeState → σ} {w : Walk σ}

variable (offDtStrings onNode) in
/-- The properties of a node, read one after another. -/
theorem walk_props {parent bus : Bus} {d : Nat} {props : List Property} {items : List Item}
    {v : Values} (hd : w.depth = d + 1) (hmax : d < maxDepth)
    (hitems : items.map Item.lexeme = props.map fun p => .prop p.name (p.value parent bus))
    (hspell : ∀ it ∈ items, it.Spelled data offDtStrings)
    (hh : Holds data w.pos (items.flatMap Item.bytes)) (hmod : w.pos % 4 = 0)
    (hvalid : ∀ p ∈ props, p.Valid parent bus) (hnodup : (props.map name).Nodup)
    (hint : v.interrupts.isSome → ascii "interrupts" ∉ props.map name)
    (hr : Reflects data parent bus v (w.state d) (w.cells d)) :
    ∃ w' : Walk σ, Reach data offDtStrings onNode w w' ∧
      w'.pos = w.pos + (items.flatMap Item.bytes).length ∧ w'.depth = w.depth ∧ w'.acc = w.acc ∧
      (∀ i, i ≠ d → w'.state i = w.state i ∧ w'.cells i = w.cells i) ∧
      Reflects data parent bus (props.foldl Values.add v) (w'.state d) (w'.cells d) := by
  induction props generalizing items v w with
  | nil =>
    obtain rfl := map_eq_nil_iff.mp hitems
    exact ⟨w, Reach.refl w, rfl, rfl, rfl, fun i _ => ⟨rfl, rfl⟩, hr⟩
  | cons p props ih =>
    obtain ⟨it, items, rfl, hl, hitems⟩ := map_eq_cons_iff.mp hitems
    rw [flatMap_cons, holds_append] at hh
    rw [map_cons, nodup_cons] at hnodup
    have hvp := hvalid p mem_cons_self
    -- a second `interrupts` would overwrite the first; names are distinct
    have hnew : p.name = ascii "interrupts" → v.interrupts = none := by
      intro hname
      cases hv : v.interrupts with
      | none => rfl
      | some specs =>
        exact absurd (hname ▸ mem_cons_self) (hint (by rw [hv]; rfl))
    obtain ⟨start, hvalue, hstep⟩ :=
      reach_prop offDtStrings onNode (w := w) hl (hspell it mem_cons_self)
      hvp.zero_not_mem hh.1 hmod (by omega) (by omega)
    rw [hd, Nat.add_sub_cancel] at hstep
    obtain ⟨s, c, hap, hr'⟩ := hr.add hvp hnew hvalue
    obtain ⟨w1, hreach, hpos, hdepth, hstate, hcells, hacc⟩ := hstep s c hap
    have hint' : (v.add p).interrupts.isSome → ascii "interrupts" ∉ props.map name := by
      grind [add_interrupts]
    have hr1 : Reflects data parent bus (v.add p) (w1.state d) (w1.cells d) := by
      rw [hstate, hcells, update_self, update_self]
      exact hr'
    have hmod1 : w1.pos % 4 = 0 := by
      have := it.bytes_mod
      omega
    obtain ⟨w2, hreach2, hpos2, hdepth2, hacc2, hsame2, hr2⟩ :=
      ih (hdepth.trans rfl) hitems (fun x hx => hspell x (mem_cons_of_mem it hx))
        (hpos ▸ hh.2) hmod1 (fun x hx => hvalid x (mem_cons_of_mem p hx)) hnodup.2 hint' hr1
    refine ⟨w2, hreach.trans hreach2, ?_, hdepth2.trans (hdepth.trans hd.symm),
      hacc2.trans hacc, fun i hi => ?_, hr2⟩
    · rw [hpos2, hpos, flatMap_cons, length_append]
      omega
    · obtain ⟨hs, hc⟩ := hsame2 i hi
      rw [hs, hc, hstate, hcells, update_of_ne hi, update_of_ne hi]
      exact ⟨rfl, rfl⟩

/-- A child of the innermost bus begins: the bus's `ranges` are decoded now or
    have been, and stay so for the children after it. -/
structure Opens (data : Bytes) (path : List Bus) (cells cells₁ : Nat → DepthCells) : Prop where
  finish : finishRanges data path.length cells = .ok cells₁
  onPath : OnPath path cells₁
  outer : ∀ i, i + 1 < path.length → cells₁ i = cells i
  stable : ∀ cells₂ : Nat → DepthCells, (∀ i < path.length, cells₂ i = cells₁ i) →
    finishRanges data path.length cells₂ = .ok cells₂

variable {path : List Bus} {cells : Nat → DepthCells}

theorem Opens.again {cells₁ cells₂ : Nat → DepthCells}
    (h : Opens data path cells cells₁) (heq : ∀ i < path.length, cells₂ i = cells₁ i) :
    Opens data path cells₂ cells₂ where
  finish := h.stable cells₂ heq
  onPath := h.onPath.congr heq
  outer := fun _ _ => rfl
  stable := fun cells3 h₃ => h.stable cells3 fun i hi => (h₃ i hi).trans (heq i hi)

/-- The bus of a node, once its properties have been read. -/
theorem Reflects.opens {props : List Property} {s : NodeState}
    (hr : Reflects data (parentBus path) (busOf props) (valuesOf props) s
      (cells path.length)) (hpath : OnPath path cells)
    {name : Bytes} (hn : Located.Within ⟨path, name, props⟩) (hb : (busOf props).Narrow) :
    ∃ cells₁, Opens data (busOf props :: path) cells cells₁ := by
  obtain ⟨c, hset, hdone, hfin⟩ := hr.finishRanges hpath hn.level (narrow_parentBus hn.narrow) hb
    hn.ranges (busOf_ranges_valid hn.valid)
  refine ⟨Function.update cells path.length c, hfin, ⟨?_, ?_⟩, ?_, ?_⟩
  · rw [Function.update_self]
    exact hset
  · exact hpath.congr fun i hi => Function.update_of_ne (Nat.ne_of_lt hi) _ _
  · intro i hi
    exact Function.update_of_ne (by simp only [length_cons] at hi; omega) _ _
  · intro cells₂ h₂
    rw [Fdt.finishRanges, if_neg]
    rw [length_cons, Nat.add_sub_cancel, h₂ path.length (Nat.lt_succ_self _), Function.update_self]
    exact fun hcond => hdone hcond.2.2

/-- What the loop does between `w` and `w'`: it reads `len` bytes, delivers
    `nodes`, and keeps the node records of the levels above. -/
structure Walked (data : Bytes) (offDtStrings : Nat) (onNode : σ → Bytes → NodeState → σ)
    (nodes : List Located) (len : Nat) (w w' : Walk σ) : Prop where
  reach : Reach data offDtStrings onNode w w'
  pos : w'.pos = w.pos + len
  depth : w'.depth = w.depth
  state : ∀ i < w.depth, w'.state i = w.state i
  delivered : ∃ ns : List (Bytes × NodeState),
    List.Forall₂ (fun n x => Delivered data n x.2) nodes ns ∧ w'.acc = deliver onNode w.acc ns

theorem Walked.trans {nodes nodes' : List Located} {len len' : Nat} {w w' w'' : Walk σ}
    (h : Walked data offDtStrings onNode nodes len w w')
    (h' : Walked data offDtStrings onNode nodes' len' w' w'') :
    Walked data offDtStrings onNode (nodes ++ nodes') (len + len') w w'' where
  reach := h.reach.trans h'.reach
  pos := by rw [h'.pos, h.pos, Nat.add_assoc]
  depth := h'.depth.trans h.depth
  state := fun i hi => (h'.state i (h.depth.symm ▸ hi)).trans (h.state i hi)
  delivered := by
    obtain ⟨ns, hns, hacc⟩ := h.delivered
    obtain ⟨ns', hns', hacc'⟩ := h'.delivered
    refine ⟨ns ++ ns', rel_append hns hns', ?_⟩
    rw [hacc', hacc, deliver, deliver, deliver, foldl_append]

theorem flatMap_bytes_mod (items : List Item) : (items.flatMap Item.bytes).length % 4 = 0 := by
  induction items with
  | nil => rfl
  | cons it items ih =>
    have h := it.bytes_mod
    rw [flatMap_cons, length_append]
    omega

theorem exists_mem_nodesOf (path : List Bus) {ts : List Tree} (h : ts ≠ []) :
    ∃ n ∈ nodesOf path ts, n.path = path := by
  match ts with
  | [] => exact absurd rfl h
  | .node name props children :: ts =>
    refine ⟨⟨path, name, props⟩, mem_append_left _ ?_, rfl⟩
    exact mem_append_right _ mem_cons_self

mutual

/-- The loop over a flattened node. -/
theorem Tree.walk (t : Tree) {path : List Bus} {items : List Item} {w : Walk σ}
    {cells₁ : Nat → DepthCells} (hd : w.depth = path.length)
    (hopen : Opens data path w.cells cells₁) (hn : ∀ n ∈ t.nodes path, n.Within)
    (hitems : items.map Item.lexeme = t.lexemes path)
    (hspell : ∀ it ∈ items, it.Spelled data offDtStrings)
    (hh : Holds data w.pos (items.flatMap Item.bytes)) (hmod : w.pos % 4 = 0) :
    ∃ w' : Walk σ, Walked data offDtStrings onNode (t.nodes path)
        (items.flatMap Item.bytes).length w w' ∧
      ∀ i < path.length, w'.cells i = cells₁ i := by
  cases t with
  | node name props children =>
    have hself : Located.Within ⟨path, name, props⟩ :=
      hn _ (mem_append_right _ mem_cons_self)
    have hlevel : path.length < maxDepth := hself.level
    -- the tokens: the beginning, the properties, the children, the end
    obtain ⟨it, items, rfl, hl, hitems⟩ := map_eq_cons_iff.mp hitems
    obtain ⟨ps, items, rfl, hps, hitems⟩ := map_eq_append_iff.mp hitems
    obtain ⟨cs, es, rfl, hcs, hes⟩ := map_eq_append_iff.mp hitems
    obtain ⟨e, es, rfl, hle, hes⟩ := map_eq_cons_iff.mp hes
    obtain rfl := map_eq_nil_iff.mp hes
    simp only [flatMap_cons, flatMap_append, flatMap_nil, append_nil,
      holds_append] at hh
    obtain ⟨hbegin, hprops, hchildren, hend⟩ := hh
    have hmodIt := it.bytes_mod
    have hmodPs := flatMap_bytes_mod ps
    have hmodCs := flatMap_bytes_mod cs
    -- the beginning
    obtain ⟨w1, hr1, hpos1, hdepth1, hstate1, hcells1, hacc1⟩ :=
      reach_begin offDtStrings onNode hl hself.name hbegin hmod
        (hd ▸ hlevel) (hd ▸ hopen.finish)
    rw [hd] at hdepth1 hstate1 hcells1
    -- the properties
    have hempty : Reflects data (parentBus path) (busOf props) {} (w1.state path.length)
        (w1.cells path.length) := by
      rw [hstate1, hcells1, Function.update_self, Function.update_self]
      exact ⟨rfl, rfl, ⟨rfl, rfl⟩, rfl, rfl, rfl, rfl, rfl, rfl, rfl, rfl, rfl, rfl⟩
    obtain ⟨w2, hr2, hpos2, hdepth2, hacc2, hsame2, hreflect⟩ :=
      walk_props offDtStrings onNode hdepth1 hlevel hps
        (fun x hx => hspell x (by simp [hx])) (hpos1 ▸ hprops) (by omega) hself.valid
        hself.distinct (fun h => by cases h) hempty
    have houter2 : ∀ i < path.length, w2.cells i = cells₁ i := by
      intro i hi
      rw [(hsame2 i (Nat.ne_of_lt hi)).2, hcells1, Function.update_of_ne (Nat.ne_of_lt hi)]
    have hpath2 : OnPath path w2.cells := hopen.onPath.congr houter2
    -- the children
    have hopen2 : children ≠ [] → ∃ cells, Opens data (busOf props :: path) w2.cells cells := by
      intro hne
      obtain ⟨n, hmem, hnpath⟩ := exists_mem_nodesOf (busOf props :: path) hne
      refine hreflect.opens hpath2 hself ((hn n (mem_append_left _ hmem)).narrow _ ?_)
      rw [hnpath]
      exact mem_cons_self
    have hd2 : w2.depth = (busOf props :: path).length := hdepth2.trans hdepth1
    obtain ⟨w3, hwalk3, hcells3⟩ := walk_all children hd2 hopen2
      (fun n hmem => hn n (mem_append_left _ hmem)) hcs
      (fun x hx => hspell x (by simp [hx])) (by rw [hpos2, hpos1]; exact hchildren) (by omega)
    have houter3 : ∀ i < path.length, w3.cells i = cells₁ i := by
      intro i hi
      rw [hcells3 i (Nat.succ_lt_succ hi), houter2 i hi]
    have hpath3 : OnPath path w3.cells := hopen.onPath.congr houter3
    have hdepth3 : w3.depth = path.length + 1 := hwalk3.depth.trans (hdepth2.trans hdepth1)
    have hstate3 : w3.state path.length = w2.state path.length :=
      hwalk3.state _ (by rw [hdepth2, hdepth1]; exact Nat.lt_succ_self _)
    -- the end
    obtain ⟨addr2, hreg⟩ := hreflect.finishReg hpath3 (narrow_parentBus hself.narrow)
      fun es hreg => hself.valid _ (mem_of_reg hreg)
    obtain ⟨w4, nodeName, hr4, hpos4, hdepth4, hstate4, hcells4, hacc4⟩ :=
      reach_end offDtStrings onNode (w := w3) hle
        (by rw [hwalk3.pos, hpos2, hpos1]; exact hend) (by omega) (by omega)
        (by rw [hdepth3, Nat.add_sub_cancel, hstate3]; exact hreg)
    rw [hdepth3, Nat.add_sub_cancel] at hdepth4 hstate4 hacc4
    have hdeliver := hreflect.delivered ⟨path, name, props⟩ addr2 hpath3
    obtain ⟨ns, hns, hacc3⟩ := hwalk3.delivered
    refine ⟨w4, ⟨hr1.trans (hr2.trans (hwalk3.reach.trans hr4)), ?_, hdepth4.trans hd.symm, ?_,
      ns ++ [(nodeName, _)], rel_append hns (.cons hdeliver .nil), ?_⟩, ?_⟩
    · grind [hwalk3.pos]
    · intro i hi
      rw [hd] at hi
      rw [hstate4, Function.update_of_ne (Nat.ne_of_lt hi),
        hwalk3.state i (by rw [hdepth2, hdepth1]; omega), (hsame2 i (Nat.ne_of_lt hi)).1, hstate1,
        Function.update_of_ne (Nat.ne_of_lt hi)]
    · rw [hacc4, hacc3, hacc2, hacc1, deliver, deliver, foldl_append]
      rfl
    · intro i hi
      rw [hcells4, houter3 i hi]

/-- The loop over the children of a node. -/
theorem walk_all (ts : List Tree) {path : List Bus} {items : List Item} {w : Walk σ}
    (hd : w.depth = path.length) (hopen : ts ≠ [] → ∃ cells₁, Opens data path w.cells cells₁)
    (hn : ∀ n ∈ nodesOf path ts, n.Within) (hitems : items.map Item.lexeme = lexemesOf path ts)
    (hspell : ∀ it ∈ items, it.Spelled data offDtStrings)
    (hh : Holds data w.pos (items.flatMap Item.bytes)) (hmod : w.pos % 4 = 0) :
    ∃ w' : Walk σ, Walked data offDtStrings onNode (nodesOf path ts)
        (items.flatMap Item.bytes).length w w' ∧
      ∀ i, i + 1 < path.length → w'.cells i = w.cells i := by
  cases ts with
  | nil =>
    obtain rfl := map_eq_nil_iff.mp hitems
    exact ⟨w, ⟨Reach.refl w, rfl, rfl, fun _ _ => rfl, [], List.Forall₂.nil, rfl⟩,
      fun _ _ => rfl⟩
  | cons t ts =>
    obtain ⟨its, its', rfl, hl, hl'⟩ := map_eq_append_iff.mp hitems
    obtain ⟨cells₁, hopen⟩ := hopen (cons_ne_nil _ _)
    rw [flatMap_append, holds_append] at hh
    obtain ⟨w1, hwalk, hcells⟩ := Tree.walk t hd hopen
      (fun n hmem => hn n (mem_append_left _ hmem)) hl
      (fun it hit => hspell it (mem_append_left _ hit)) hh.1 hmod
    have hmod1 : w1.pos % 4 = 0 := by
      have h := flatMap_bytes_mod its
      rw [hwalk.pos]
      omega
    -- the next child finds the `ranges` of the bus decoded by the first
    obtain ⟨w2, hwalk2, hcells2⟩ := walk_all ts (hwalk.depth.trans hd)
      (fun _ => ⟨w1.cells, hopen.again hcells⟩)
      (fun n hmem => hn n (mem_append_right _ hmem)) hl'
      (fun it hit => hspell it (mem_append_right _ hit)) (hwalk.pos ▸ hh.2) hmod1
    refine ⟨w2, ?_, fun i hi => ?_⟩
    · rw [flatMap_append, length_append]
      exact hwalk.trans hwalk2
    · rw [hcells2 i hi, hcells i (Nat.lt_of_succ_lt hi), hopen.outer i hi]

end

end TreeWalk

end Lockjaw.Fdt
