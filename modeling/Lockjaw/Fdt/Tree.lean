/-
  Lockjaw.Fdt.Tree

  Device trees, their flattened form, and the device table a tree describes.

  A tree is what the blob stands for: nodes with typed properties, addresses and
  sizes as numbers.  `Tree.lexemes` flattens it, with `reg` and `ranges` written
  in the cell widths of the enclosing buses; `Flattened` says that a blob holds
  such a sequence of tokens, with any number of NOP tokens before each of them
  and property names anywhere in the strings block.

  `Tree.described` is the table the tree describes: one device for every node
  with a `compatible` property, in the order in which the nodes end.
-/

import Lockjaw.Fdt.Walk

namespace Lockjaw.Fdt

open Lib

/-! ## Trees -/

/-- A clock reference: the controller's phandle and the cells after it. -/
structure ClockArgs where
  controller : UInt32
  args : List UInt32
  deriving DecidableEq, Repr

/-- A GIC interrupt specifier; kind 0 is an SPI. -/
structure Interrupt where
  kind : UInt32
  number : UInt32
  flags : UInt32
  deriving DecidableEq, Repr

inductive Property where
  | compatible (strings : List Bytes)
  | addressCells (n : UInt32)
  | sizeCells (n : UInt32)
  | reg (entries : List (UInt64 × UInt64))
  | interrupts (specs : List Interrupt)
  | ranges (entries : List RangeEntry)
  | phandle (p : UInt32)
  | linuxPhandle (p : UInt32)
  | clockCells (n : UInt32)
  | clocks (refs : List ClockArgs)
  | other (name value : Bytes)
  deriving DecidableEq, Repr

inductive Tree where
  | node (name : Bytes) (props : List Property) (children : List Tree)

/-- What the properties of a node say. -/
structure Values where
  strings : Option (List Bytes) := none
  addressCells : Option UInt32 := none
  sizeCells : Option UInt32 := none
  reg : Option (List (UInt64 × UInt64)) := none
  interrupts : Option (List Interrupt) := none
  ranges : Option (List RangeEntry) := none
  phandle : Option UInt32 := none
  clockCells : Option UInt32 := none
  clocks : Option (List ClockArgs) := none

/-- One property more; `linux,phandle` is the old name of `phandle`. -/
def Values.add (v : Values) : Property → Values
  | .compatible strings => { v with strings := some strings }
  | .addressCells n => { v with addressCells := some n }
  | .sizeCells n => { v with sizeCells := some n }
  | .reg entries => { v with reg := some entries }
  | .interrupts specs => { v with interrupts := some specs }
  | .ranges entries => { v with ranges := some entries }
  | .phandle p => { v with phandle := some p }
  | .linuxPhandle p => { v with phandle := some p }
  | .clockCells n => { v with clockCells := some n }
  | .clocks refs => { v with clocks := some refs }
  | .other _ _ => v

def valuesOf (props : List Property) : Values := props.foldl Values.add {}

/-- What a node says about the addresses of its children. -/
structure Bus where
  addressCells : UInt32
  sizeCells : UInt32
  ranges : List RangeEntry
  deriving DecidableEq, Repr

/-- The bus of a node; without the properties both widths are 2. -/
def busOf (props : List Property) : Bus where
  addressCells := (valuesOf props).addressCells.getD 2
  sizeCells := (valuesOf props).sizeCells.getD 2
  ranges := (valuesOf props).ranges.getD []

/-- The space the root node itself is in. -/
def rootSpace : Bus := ⟨2, 2, []⟩

/-- The bus a node is on, given the buses around it from the inside out. -/
def parentBus (path : List Bus) : Bus := path.headD rootSpace

/-- A node together with the buses around it. -/
structure Located where
  path : List Bus
  name : Bytes
  props : List Property
  deriving DecidableEq, Repr

mutual

/-- The nodes of a tree in the order in which they end. -/
def Tree.nodes (path : List Bus) : Tree → List Located
  | .node name props children =>
    nodesOf (busOf props :: path) children ++ [⟨path, name, props⟩]

def nodesOf (path : List Bus) : List Tree → List Located
  | [] => []
  | t :: ts => t.nodes path ++ nodesOf path ts

end

/-! ## The table a tree describes -/

/-- The range holds the address. -/
def RangeEntry.Covers (r : RangeEntry) (a : UInt64) : Prop :=
  r.childAddr.toNat ≤ a.toNat ∧ a.toNat < r.childAddr.toNat + r.size.toNat

instance (r : RangeEntry) (a : UInt64) : Decidable (r.Covers a) :=
  inferInstanceAs (Decidable (_ ∧ _))

/-- An address of a bus, in the space of its parent. -/
def Bus.toParent (bus : Bus) (a : UInt64) : UInt64 :=
  match bus.ranges.find? (·.Covers a) with
  | some r => r.parentAddr + (a - r.childAddr)
  | none => a

/-- An address of the innermost bus, in the space of the root's children. -/
def toPhysical : List Bus → UInt64 → UInt64
  | bus :: outer :: rest, a => toPhysical (outer :: rest) (bus.toParent a)
  | _, a => a

namespace Located

variable (n : Located)

def values : Values := valuesOf n.props
def firstReg : Option (UInt64 × UInt64) := n.values.reg.bind List.head?
def phandle : UInt32 := n.values.phandle.getD 0
def clockRefs : List ClockArgs := n.values.clocks.getD []

def firstSpi : Option Interrupt := (n.values.interrupts.getD []).find? (·.kind = 0)

/-- The device of a node. -/
def described : DeviceInfo where
  compatHashes := ((n.values.strings.getD []).take maxCompat).map compatibleHash
  mmioAddr := (n.firstReg.map fun e => toPhysical n.path e.1).getD 0
  mmioSize := (n.firstReg.map Prod.snd).getD 0
  intid := (n.firstSpi.map (·.number + 32)).getD 0
  claimed := false
  claimToken := 0
  clocks := n.clockRefs.map fun r => ⟨r.controller, r.args.headD 0⟩
  phandle := n.phandle

end Located

def Tree.described (t : Tree) : List DeviceInfo :=
  ((t.nodes []).filter (·.values.strings.isSome)).map Located.described

/-! ## The flattened form -/

def cellWords (cells : UInt32) (v : UInt64) : List UInt32 :=
  match cells.toNat with
  | 0 => []
  | 1 => [v.toUInt32]
  | n + 2 => List.replicate n (0 : UInt32) ++ [(v >>> 32).toUInt32, v.toUInt32]

def stringBytes (strings : List Bytes) : Bytes := strings.flatMap (· ++ [0])

def regWords (bus : Bus) (entries : List (UInt64 × UInt64)) : List UInt32 :=
  entries.flatMap fun e => cellWords bus.addressCells e.1 ++ cellWords bus.sizeCells e.2

def rangeWords (parent bus : Bus) (entries : List RangeEntry) : List UInt32 :=
  entries.flatMap fun e => cellWords bus.addressCells e.childAddr ++
    cellWords parent.addressCells e.parentAddr ++ cellWords bus.sizeCells e.size

def interruptWords (specs : List Interrupt) : List UInt32 :=
  specs.flatMap fun s => [s.kind, s.number, s.flags]

def clockWords (refs : List ClockArgs) : List UInt32 :=
  refs.flatMap fun r => r.controller :: r.args

def Property.name : Property → Bytes
  | .compatible _ => ascii "compatible"
  | .addressCells _ => ascii "#address-cells"
  | .sizeCells _ => ascii "#size-cells"
  | .reg _ => ascii "reg"
  | .interrupts _ => ascii "interrupts"
  | .ranges _ => ascii "ranges"
  | .phandle _ => ascii "phandle"
  | .linuxPhandle _ => ascii "linux,phandle"
  | .clockCells _ => ascii "#clock-cells"
  | .clocks _ => ascii "clocks"
  | .other name _ => name

/-- The names `other` does not stand for. -/
def knownNames : List Bytes :=
  ["compatible", "#address-cells", "#size-cells", "reg", "interrupts", "ranges", "phandle",
    "linux,phandle", "#clock-cells", "clocks"].map ascii

/-- The bytes of a property of a node with bus `bus` on the bus `parent`. -/
def Property.value (parent bus : Bus) : Property → Bytes
  | .compatible strings => stringBytes strings
  | .addressCells n => be32 n
  | .sizeCells n => be32 n
  | .reg entries => be32s (regWords parent entries)
  | .interrupts specs => be32s (interruptWords specs)
  | .ranges entries => be32s (rangeWords parent bus entries)
  | .phandle p => be32 p
  | .linuxPhandle p => be32 p
  | .clockCells n => be32 n
  | .clocks refs => be32s (clockWords refs)
  | .other _ value => value

inductive Lexeme where
  | beginNode (name : Bytes)
  | endNode
  | prop (name value : Bytes)
  | finish
  deriving DecidableEq, Repr

mutual

def Tree.lexemes (path : List Bus) : Tree → List Lexeme
  | .node name props children =>
    .beginNode name ::
      (props.map (fun p => .prop p.name (p.value (parentBus path) (busOf props))) ++
        (lexemesOf (busOf props :: path) children ++ [.endNode]))

def lexemesOf (path : List Bus) : List Tree → List Lexeme
  | [] => []
  | t :: ts => t.lexemes path ++ lexemesOf path ts

end

/-- Zero bytes up to a multiple of 4. -/
def pad4 (bs : Bytes) : Bytes := bs ++ List.replicate (align4 bs.length - bs.length) 0

/-- A token of the structure block: the NOP tokens before it, and for a property
    the offset of its name in the strings block. -/
structure Item where
  nops : Nat
  nameOff : UInt32
  lexeme : Lexeme
  deriving DecidableEq, Repr

/-- The token itself. -/
def Item.token (it : Item) : Bytes :=
  match it.lexeme with
  | .beginNode name => be32 fdtBeginNode ++ pad4 (name ++ [0])
  | .endNode => be32 fdtEndNode
  | .prop _ value =>
    be32 fdtProp ++ (be32 (UInt32.ofNat value.length) ++ (be32 it.nameOff ++ pad4 value))
  | .finish => be32 fdtEnd

def Item.bytes (it : Item) : Bytes := be32s (List.replicate it.nops fdtNop) ++ it.token

/-- The name of a property stands in the strings block, and its length fits. -/
def Item.Spelled (data : Bytes) (offDtStrings : Nat) (it : Item) : Prop :=
  match it.lexeme with
  | .prop name value =>
    Holds data (offDtStrings + it.nameOff.toNat) (name ++ [0]) ∧ value.length < 2 ^ 32
  | _ => True

instance (data : Bytes) (offDtStrings : Nat) :
    (it : Item) → Decidable (it.Spelled data offDtStrings)
  | ⟨_, _, .prop _ _⟩ => inferInstanceAs (Decidable (_ ∧ _))
  | ⟨_, _, .beginNode _⟩ | ⟨_, _, .endNode⟩ | ⟨_, _, .finish⟩ => isTrue trivial

/-- The blob `data` is the tree `t`, flattened as `items`.  The header gives the
    offsets of the two blocks; its size fields and the memory reservations are
    not read by the parser.  A blob's size is a 32-bit field. -/
@[mk_iff]
structure Flattened (data : Bytes) (t : Tree) (items : List Item)
    (offDtStruct offDtStrings : UInt32) :
    Prop where
  size : 40 ≤ data.length ∧ data.length < 2 ^ 32
  magic : Holds data 0 (be32 fdtMagic)
  structOff : Holds data 8 (be32 offDtStruct)
  stringsOff : Holds data 12 (be32 offDtStrings)
  aligned : offDtStruct.toNat % 4 = 0
  lexemes : items.map Item.lexeme = t.lexemes [] ++ [.finish]
  block : Holds data offDtStruct.toNat (items.flatMap Item.bytes)
  spelled : ∀ it ∈ items, it.Spelled data offDtStrings.toNat

instance (data : Bytes) (t : Tree) (items : List Item) (offDtStruct offDtStrings : UInt32) :
    Decidable (Flattened data t items offDtStruct offDtStrings) :=
  decidable_of_iff' _ (flattened_iff ..)

/-! ## Trees within the parser's limits -/

/-- The number fits in `cells` words. -/
def Fits (cells : UInt32) (v : UInt64) : Prop := v.toNat < 2 ^ (32 * cells.toNat)

instance (cells : UInt32) (v : UInt64) : Decidable (Fits cells v) :=
  inferInstanceAs (Decidable (_ < _))

/-- A bus whose addresses and sizes take one or two cells. -/
def Bus.Narrow (bus : Bus) : Prop :=
  (bus.addressCells = 1 ∨ bus.addressCells = 2) ∧ (bus.sizeCells = 1 ∨ bus.sizeCells = 2)

instance (bus : Bus) : Decidable bus.Narrow := inferInstanceAs (Decidable (_ ∧ _))

/-- The property can be written: strings without zero bytes, numbers that fit. -/
def Property.Valid (parent bus : Bus) : Property → Prop
  | .compatible strings => ∀ s ∈ strings, (0 : UInt8) ∉ s
  | .reg entries => ∀ e ∈ entries, Fits parent.addressCells e.1 ∧ Fits parent.sizeCells e.2
  | .ranges entries => ∀ e ∈ entries, Fits bus.addressCells e.childAddr ∧
      Fits parent.addressCells e.parentAddr ∧ Fits bus.sizeCells e.size
  | .phandle p => p ≠ 0
  | .linuxPhandle p => p ≠ 0
  | .other name _ => name ∉ knownNames ∧ (0 : UInt8) ∉ name
  | _ => True

instance (parent bus : Bus) : (p : Property) → Decidable (p.Valid parent bus)
  | .compatible _ | .ranges _ => inferInstanceAs (Decidable (∀ e ∈ _, _))
  -- by the entries of the list: the pairs of numbers are finitely many too
  | .reg entries => List.decidableBAll _ entries
  | .phandle _ | .linuxPhandle _ => inferInstanceAs (Decidable (_ ≠ _))
  | .other _ _ => inferInstanceAs (Decidable (_ ∧ _))
  | .addressCells _ | .sizeCells _ | .interrupts _ | .clockCells _ | .clocks _ => isTrue trivial

/-- The limits on a node: at most four levels, one or two cells on every bus around it, at most
    three ranges, and properties that can be written, each under its own name. -/
@[mk_iff]
structure Located.Within (n : Located) : Prop where
  level : n.path.length < maxDepth
  narrow : ∀ bus ∈ n.path, bus.Narrow
  name : (0 : UInt8) ∉ n.name
  ranges : (busOf n.props).ranges.length ≤ maxRanges
  valid : ∀ p ∈ n.props, p.Valid (parentBus n.path) (busOf n.props)
  distinct : (n.props.map Property.name).Nodup

instance (n : Located) : Decidable n.Within := decidable_of_iff' _ (Located.within_iff n)

/-- The node is a clock controller others can refer to. -/
def Located.IsController (n : Located) (phandle : UInt32) (cells : Nat) : Prop :=
  n.phandle = phandle ∧ n.values.clockCells.map UInt32.toNat = some cells

instance (n : Located) (phandle : UInt32) (cells : Nat) :
    Decidable (n.IsController phandle cells) := inferInstanceAs (Decidable (_ ∧ _))

/-- A tree the parser's limits allow.  Phandles identify nodes, and the cells of
    a clock reference are as many as its controller asks for. -/
@[mk_iff]
structure Tree.Within (t : Tree) : Prop where
  node : ∀ n ∈ t.nodes [], n.Within
  devices : ((t.nodes []).filter (·.values.strings.isSome)).length ≤ maxDevices
  providers : ((t.nodes []).filter (·.values.clockCells.isSome)).length ≤ maxClockProviders
  phandles : (((t.nodes []).map Located.phandle).filter (· ≠ 0)).Nodup
  clocks : ∀ n ∈ t.nodes [], ∀ r ∈ n.clockRefs, r.controller ≠ 0 ∧
    ∃ c ∈ t.nodes [], c.IsController r.controller r.args.length

instance (t : Tree) : Decidable t.Within := decidable_of_iff' _ (Tree.within_iff t)

end Lockjaw.Fdt
