/-
  Lockjaw.Fdt.RoundTrip

  The parser on a flattened tree: within the limits the callback drops nothing
  (`deliver_collectNode`), every clock reference finds its controller
  (`Tree.Within.resolves`), and the table is `Located.parsed` of the nodes with a
  `compatible` property (`Flattened.parse`).

  `Located.parsed` and `Located.described` are compared field by field at the
  end; they differ for four kinds of nodes.
-/

import Mathlib.Data.List.Nodup
import Mathlib.Data.List.TakeWhile
import Lockjaw.Fdt.TreeWalk

namespace Lockjaw.Fdt

open Lib NodeState Located List

variable {data : Bytes} {pos : Nat}

/-! ## What the callback collects -/

def NodeState.provider? (s : NodeState) : Option ClockProvider :=
  if s.clockCells ≠ 0xffffffff ∧ s.phandle ≠ 0 then some ⟨s.phandle, s.clockCells⟩ else none

/-- The pending entries of devices from index `k` on. -/
def pendingFrom : Nat → List NodeState → List PendingClocks
  | _, [] => []
  | k, s :: rest =>
    if 0 < s.clocksLen then
      ⟨k, UInt32.ofNat s.clocksStart, UInt32.ofNat s.clocksLen⟩ :: pendingFrom (k + 1) rest
    else pendingFrom (k + 1) rest

theorem pendingFrom_snoc (k : Nat) (ss : List NodeState) (s : NodeState) :
    pendingFrom k (ss ++ [s]) = pendingFrom k ss ++
      if 0 < s.clocksLen then
        [⟨k + ss.length, UInt32.ofNat s.clocksStart, UInt32.ofNat s.clocksLen⟩]
      else [] := by
  induction ss generalizing k with
  | nil =>
    simp only [nil_append, pendingFrom, length_nil, Nat.add_zero]
  | cons x ss ih =>
    rw [cons_append, pendingFrom, pendingFrom, ih]
    grind

theorem length_pendingFrom (k : Nat) (ss : List NodeState) :
    (pendingFrom k ss).length ≤ ss.length := by
  induction ss generalizing k with
  | nil => exact Nat.le_refl 0
  | cons s ss ih =>
    have h := ih (k + 1)
    rw [pendingFrom]
    split <;> simp only [length_cons] <;> omega

variable {s : NodeState} {acc : Collected} {p : ClockProvider} {providers : List ClockProvider}
  {n : Located} {nodes : List Located} {ss : List NodeState} {r : ClockArgs}

theorem collectProvider_eq
    (h : acc.providers.length + s.provider?.toList.length ≤ maxClockProviders) :
    collectProvider s acc = { acc with providers := acc.providers ++ s.provider?.toList } := by
  unfold provider? at h ⊢
  unfold collectProvider
  by_cases hp : s.clockCells ≠ 0xffffffff ∧ s.phandle ≠ 0
  · rw [if_pos hp] at h ⊢
    exact if_pos ⟨hp.1, hp.2, h⟩
  · rw [if_neg hp, if_neg fun hc => hp ⟨hc.1, hc.2.1⟩]
    simp

/-- Within the limits nothing is dropped. -/
theorem deliver_collectNode (ns : List (Bytes × NodeState))
    (hdev : ((ns.map Prod.snd).filter (·.hasCompat)).length ≤ maxDevices)
    (hprov : ((ns.map Prod.snd).filterMap provider?).length ≤ maxClockProviders) :
    deliver collectNode {} ns =
      { devices := ((ns.map Prod.snd).filter (·.hasCompat)).map device
        providers := (ns.map Prod.snd).filterMap provider?
        pending := pendingFrom 0 ((ns.map Prod.snd).filter (·.hasCompat)) } := by
  induction ns using reverseRecOn with
  | nil => rfl
  | append_singleton ns x ih =>
    rw [map_append, filter_append, length_append] at hdev
    rw [map_append, filterMap_append, length_append] at hprov
    have hfold : deliver collectNode {} (ns ++ [x]) =
        collectNode (deliver collectNode {} ns) x.1 x.2 := by
      rw [deliver, foldl_append]
      rfl
    have hpend := length_pendingFrom 0 ((ns.map Prod.snd).filter (·.hasCompat))
    have hone : [x].map Prod.snd = [x.2] := rfl
    have hfm : [x.2].filterMap provider? = x.2.provider?.toList := by
      cases h : x.2.provider? <;> simp [h]
    rw [hone, hfm] at hprov
    rw [hfold, ih (by omega) (by omega), collectNode, collectProvider_eq hprov, map_append,
      filterMap_append, filter_append, hone, hfm]
    cases hs : x.2.hasCompat with
    | false =>
      have hfilter : [x.2].filter (·.hasCompat) = [] := by simp [hs]
      rw [hfilter, append_nil, collectDevice, if_neg (by simp [hs])]
    | true =>
      have hfilter : [x.2].filter (·.hasCompat) = [x.2] := by simp [hs]
      rw [hone, hfilter, length_singleton] at hdev
      rw [hfilter, pendingFrom_snoc, collectDevice, if_pos ⟨hs, by grind⟩]
      grind

/-! ## Resolving clocks -/

def ClockArgs.toRef (r : ClockArgs) : ClockRef := ⟨r.controller, r.args.headD 0⟩

/-- The providers tell how many cells the reference has. -/
def Resolves (providers : List ClockProvider) (r : ClockArgs) : Prop :=
  ∃ p, providers.find? (·.phandle == r.controller) = some p ∧ p.clockCells.toNat = r.args.length

theorem clockIdAt_of_holds {args : List UInt32}
    (hcells : p.clockCells.toNat = args.length) (h : Holds data pos (be32s args)) :
    clockIdAt data p pos = .ok (args.headD 0) := by
  unfold clockIdAt
  cases args with
  | nil =>
    rw [if_neg]
    · rfl
    · rw [UInt32.le_iff_toNat_le, hcells]
      decide
  | cons a args =>
    rw [if_pos]
    · exact readU32Be_of_holds (holds_append.mp h).1
    · rw [UInt32.le_iff_toNat_le, hcells]
      exact Nat.succ_le_succ (Nat.zero_le _)

theorem resolveClocksFrom_of_holds {refs : List ClockArgs}
    (hres : ∀ r ∈ refs, Resolves providers r) (h : Holds data pos (be32s (clockWords refs)))
    (slots : Nat) :
    resolveClocksFrom data providers (pos + (be32s (clockWords refs)).length) slots pos =
      .ok ((refs.take slots).map ClockArgs.toRef) := by
  induction slots generalizing refs pos with
  | zero => rfl
  | succ slots ih =>
    cases refs with
    | nil =>
      rw [resolveClocksFrom, if_neg]
      · rfl
      · simp [clockWords]
    | cons r refs =>
      obtain ⟨p, hfind, hcells⟩ := hres r mem_cons_self
      have hw : clockWords (r :: refs) = r.controller :: (r.args ++ clockWords refs) := rfl
      rw [hw, be32s_cons, be32s_append, holds_append, holds_append, length_be32,
        length_be32s] at h
      obtain ⟨hc, ha, hrest⟩ := h
      have hlen : (be32s (clockWords (r :: refs))).length =
          4 + p.clockCells.toNat * 4 + (be32s (clockWords refs)).length := by
        simp only [hw, length_be32s, length_cons, length_append, hcells]
        omega
      have hnext : pos + 4 + 4 * r.args.length = pos + 4 + p.clockCells.toNat * 4 := by
        rw [hcells, Nat.mul_comm]
      have hih := ih (fun x hx => hres x (mem_cons_of_mem r hx)) (hnext ▸ hrest)
      rw [resolveClocksFrom, if_pos (by omega), readU32Be_of_holds hc]
      simp only [bind, Except.bind, hfind]
      rw [if_neg (by omega), clockIdAt_of_holds hcells ha, hlen,
        show pos + (4 + p.clockCells.toNat * 4 + (be32s (clockWords refs)).length) =
          pos + 4 + p.clockCells.toNat * 4 + (be32s (clockWords refs)).length by omega]
      simp only [hih]
      rfl

/-- The device the parser makes of a node. -/
def Located.parsed (n : Located) : DeviceInfo where
  compatHashes := parsedHashes (n.values.strings.getD [])
  mmioAddr := n.parsedAddr
  mmioSize := (n.firstReg.map Prod.snd).getD 0
  intid := parsedIntid (n.values.interrupts.getD [])
  claimed := false
  claimToken := 0
  clocks := (n.clockRefs.take maxClockRefs).map ClockArgs.toRef
  phandle := n.phandle

theorem Delivered.device (h : Delivered data n s) :
    { s.device with clocks := (n.clockRefs.take maxClockRefs).map ClockArgs.toRef } = n.parsed := by
  simp only [NodeState.device, Located.parsed, h.hashes, h.addr, h.size, h.intid, h.phandle]

/-- A node without bytes in `clocks` has no references. -/
theorem Delivered.no_clocks (h : Delivered data n s)
    (hlen : s.clocksLen = 0) : n.clockRefs = [] := by
  have hc := h.clocks
  unfold clockRefs
  cases hv : n.values.clocks with
  | none => rfl
  | some refs =>
    rw [hv] at hc
    cases refs with
    | nil => rfl
    | cons r refs =>
      have hlen' : s.clocksLen = (be32s (clockWords (r :: refs))).length := hc.2
      simp only [length_be32s, clockWords, flatMap_cons, length_append,
        length_cons] at hlen'
      omega

theorem Delivered.resolve {k : Nat}
    (h : Delivered data n s) (hdata : data.length < 2 ^ 32) (hlen : 0 < s.clocksLen)
    (hres : ∀ r ∈ n.clockRefs, Resolves providers r) :
    resolveClocksFor data providers ⟨k, UInt32.ofNat s.clocksStart, UInt32.ofNat s.clocksLen⟩
      s.device = .ok n.parsed := by
  have hc := h.clocks
  cases hv : n.values.clocks with
  | none =>
    rw [hv] at hc
    exact absurd hc (Nat.ne_of_gt hlen)
  | some refs =>
    rw [hv] at hc
    obtain ⟨hholds, hl⟩ : Holds data s.clocksStart (be32s (clockWords refs)) ∧
      s.clocksLen = (be32s (clockWords refs)).length := hc
    have hrefs : n.clockRefs = refs := by rw [clockRefs, hv]; rfl
    rw [hrefs] at hres
    have hne : be32s (clockWords refs) ≠ [] := by
      intro hnil
      rw [hl, hnil] at hlen
      exact Nat.lt_irrefl 0 hlen
    have hbound := hholds.length_le hne
    have h1 : (UInt32.ofNat s.clocksStart).toNat = s.clocksStart := by
      rw [UInt32.toNat_ofNat']
      omega
    have h2 : (UInt32.ofNat s.clocksLen).toNat = (be32s (clockWords refs)).length := by
      rw [UInt32.toNat_ofNat', hl]
      omega
    have hslots : maxClockRefs - s.device.clocks.length = maxClockRefs := rfl
    have hloop := resolveClocksFrom_of_holds hres hholds maxClockRefs
    rw [resolveClocksFor, h1, h2, hslots, hloop, ← h.device, hrefs]
    rfl

/-- The second pass turns the collected entries into the parsed devices. -/
theorem resolveAll_eq (hdata : data.length < 2 ^ 32) (h : List.Forall₂ (Delivered data) nodes ss)
    (hres : ∀ n ∈ nodes, ∀ r ∈ n.clockRefs, Resolves providers r) (done : List DeviceInfo) :
    resolveAll data providers (pendingFrom done.length ss) (done ++ ss.map device) =
      .ok (done ++ nodes.map parsed) := by
  induction h generalizing done with
  | nil => rfl
  | @cons n s nodes ss hns hrest ih =>
    have hnext := ih (fun x hx => hres x (mem_cons_of_mem n hx)) (done ++ [n.parsed])
    rw [append_assoc, append_assoc, length_append, length_singleton] at hnext
    rw [pendingFrom]
    by_cases hlen : 0 < s.clocksLen
    · have hget : (done ++ (s :: ss).map device)[done.length]? = some s.device := by
        rw [getElem?_append_right (Nat.le_refl _), Nat.sub_self]
        rfl
      have hset : (done ++ (s :: ss).map device).set done.length n.parsed =
          done ++ ([n.parsed] ++ ss.map device) := by
        rw [set_append_right _ _ (Nat.le_refl _), Nat.sub_self]
        rfl
      rw [if_pos hlen, resolveAll]
      simp only [hget, hns.resolve hdata hlen (hres n mem_cons_self), bind, Except.bind,
        hset]
      exact hnext
    · have hdev : s.device = n.parsed := by
        rw [← hns.device, hns.no_clocks (by omega)]
        rfl
      rw [if_neg hlen, map_cons, hdev]
      exact hnext

/-- The provider entry of a node of the tree. -/
def Located.provider? (n : Located) : Option ClockProvider :=
  n.values.clockCells.bind fun k =>
    if k ≠ 0xffffffff ∧ n.phandle ≠ 0 then some ⟨n.phandle, k⟩ else none

theorem Delivered.provider (h : Delivered data n s) : s.provider? = n.provider? := by
  unfold NodeState.provider? Located.provider?
  rw [h.clockCells, h.phandle]
  cases n.values.clockCells with
  | none => exact if_neg fun hc => hc.1 rfl
  | some k => rfl

theorem filterMap_provider (h : List.Forall₂ (Delivered data) nodes ss) :
    ss.filterMap NodeState.provider? = nodes.filterMap Located.provider? := by
  induction h with
  | nil => rfl
  | cons hns _ ih => rw [filterMap_cons, filterMap_cons, hns.provider, ih]

theorem Located.provider?_eq_some (h : n.provider? = some p) :
    n.values.clockCells = some p.clockCells ∧ n.phandle = p.phandle ∧ p.phandle ≠ 0 := by
  grind [provider?, Option.bind_eq_some_iff]

theorem length_providers_le (nodes : List Located) :
    (nodes.filterMap Located.provider?).length ≤
      (nodes.filter (·.values.clockCells.isSome)).length := by
  induction nodes with
  | nil => exact Nat.le_refl 0
  | cons n nodes ih =>
    rw [filterMap_cons]
    cases hp : n.provider? with
    | none =>
      refine Nat.le_trans ih ?_
      exact ((sublist_cons_self n nodes).filter _).length_le
    | some p =>
      rw [filter_cons_of_pos (by rw [(provider?_eq_some hp).1]; rfl)]
      exact Nat.succ_le_succ ih

/-- In a tree within the limits every clock reference resolves, wherever its controller stands. -/
theorem Tree.Within.resolves {t : Tree} (h : t.Within) (hn : n ∈ t.nodes [])
    (hr : r ∈ n.clockRefs) (hlen : r.args.length < 2 ^ 32 - 1) :
    Resolves ((t.nodes []).filterMap Located.provider?) r := by
  obtain ⟨hne, c, hc, hphandle, hcells⟩ := h.clocks n hn r hr
  obtain ⟨k, hk, hklen⟩ := Option.map_eq_some_iff.mp hcells
  have hkmax : k ≠ 0xffffffff := by
    rintro rfl
    rw [← hklen] at hlen
    exact absurd hlen (by decide)
  have hprov : c.provider? = some ⟨r.controller, k⟩ := by
    rw [Located.provider?, hk, Option.bind_some, hphandle, if_pos ⟨hkmax, hne⟩]
  cases hfind : ((t.nodes []).filterMap Located.provider?).find? (·.phandle == r.controller) with
  | none => grind
  | some p =>
    obtain ⟨c', hc', hprov'⟩ := mem_filterMap.mp (mem_of_find?_eq_some hfind)
    obtain ⟨hcells', hphandle', -⟩ := Located.provider?_eq_some hprov'
    have hp : p.phandle = r.controller := by
      have h := find?_some hfind
      exact beq_iff_eq.mp h
    -- phandles are distinct, so the entry found is the controller's own
    have hcc : c' = c := by
      have hnodup := h.phandles
      rw [filter_map] at hnodup
      refine inj_on_of_nodup_map hnodup (mem_filter.mpr ⟨hc', ?_⟩)
        (mem_filter.mpr ⟨hc, ?_⟩) ?_
      all_goals grind
    refine ⟨p, hfind, ?_⟩
    rw [hcc, hk, Option.some.injEq] at hcells'
    rw [← hcells', hklen]

/-- The cells of a reference are in the blob. -/
theorem Delivered.args_lt (h : Delivered data n s)
    (hdata : data.length < 2 ^ 32) (hr : r ∈ n.clockRefs) : r.args.length < 2 ^ 32 - 1 := by
  have hc := h.clocks
  unfold clockRefs at hr
  cases hv : n.values.clocks with
  | none =>
    rw [hv] at hr
    cases hr
  | some refs =>
    rw [hv] at hr hc
    have hr : r ∈ refs := hr
    have hholds : Holds data s.clocksStart (be32s (clockWords refs)) := hc.1
    have hle : (r.controller :: r.args).length ≤ (clockWords refs).length := by
      obtain ⟨before, after, rfl⟩ := append_of_mem hr
      simp only [clockWords, flatMap_append, flatMap_cons, length_append]
      omega
    have hne : be32s (clockWords refs) ≠ [] := by grind [length_be32s]
    have hbound := hholds.length_le hne
    simp only [length_be32s, length_cons] at hbound hle
    omega

theorem exists_delivered
    (h : List.Forall₂ (Delivered data) nodes ss) : ∀ n ∈ nodes, ∃ s, Delivered data n s := by
  induction h with
  | nil => exact fun n hn => nomatch hn
  | @cons n s nodes ss hns _ ih => grind

/-! ## The table of a flattened tree -/

section Parse

variable {t : Tree} {items : List Item} {offDtStruct offDtStrings : UInt32}

theorem Flattened.header (hf : Flattened data t items offDtStruct offDtStrings) :
    validateHeader data =
      if offDtStrings.toNat < data.length then .ok (offDtStruct.toNat, offDtStrings.toNat)
      else .error (.error .invalidOffsets) := by
  have hstruct : offDtStruct.toNat < data.length := by
    have hne : items.flatMap Item.bytes ≠ [] := by
      intro hnil
      have hlex := congrArg length hf.lexemes
      cases items with
      | nil => simp at hlex
      | cons it items =>
        have htok : it.token = [] := by
          rw [flatMap_cons, Item.bytes] at hnil
          exact (append_eq_nil_iff.mp (append_eq_nil_iff.mp hnil).1).2
        have hlen := congrArg length htok
        unfold Item.token at hlen
        cases hl : it.lexeme <;> simp [hl] at hlen
    have hle := hf.block.length_le hne
    have hpos := length_pos_iff.mpr hne
    omega
  unfold validateHeader
  rw [if_neg (Nat.not_lt.mpr hf.size.1), readU32Be_of_holds hf.magic,
    readU32Be_of_holds hf.structOff, readU32Be_of_holds hf.stringsOff]
  simp only [bind, Except.bind, ne_eq, not_true_eq_false, if_false]
  grind

/-- The walk over the whole structure block. -/
theorem Flattened.walk {σ : Type} (onNode : σ → Bytes → NodeState → σ) (acc : σ)
    (hf : Flattened data t items offDtStruct offDtStrings) (hw : ∀ n ∈ t.nodes [], n.Within) :
    ∃ ns : List (Bytes × NodeState),
      List.Forall₂ (fun n x => Delivered data n x.2) (t.nodes []) ns ∧
      walkFdt data offDtStrings.toNat onNode offDtStruct.toNat acc =
        .ok (deliver onNode acc ns) := by
  obtain ⟨its, es, rfl, hits, hes⟩ := map_eq_append_iff.mp hf.lexemes
  obtain ⟨e, es, rfl, hle, hes⟩ := map_eq_cons_iff.mp hes
  obtain rfl := map_eq_nil_iff.mp hes
  have hh := hf.block
  rw [flatMap_append, holds_append] at hh
  obtain ⟨hh, hend⟩ := hh
  rw [flatMap_singleton] at hend
  obtain ⟨w', ⟨⟨n, hreach⟩, hpos, -, -, ns, hns, hacc⟩, -⟩ :=
    Tree.walk t (w := walkStart offDtStruct.toNat acc) rfl
      (show Opens data [] _ _ from ⟨rfl, trivial, fun _ _ => rfl, fun _ _ => rfl⟩) hw hits
      (fun it hit => hf.spelled it (mem_append_left _ hit)) hh hf.aligned
  refine ⟨ns, hns, ?_⟩
  have hfin : walkLoop data offDtStrings.toNat onNode (data.length + 1) w' = .ok w'.acc :=
    walkLoop_finish hle (by rw [hpos]; exact hend) (by omega)
  have hfuel := walkLoop_fuel offDtStrings.toNat onNode (w := walkStart offDtStruct.toNat acc)
    (show data.length < _ + 4 * (data.length + 1) by omega) n
  rw [Nat.add_comm, hreach, hfin, hacc] at hfuel
  exact hfuel.symm

/-- The parser on a flattened tree within the limits. -/
theorem Flattened.parse (hf : Flattened data t items offDtStruct offDtStrings) (hw : t.Within) :
    parseFdtInto data =
      if offDtStrings.toNat < data.length then
        .ok (((t.nodes []).filter (·.values.strings.isSome)).map Located.parsed)
      else .error (.error .invalidOffsets) := by
  unfold parseFdtInto
  rw [hf.header]
  by_cases hs : offDtStrings.toNat < data.length
  · obtain ⟨ns, hns, hwalk⟩ := hf.walk collectNode {} hw.node
    have hss : List.Forall₂ (Delivered data) (t.nodes []) (ns.map Prod.snd) := by
      rw [forall₂_map_right_iff]
      exact hns
    have hcompat : List.Forall₂ (Delivered data)
        ((t.nodes []).filter (·.values.strings.isSome))
        ((ns.map Prod.snd).filter (·.hasCompat)) := by
      refine rel_filter (fun n s h => ?_) hss
      show n.values.strings.isSome = true ↔ s.hasCompat = true
      rw [h.hasCompat]
    have hprov := filterMap_provider hss
    have hdeliver := deliver_collectNode ns (by rw [← hcompat.length_eq]; exact hw.devices)
      (by rw [hprov]; exact Nat.le_trans (length_providers_le _) hw.providers)
    have hres : ∀ n ∈ (t.nodes []).filter (·.values.strings.isSome), ∀ r ∈ n.clockRefs,
        Resolves ((t.nodes []).filterMap Located.provider?) r := by
      intro n hn r hr
      have hmem := (mem_filter.mp hn).1
      obtain ⟨s, hd⟩ := exists_delivered hss n hmem
      exact hw.resolves hmem hr (hd.args_lt hf.size.2 hr)
    rw [if_pos hs, if_pos hs]
    simp only [bind, Except.bind, hwalk, hdeliver, hprov]
    exact resolveAll_eq hf.size.2 hcompat hres []
  · rw [if_neg hs, if_neg hs]
    rfl

/-- What the parser gets right about a node: none of the strings it hashes is
    empty, address 0 is not moved by the ranges around it, the first SPI is the
    first interrupt, and there is room for the clock references. -/
structure Located.Plain (n : Located) : Prop where
  strings : ∀ s ∈ (n.values.strings.getD []).take maxCompat, s ≠ []
  addr : ∀ e, n.firstReg = some e → e.1 = 0 → toPhysical n.path 0 = 0
  spi : ∀ s, n.firstSpi = some s →
    (n.values.interrupts.getD []).head? = some s ∨ s.number + 32 = 0
  clocks : n.clockRefs.length ≤ maxClockRefs

theorem map_takeWhile_eq_iff {α β : Type} (f : α → β) (p : α → Bool) (l : List α) :
    (l.takeWhile p).map f = l.map f ↔ ∀ a ∈ l, p a = true := by
  constructor
  · intro h
    have hlen := congrArg length h
    rw [length_map, length_map] at hlen
    have heq : l.takeWhile p = l := ( takeWhile_prefix p).eq_of_length hlen
    exact takeWhile_eq_self_iff.mp heq
  · intro h
    rw [takeWhile_eq_self_iff.mpr h]

theorem parsedIntid_eq_iff (n : Located) :
    parsedIntid (n.values.interrupts.getD []) = (n.firstSpi.map (·.number + 32)).getD 0 ↔
      ∀ s, n.firstSpi = some s →
        (n.values.interrupts.getD []).head? = some s ∨ s.number + 32 = 0 := by
  unfold firstSpi
  cases n.values.interrupts.getD [] with
  | nil => simp [parsedIntid]
  | cons i rest =>
    by_cases hi : i.kind = 0
    · simp [parsedIntid, hi]
    · have hfind : (i :: rest).find? (·.kind = 0) = rest.find? (·.kind = 0) :=
        find?_cons_of_neg (by simpa using hi)
      rw [hfind, parsedIntid, if_neg hi]
      cases hr : rest.find? (·.kind = 0) with
      | none => simp
      | some s => grind

theorem Located.parsedAddr_eq_iff (n : Located) :
    n.parsedAddr = (n.firstReg.map fun e => toPhysical n.path e.1).getD 0 ↔
      ∀ e, n.firstReg = some e → e.1 = 0 → toPhysical n.path 0 = 0 := by
  unfold parsedAddr
  cases n.firstReg with
  | none => simp
  | some e =>
    by_cases h0 : e.1 = 0
    · simp [h0, eq_comm]
    · simp [h0]

theorem Located.parsed_eq_iff (n : Located) : n.parsed = n.described ↔ n.Plain := by
  have hstrings := map_takeWhile_eq_iff compatibleHash (· ≠ [])
    ((n.values.strings.getD []).take maxCompat)
  have hspi := parsedIntid_eq_iff n
  have haddr := n.parsedAddr_eq_iff
  have hclocks : (n.clockRefs.take maxClockRefs).map ClockArgs.toRef =
      n.clockRefs.map (fun r => (⟨r.controller, r.args.headD 0⟩ : ClockRef)) ↔
        n.clockRefs.length ≤ maxClockRefs := by
    constructor
    · grind [length_map]
    · intro h
      rw [take_of_length_le h]
      rfl
  rw [parsed, described, DeviceInfo.mk.injEq]
  constructor
  · rintro ⟨h1, h2, -, h4, -, -, h7, -⟩
    exact ⟨by simpa using hstrings.mp h1, haddr.mp h2, hspi.mp h4, hclocks.mp h7⟩
  · rintro ⟨h1, h2, h4, h7⟩
    exact ⟨hstrings.mpr (by simpa using h1), haddr.mpr h2, rfl, hspi.mpr h4, rfl, rfl,
      hclocks.mpr h7, rfl⟩

/-- The parser returns the table the tree describes exactly if the header's strings offset is inside
    the blob and every node with a `compatible` property is `Plain`. -/
theorem parse_lists_described_iff (hf : Flattened data t items offDtStruct offDtStrings)
    (hw : t.Within) :
    parseFdtInto data = .ok t.described ↔
      offDtStrings.toNat < data.length ∧
        ∀ n ∈ t.nodes [], n.values.strings.isSome → n.Plain := by
  rw [hf.parse hw, Tree.described]
  by_cases hs : offDtStrings.toNat < data.length
  · rw [if_pos hs, Except.ok.injEq, map_inj_left]
    simp only [hs, true_and, mem_filter, and_imp, parsed_eq_iff]
  · rw [if_neg hs]
    simp only [hs, false_and, reduceCtorEq]

end Parse

/-! ## A flattening -/

/-- The tokens without NOPs, every property with its own copy of its name. -/
def itemsFrom : Nat → List Lexeme → List Item
  | _, [] => []
  | off, .prop name value :: ls =>
    ⟨0, UInt32.ofNat off, .prop name value⟩ :: itemsFrom (off + name.length + 1) ls
  | off, l :: ls => ⟨0, 0, l⟩ :: itemsFrom off ls

def stringsBlock (ls : List Lexeme) : Bytes :=
  ls.flatMap fun l => match l with
    | .prop name _ => name ++ [0]
    | _ => []

def Tree.items (t : Tree) : List Item := itemsFrom 0 (t.lexemes [] ++ [.finish])

def Tree.structBlock (t : Tree) : Bytes := t.items.flatMap Item.bytes

def Tree.offDtStrings (t : Tree) : UInt32 := UInt32.ofNat (40 + t.structBlock.length)

/-- A version 17 blob with the structure block after the header. -/
def Tree.flatten (t : Tree) : Bytes :=
  let strings := stringsBlock (t.lexemes [])
  let total := UInt32.ofNat (40 + t.structBlock.length + strings.length)
  be32s [fdtMagic, total, 40, t.offDtStrings, 40, 17, 16, 0, UInt32.ofNat strings.length,
    UInt32.ofNat t.structBlock.length] ++ t.structBlock ++ strings

/-- A bus that maps its address 0 to 0x3f000000, with a device there. -/
def busTree : Tree :=
  .node [] [.addressCells 1, .sizeCells 1]
    [.node (ascii "soc") [.compatible [ascii "simple-bus"], .addressCells 1, .sizeCells 1,
        .ranges [⟨0, 0x3f000000, 0x1000000⟩]]
      [.node (ascii "timer@0") [.compatible [ascii "brcm,bcm2835-system-timer"],
        .reg [(0, 0x1000)]] []]]

/-- The timer's registers are at 0x3f000000; the parser lists them at 0. -/
theorem zero_address_not_translated :
    Flattened busTree.flatten busTree busTree.items 40 busTree.offDtStrings ∧ busTree.Within ∧
      busTree.described.map (·.mmioAddr) = [0x3f000000, 0] ∧
      (parseFdtInto busTree.flatten).toOption.map (·.map (·.mmioAddr)) = some [0, 0] :=
  ⟨by decide +kernel, by decide +kernel, by decide +kernel, by decide +kernel⟩

/-- A UART behind a bus, clocked by a controller that comes after it. -/
def uartTree : Tree :=
  .node [] [.sizeCells 1, .addressCells 2]
    [.node (ascii "soc") [.ranges [⟨0x7e000000, 0xfe000000, 0x1800000⟩], .addressCells 1,
        .sizeCells 1]
      [.node (ascii "serial@7e201000") [.reg [(0x7e201000, 0x200)], .interrupts [⟨0, 121, 4⟩],
          .clocks [⟨3, [19]⟩], .compatible [ascii "arm,pl011-axi", ascii "arm,pl011"]] [],
        .node (ascii "cprman@7e101000") [.compatible [ascii "brcm,bcm2711-cprman"], .phandle 3,
          .clockCells 1, .reg [(0x7e101000, 0x2000)], .other (ascii "status") []] []]]

theorem parse_lists_described_iff_uart :
    Flattened uartTree.flatten uartTree uartTree.items 40 uartTree.offDtStrings ∧ uartTree.Within ∧
      (parseFdtInto uartTree.flatten = .ok uartTree.described ↔
        uartTree.offDtStrings.toNat < uartTree.flatten.length ∧
          ∀ n ∈ uartTree.nodes [], n.values.strings.isSome → n.Plain) ∧
      uartTree.described.map (·.mmioAddr) = [0xfe201000, 0xfe101000] :=
  ⟨by decide +kernel, by decide +kernel,
    parse_lists_described_iff (show Flattened uartTree.flatten uartTree uartTree.items 40
      uartTree.offDtStrings by decide +kernel) (by decide +kernel), by decide +kernel⟩

end Lockjaw.Fdt
