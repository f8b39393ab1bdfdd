/-
  Lockjaw.Vmem.Scratch

  The mapping buffer of process creation: `validate_process_mappings`, the
  `ScratchCursor` of `lockjaw-types/src/vmem.rs`, and the loop of
  `provision_resources` that writes every mapping at the cursor and hands full
  pages to the address-space builder.

  What the loop does to the buffer does not depend on what a mapping is, so the
  entries are of any type with a zero value: the contents of a page that was just
  zeroed.  The batches handed to the builder are kept in order.  An index outside
  the current page, or a page outside the scratch PageSet, is a fault.
  `putMapping_follows` connects a step of the loop with the system call.
-/

import Lockjaw.Cap.CreateProcess

namespace Lockjaw.Vmem

open List Lib

open Cap (mappingsPerPage validateProcessMappings)

/-! ## The cursor -/

structure ScratchCursor where
  pageIdx : Nat
  offset : Nat
  totalPages : Nat
  totalWritten : Nat
  deriving DecidableEq, Repr

inductive ScratchAction where
  /-- `Continue` -/
  | cont
  | flushAndAdvance (nextPageIdx : Nat)
  deriving DecidableEq, Repr

namespace ScratchCursor

def new (totalScratchPages : Nat) : ScratchCursor := ⟨0, 0, totalScratchPages, 0⟩

def advance (c : ScratchCursor) : ScratchCursor × ScratchAction :=
  ({ c with offset := c.offset + 1, totalWritten := c.totalWritten + 1 },
    if c.offset + 1 ≥ mappingsPerPage ∧ c.pageIdx + 1 < c.totalPages then
      .flushAndAdvance (c.pageIdx + 1)
    else .cont)

def didAdvance (c : ScratchCursor) : ScratchCursor :=
  { c with pageIdx := c.pageIdx + 1, offset := 0 }

def hasPending (c : ScratchCursor) : Bool := decide (c.offset > 0)

def pendingCount (c : ScratchCursor) : Nat := c.offset

end ScratchCursor

/-! ## The loop -/

/-- The cursor, the entries of the current scratch page, and the batches the builder
    has received. -/
structure Scratch (α : Type) where
  cursor : ScratchCursor
  entries : Nat → α
  batches : List (List α)

inductive ScratchFault where
  /-- `mappings[cursor.offset()]` is out of bounds. -/
  | entryIndex
  /-- `scratch_ps.page(next_page_idx)` is `None`. -/
  | pageIndex
  deriving DecidableEq, Repr

namespace Scratch

variable {α : Type} [Inhabited α]

/-- The first scratch page, zeroed. -/
def new (totalScratchPages : Nat) : Scratch α := ⟨.new totalScratchPages, fun _ => default, []⟩

/-- `mappings[..n]` -/
def slice (entries : Nat → α) (n : Nat) : List α := (range n).map entries

/-- Write one mapping at the cursor and do what the cursor says. -/
def put (m : α) (s : Scratch α) : Except ScratchFault (Scratch α) :=
  if mappingsPerPage ≤ s.cursor.offset then .error .entryIndex
  else
    let entries := fun i => if i = s.cursor.offset then m else s.entries i
    match s.cursor.advance with
    | (cursor, .cont) => .ok ⟨cursor, entries, s.batches⟩
    | (cursor, .flushAndAdvance nextPageIdx) =>
      if cursor.totalPages ≤ nextPageIdx then .error .pageIndex
      else .ok ⟨cursor.didAdvance, fun _ => default,
        s.batches ++ [slice entries mappingsPerPage]⟩

/-- The mapping loop and the stack loop, over the entries of both. -/
def putAll : List α → Scratch α → Except ScratchFault (Scratch α)
  | [], s => .ok s
  | m :: ms, s =>
    match s.put m with
    | .error e => .error e
    | .ok s' => putAll ms s'

/-- The batches once the pending entries are flushed too. -/
def finish (s : Scratch α) : List (List α) :=
  if s.cursor.hasPending then s.batches ++ [slice s.entries s.cursor.pendingCount] else s.batches

/-! ## What the loop keeps -/

/-- Everything written so far: the flushed batches, then the pending entries. -/
def written (s : Scratch α) : List α := s.batches.flatten ++ slice s.entries s.cursor.offset

/-- The cursor is inside the scratch pages, and its page is full only on the last. -/
structure InBounds (pages : Nat) (c : ScratchCursor) : Prop where
  total : c.totalPages = pages
  page : c.pageIdx < pages
  offset : c.offset ≤ mappingsPerPage
  full : c.offset = mappingsPerPage → c.pageIdx + 1 = pages

variable {pages : Nat} {s : Scratch α}

theorem inBounds_new (h : 0 < pages) : InBounds pages (new pages : Scratch α).cursor :=
  ⟨rfl, h, Nat.zero_le _, fun h0 => by cases h0⟩

omit [Inhabited α] in
theorem slice_succ (entries : Nat → α) (m : α) (n : Nat) :
    slice (fun i => if i = n then m else entries i) (n + 1) = slice entries n ++ [m] := by
  rw [slice, range_succ, map_append, map_singleton, if_pos rfl]
  congr 1
  apply map_congr_left
  intro i hi
  rw [if_neg (Nat.ne_of_lt (mem_range.mp hi))]

/-- One step: with room on the page the entry is written, and afterwards the cursor
    is in bounds again, one entry further. -/
theorem put_ok (h : InBounds pages s.cursor) (hroom : s.cursor.offset < mappingsPerPage) (m : α) :
    ∃ s', s.put m = .ok s' ∧ InBounds pages s'.cursor ∧ s'.written = s.written ++ [m] ∧
      s'.cursor.pageIdx * mappingsPerPage + s'.cursor.offset
        = s.cursor.pageIdx * mappingsPerPage + s.cursor.offset + 1 := by
  rw [put, if_neg (Nat.not_le.mpr hroom), ScratchCursor.advance]
  by_cases hflush : s.cursor.offset + 1 ≥ mappingsPerPage ∧
      s.cursor.pageIdx + 1 < s.cursor.totalPages
  · have hlen : s.cursor.offset + 1 = mappingsPerPage := Nat.le_antisymm hroom hflush.1
    rw [if_pos hflush]
    dsimp only
    rw [if_neg (Nat.not_le.mpr hflush.2)]
    refine ⟨_, rfl, ⟨h.total, ?_, Nat.zero_le _, fun h0 => by cases h0⟩, ?_, ?_⟩
    · exact h.total ▸ hflush.2
    · rw [written, written, ← hlen, slice_succ, flatten_append, flatten_singleton,
        ← append_assoc]
      exact append_nil _
    · show (s.cursor.pageIdx + 1) * mappingsPerPage + 0 = _
      rw [Nat.succ_mul, Nat.add_zero]
      omega
  · rw [if_neg hflush]
    refine ⟨_, rfl, ⟨h.total, h.page, hroom, fun hfull => ?_⟩, ?_, rfl⟩
    all_goals grind [h.page, h.total, slice_succ, written]

/-- The last page is the only one that can be found full. -/
theorem InBounds.room {c : ScratchCursor} {n : Nat} (h : InBounds pages c)
    (hfit : c.pageIdx * mappingsPerPage + c.offset + (n + 1) ≤ pages * mappingsPerPage) :
    c.offset < mappingsPerPage := by
  apply Nat.lt_of_le_of_ne h.offset
  intro hfull
  rw [← h.full hfull, Nat.succ_mul] at hfit
  omega

/-- A whole run: as long as the entries fit the scratch pages, none faults. -/
theorem putAll_ok (ms : List α) : ∀ {s : Scratch α}, InBounds pages s.cursor →
    s.cursor.pageIdx * mappingsPerPage + s.cursor.offset + ms.length ≤ pages * mappingsPerPage →
    ∃ s', putAll ms s = .ok s' ∧ InBounds pages s'.cursor ∧ s'.written = s.written ++ ms ∧
      s'.cursor.pageIdx * mappingsPerPage + s'.cursor.offset
        = s.cursor.pageIdx * mappingsPerPage + s.cursor.offset + ms.length := by
  induction ms with
  | nil =>
    intro s h _
    exact ⟨s, rfl, h, (append_nil _).symm, rfl⟩
  | cons m ms ih =>
    intro s h hfit
    rw [length_cons] at hfit
    have hroom : s.cursor.offset < mappingsPerPage := h.room hfit
    obtain ⟨s1, hput, h1, hwritten, hpos⟩ := put_ok h hroom m
    obtain ⟨s', hall, h', hwritten', hpos'⟩ := ih h1 (by omega)
    refine ⟨s', ?_, h', ?_, ?_⟩
    · rw [putAll, hput]
      exact hall
    all_goals grind

omit [Inhabited α] in
/-- The batches hold what was written. -/
theorem flatten_finish (s : Scratch α) : s.finish.flatten = s.written := by
  unfold finish written ScratchCursor.hasPending ScratchCursor.pendingCount
  by_cases hpos : s.cursor.offset > 0
  · rw [if_pos (decide_eq_true hpos), flatten_append, flatten_singleton]
  · have h0 : s.cursor.offset = 0 := by omega
    rw [if_neg (by simpa using hpos), h0]
    exact (append_nil _).symm

end Scratch

/-! ## The loop of the system call -/

open Cap (Provision Mapping PageSetRef putMapping)

/-- An entry of a zeroed page. -/
instance : Inhabited Mapping := ⟨⟨0, 0, false, false⟩⟩

/-- The buffer of the system call, on its page, is what stands before the cursor. -/
structure Follows (pages : Nat) (st : Provision) (s : Scratch Mapping) : Prop where
  total : s.cursor.totalPages = pages
  page : s.cursor.pageIdx = st.pageIdx
  buffer : Scratch.slice s.entries s.cursor.offset = st.buffer

/-- One mapping of the system call is one step of the loop; where the step faults, the system call
    panics. -/
theorem putMapping_follows {donation scratch : PageSetRef} {m : Mapping} {st : Provision}
    {s : Scratch Mapping} (h : Follows scratch.count st s) (x : Cap.System) :
    (∀ e, s.put m = .error e → putMapping donation scratch m st x = .stop .scratchOverrun) ∧
    ∀ s', s.put m = .ok s' → (putMapping donation scratch m st x).Sat
      (fun st' _ => Follows scratch.count st' s') (fun _ _ => True) (fun _ => True) := by
  have hlen : st.buffer.length = s.cursor.offset := by
    rw [← h.buffer, Scratch.slice, length_map, length_range]
  have hlen' : (st.buffer ++ [m]).length = s.cursor.offset + 1 := by
    rw [length_append, hlen, length_singleton]
  unfold putMapping Scratch.put ScratchCursor.advance
  dsimp only
  rw [hlen, hlen', ← h.page, ← h.total]
  by_cases hfull : mappingsPerPage ≤ s.cursor.offset
  · rw [if_pos hfull, if_pos hfull]
    exact ⟨fun _ _ => rfl, nofun⟩
  rw [if_neg hfull, if_neg hfull]
  by_cases hflush : s.cursor.offset + 1 ≥ mappingsPerPage ∧
      s.cursor.pageIdx + 1 < s.cursor.totalPages
  · rw [if_pos hflush, if_pos hflush]
    dsimp only
    rw [if_neg (Nat.not_le.mpr hflush.2)]
    refine ⟨nofun, fun s' hs' => ?_⟩
    cases hs'
    refine bind_sat_any fun builder _ => bind_sat_any fun page _ => bind_sat_any fun next _ => ?_
    exact ⟨rfl, rfl, rfl⟩
  · rw [if_neg hflush, if_neg hflush]
    refine ⟨nofun, fun s' hs' => ?_⟩
    cases hs'
    exact ⟨rfl, rfl, by rw [Scratch.slice_succ, h.buffer]⟩

/-! ## The capacity check -/

/-- The loop over `entries` with `pages` scratch pages: before each entry the cursor is
    on a free entry of one of the pages, and the batches the builder receives are the
    entries, each once and in order. -/
structure Provisions {α : Type} [Inhabited α] (pages : Nat) (entries : List α) : Prop where
  inBounds : ∀ k < entries.length, ∃ s, Scratch.putAll (entries.take k) (.new pages) = .ok s ∧
    s.cursor.pageIdx < pages ∧ s.cursor.offset < mappingsPerPage
  flushed : ∃ s, Scratch.putAll entries (.new pages) = .ok s ∧ s.cursor.pageIdx < pages ∧
    s.finish.flatten = entries

theorem provisions_of_le {α : Type} [Inhabited α] {pages : Nat} {entries : List α}
    (hpos : 0 < pages) (hle : entries.length ≤ pages * mappingsPerPage) :
    Provisions pages entries := by
  have hnew : Scratch.InBounds pages (Scratch.new pages : Scratch α).cursor :=
    Scratch.inBounds_new hpos
  have hstart (n : Nat) : (Scratch.new pages : Scratch α).cursor.pageIdx * mappingsPerPage
      + (Scratch.new pages : Scratch α).cursor.offset + n = n := by
    show 0 * mappingsPerPage + 0 + n = n
    omega
  constructor
  · intro k hk
    have hlen : (entries.take k).length = k := by
      rw [length_take]
      omega
    obtain ⟨s, hall, hin, -, hcur⟩ := Scratch.putAll_ok (entries.take k) hnew
      (by rw [hstart, hlen]; omega)
    rw [hstart, hlen] at hcur
    exact ⟨s, hall, hin.page, hin.room (n := 0) (by omega)⟩
  · obtain ⟨s, hall, hin, hwritten, -⟩ := Scratch.putAll_ok entries hnew (by rw [hstart]; exact hle)
    refine ⟨s, hall, hin.page, ?_⟩
    rw [Scratch.flatten_finish, hwritten]
    rfl

/-- When the check accepts, the entries fit the scratch pages and the loop keeps to them exactly
    when the sum of the two counts is below 2^64.  Scratch PageSets whose own capacity reaches
    2^64 are apart: there the entries fit when they do. -/
theorem accepted_fits_iff {α : Type} [Inhabited α] {mappingCount stackCount scratchPages : Nat}
    (haccept : validateProcessMappings mappingCount stackCount
      (scratchPages * mappingsPerPage % 2 ^ 64) = true) :
    (mappingCount + stackCount ≤ scratchPages * mappingsPerPage ∧
      ∀ entries : List α, entries.length = mappingCount + stackCount →
        Provisions scratchPages entries) ↔
    if scratchPages * mappingsPerPage < 2 ^ 64 then mappingCount + stackCount < 2 ^ 64
    else mappingCount + stackCount ≤ scratchPages * mappingsPerPage := by
  unfold validateProcessMappings at haccept
  rw [Bool.and_eq_true, Bool.and_eq_true, decide_eq_true_iff, decide_eq_true_iff,
    decide_eq_true_iff] at haccept
  obtain ⟨⟨hmc, hsc⟩, hsum⟩ := haccept
  constructor
  · rintro ⟨hle, -⟩
    split_ifs with hcap
    · exact Nat.lt_of_le_of_lt hle hcap
    · exact hle
  · intro h
    have hle : mappingCount + stackCount ≤ scratchPages * mappingsPerPage := by
      split_ifs at h with hcap
      · rwa [Nat.mod_eq_of_lt h, Nat.mod_eq_of_lt hcap] at hsum
      · exact h
    have hpos : 0 < scratchPages := by
      apply Nat.pos_of_ne_zero
      rintro rfl
      omega
    refine ⟨hle, fun entries hlen => ?_⟩
    exact provisions_of_le hpos (hlen ▸ hle)

/-- 171 mappings and a stack page on two scratch pages: the first page is flushed. -/
theorem accepted_fits_iff_two :
    171 + 1 ≤ 2 * mappingsPerPage ∧
      ∀ entries : List Nat, entries.length = 171 + 1 → Provisions 2 entries :=
  (accepted_fits_iff (by decide)).mpr (by decide)

/-- `mapping_count = 2^64 - 1` with one stack page and one scratch page passes the check:
    the sum wraps to 0.  The 171st entry of the list has no place on the page. -/
theorem wrapped_count_overruns :
    validateProcessMappings (2 ^ 64 - 1) 1 (1 * mappingsPerPage % 2 ^ 64) = true ∧
      1 * mappingsPerPage < 2 ^ 64 - 1 + 1 ∧
      ∃ s : Scratch Nat, Scratch.putAll (replicate mappingsPerPage 0) (.new 1) = .ok s ∧
        s.put 0 = .error .entryIndex := by
  refine ⟨by decide, by decide, ?_⟩
  obtain ⟨s, hall, hin, -, hcur⟩ := @Scratch.putAll_ok Nat _ 1 (replicate mappingsPerPage 0)
    (.new 1) (Scratch.inBounds_new Nat.zero_lt_one) (by rw [length_replicate]; decide)
  rw [length_replicate] at hcur
  have hpage := hin.page
  have h170 : s.cursor.pageIdx * 170 + s.cursor.offset = 170 := hcur
  refine ⟨s, hall, ?_⟩
  rw [Scratch.put, if_pos]
  show 170 ≤ s.cursor.offset
  omega

end Lockjaw.Vmem
