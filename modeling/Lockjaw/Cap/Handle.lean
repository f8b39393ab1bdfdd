/-
  Lockjaw.Cap.Handle

  Handle tables: `lockjaw-types/src/object.rs`, `lockjaw-types/src/rights.rs`
  and the slot operations of `lockjaw-types/src/handle_ops.rs`.

  A kernel object is addressed by the frame that holds it.  A PageSet header
  lives in one of the `MAX_PAGESETS` slots of the header pool, at
  `base + slot * stride`, so its address is the slot number.

  The last section counts the slots of a table that name a header; the
  PageSet counters are compared with these counts.
-/

import Mathlib.Data.List.Count
import Mathlib.Data.List.Basic
import Mathlib.Algebra.GroupWithZero.Nat

namespace Lockjaw.Cap

/-- Physical page number. -/
abbrev Frame := Nat

abbrev PhysAddr := Nat

/-- Maximum number of PageSets that can be tracked simultaneously. -/
def maxPagesets : Nat := 128

instance : NeZero maxPagesets := ⟨by decide⟩

/-- Address of a PageSet header: its slot of the header pool. -/
abbrev HeaderKva := Fin maxPagesets

/-- Page number of a user virtual address, as a handle slot records it. -/
abbrev VaPage := BitVec 32

/-! ## Rights and handle kinds -/

/-- Access rights on a handle. -/
abbrev Rights := BitVec 8

namespace Rights

def read : Rights := 1#8
def write : Rights := 2#8
def readWrite : Rights := 3#8
def none : Rights := 0#8

def contains (r required : Rights) : Bool := required &&& ~~~r == 0#8

end Rights

inductive ObjectType where
  | handleTable
  | threadControlBlock
  | endpoint
  | notification
  | reply
  | process
  | pageSet
  deriving DecidableEq, Repr

/-- What a slot of a handle table holds.  `mappedVaPage` is the page number at
    which this handle's PageSet is mapped, 0 when it is not. -/
inductive HandleKind where
  | empty
  | handleTable (kva : Frame)
  | threadControlBlock (paddr : Frame)
  | endpoint (kva : Frame) (callerToken : Option Nat)
  | notification (kva : Frame)
  | reply (kva : Frame)
  | process (kva : Frame)
  | pageSet (kva : HeaderKva) (mappedVaPage : VaPage)
  deriving DecidableEq, Repr

namespace HandleKind

def objType : HandleKind → ObjectType
  | empty => .handleTable  -- inert
  | handleTable _ => .handleTable
  | threadControlBlock _ => .threadControlBlock
  | endpoint _ _ => .endpoint
  | notification _ => .notification
  | reply _ => .reply
  | process _ => .process
  | pageSet _ _ => .pageSet

def isPageset : HandleKind → Bool
  | pageSet _ _ => true
  | _ => false

/-- The mapping record is per address space and is not copied. -/
def unmapped : HandleKind → HandleKind
  | pageSet kva _ => pageSet kva 0
  | other => other

end HandleKind

structure HandleEntry where
  rights : Rights
  kind : HandleKind
  deriving DecidableEq, Repr

/-- The empty slot. -/
def HandleEntry.EMPTY : HandleEntry where
  rights := Rights.none
  kind := .empty

inductive HandleError where
  | tableFull
  | invalidHandle
  | insufficientRights
  deriving DecidableEq, Repr

/-! ## Slot operations -/

def findEmptySlot (slots : List HandleEntry) : Option Nat :=
  slots.findIdx? fun s => s.kind == .empty

def slotLookup (slots : List HandleEntry) (index : Nat) (required : Rights) :
    Except HandleError HandleEntry :=
  match slots[index]? with
  | none => .error .invalidHandle
  | some slot =>
    if slot.kind = .empty then .error .invalidHandle
    else if Rights.contains slot.rights required then .ok slot
    else .error .insufficientRights

/-- Put a handle into the first empty slot; returns the table and the index. -/
def slotInsert (slots : List HandleEntry) (rights : Rights) (kind : HandleKind) :
    Except HandleError (List HandleEntry × Nat) :=
  if kind = .empty then .error .invalidHandle
  else
    match findEmptySlot slots with
    | none => .error .tableFull
    | some idx => .ok (slots.set idx { rights, kind := kind.unmapped }, idx)

def slotRemove (slots : List HandleEntry) (index : Nat) :
    Except HandleError (List HandleEntry × HandleEntry) :=
  match slots[index]? with
  | none => .error .invalidHandle
  | some slot =>
    if slot.kind = .empty then .error .invalidHandle
    else .ok (slots.set index HandleEntry.EMPTY, slot)

def slotGetMappedVa (slots : List HandleEntry) (index : Nat) : Except HandleError VaPage :=
  match slots[index]? with
  | some { kind := .pageSet _ va, .. } => .ok va
  | _ => .error .invalidHandle

def slotSetMappedVa (slots : List HandleEntry) (index : Nat) (vaPage : VaPage) :
    Except HandleError (List HandleEntry) :=
  match slots[index]? with
  | some { kind := .pageSet kva _, rights } =>
    .ok (slots.set index { rights, kind := .pageSet kva vaPage })
  | _ => .error .invalidHandle

/-! ## Close decision -/

inductive CloseHandleResult where
  | removeOnly
  | removeAndDecRef (headerKva : HeaderKva)
  | unmapThenRemove (headerKva : HeaderKva) (mappedVaPage : VaPage)
  | invalidHandle
  deriving DecidableEq, Repr

/-- The close protocol for one slot. -/
def decideCloseHandle (entry : Option HandleEntry) : CloseHandleResult :=
  match entry with
  | none => .invalidHandle
  | some e =>
    match e.kind with
    | .empty => .invalidHandle
    | .pageSet kva va => if va ≠ 0 then .unmapThenRemove kva va else .removeAndDecRef kva
    | _ => .removeOnly

/-! ## Slots that name a header -/

/-- The slot holds a handle to the PageSet of `h`. -/
def HandleEntry.names (h : HeaderKva) (e : HandleEntry) : Bool :=
  match e.kind with
  | .pageSet kva _ => kva == h
  | _ => false

/-- The slot holds a handle to the PageSet of `h` with an active mapping. -/
def HandleEntry.maps (h : HeaderKva) (e : HandleEntry) : Bool :=
  match e.kind with
  | .pageSet kva va => kva == h && va != 0
  | _ => false

/-- Number of slots naming `h`. -/
def refsIn (h : HeaderKva) (slots : List HandleEntry) : Nat := slots.countP (·.names h)

/-- Number of slots naming `h` whose mapping address is nonzero. -/
def mapsIn (h : HeaderKva) (slots : List HandleEntry) : Nat := slots.countP (·.maps h)

namespace HandleEntry

variable {h h' : HeaderKva} {e : HandleEntry}

@[simp] theorem names_empty : names h EMPTY = false := rfl

@[simp] theorem maps_empty : maps h EMPTY = false := rfl

variable {r : Rights} {k : HeaderKva} {va : VaPage}

@[simp] theorem names_pageSet : names h { rights := r, kind := .pageSet k va } = (k == h) := rfl

@[simp] theorem maps_pageSet :
    maps h { rights := r, kind := .pageSet k va } = (k == h && va != 0) := rfl

theorem names_iff : names h e = true ↔ ∃ va, e.kind = .pageSet h va := by
  obtain ⟨r, k⟩ := e
  cases k <;> simp [names]

theorem maps_iff : maps h e = true ↔ ∃ va, e.kind = .pageSet h va ∧ va ≠ 0 := by
  obtain ⟨r, k⟩ := e
  cases k <;> simp [maps]

theorem names_of_maps (hm : maps h e = true) : names h e = true := by
  obtain ⟨va, hk, -⟩ := maps_iff.mp hm
  exact names_iff.mpr ⟨va, hk⟩

theorem names_of_kind (hk : e.kind = .pageSet h' va) : names h e = (h' == h) := by
  simp [names, hk]

theorem names_of_not_pageset (hk : e.kind.isPageset = false) : names h e = false := by
  obtain ⟨r, k⟩ := e
  cases k <;> simp_all [names, HandleKind.isPageset]

theorem maps_of_not_pageset (hk : e.kind.isPageset = false) : maps h e = false := by
  obtain ⟨r, k⟩ := e
  cases k <;> simp_all [maps, HandleKind.isPageset]

end HandleEntry

section Counts

variable {h : HeaderKva} {slots : List HandleEntry} {i : Nat} {old new : HandleEntry}

/-- Overwriting one element moves a count by that element's own contribution. -/
theorem countP_set_add {α : Type} {p : α → Bool} {l : List α} {i : Nat} {old new : α}
    (hi : l[i]? = some old) :
    (l.set i new).countP p + (if p old then 1 else 0) = l.countP p + (if p new then 1 else 0) := by
  obtain ⟨hlt, hget⟩ := List.getElem?_eq_some_iff.mp hi
  grind

theorem mapsIn_pos_of_maps (hi : slots[i]? = some old) (hm : old.maps h = true) :
    0 < mapsIn h slots :=
  List.countP_pos_iff.mpr ⟨old, List.mem_of_getElem? hi, hm⟩

theorem mapsIn_le_refsIn : mapsIn h slots ≤ refsIn h slots :=
  List.countP_mono_left fun _ _ hm => HandleEntry.names_of_maps hm

end Counts

/-! ## What the slot operations do -/

theorem findEmptySlot_some {slots : List HandleEntry} {i : Nat} (h : findEmptySlot slots = some i) :
    ∃ e, slots[i]? = some e ∧ e.kind = .empty := by
  obtain ⟨hlt, hp, -⟩ := List.findIdx?_eq_some_iff_getElem.mp h
  exact ⟨slots[i], List.getElem?_eq_getElem hlt, by simpa using hp⟩

variable {r : Rights}

theorem slotLookup_ok {slots : List HandleEntry} {i : Nat} {e : HandleEntry}
    (h : slotLookup slots i r = .ok e) :
    slots[i]? = some e ∧ e.kind ≠ .empty ∧ Rights.contains e.rights r = true := by
  unfold slotLookup at h
  grind

end Lockjaw.Cap
