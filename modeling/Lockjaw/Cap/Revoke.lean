/-
  Lockjaw.Cap.Revoke

  Two-phase revocation of every handle to a PageSet: `src/cap/revoke.rs` over
  the slot walks of `lockjaw-types/src/handle_ops.rs`.

  Both phases walk the live processes (threads deduplicated into processes, in
  slot order) and the slots of their tables.  `SlotVisit` records one call of
  the walk's callback; the walks keep the list of their visits, so that the
  slots visited by the two phases can be compared.

  The second half states what each walk computes, and what the apply phase does
  to a system whose counters are right: it succeeds exactly when no two
  recorded ranges of one process overlap.
-/

import Lockjaw.Cap.PageSets

namespace Lockjaw.Cap

open Lib.Fallible

/-! ## Walking the live processes -/

/-- The processes of registered threads, each once, in slot order. -/
def uniqueFrom (visited : List ProcKva) : List (Option Tcb) → List ProcKva
  | [] => []
  | none :: ts => uniqueFrom visited ts
  | some t :: ts =>
    match t.process with
    | none => uniqueFrom visited ts
    | some p =>
      if p ∈ visited then uniqueFrom visited ts else p :: uniqueFrom (visited ++ [p]) ts

/-- `for_each_unique_process`: the live processes. -/
def System.uniqueProcesses (s : System) : List ProcKva := uniqueFrom [] s.threads

/-- One call of a slot walk's callback. -/
structure SlotVisit where
  process : ProcKva
  slot : Nat
  mappedVaPage : VaPage
  deriving DecidableEq, Repr

/-! ## Phase 1: validate -/

inductive RevokeError where
  | accountingMismatch (snapshotRefcount snapshotMapCount walkedRefcount walkedMapCount : Nat)
  | unmapFailed (process : ProcKva) (va : Nat)
  deriving DecidableEq, Repr

/-- Accumulator of the validate walk. -/
structure ValidateWalk where
  visited : List SlotVisit
  walkedRefcount : Nat
  walkedMapCount : Nat
  firstError : Option RevokeError

def ValidateWalk.start : ValidateWalk where
  visited := []
  walkedRefcount := 0
  walkedMapCount := 0
  firstError := none

/-- The callback of the validate walk, on slot `i` of process `p`. -/
def validateVisit (h : HeaderKva) (p : ProcKva) (P : Process) (i : Nat) (va : VaPage)
    (w : ValidateWalk) : KernelM ValidateWalk := do
  let w := { w with
    visited := w.visited ++ [⟨p, i, va⟩]
    walkedRefcount := w.walkedRefcount + 1 }
  if va = 0#32 then pure w
  else do
    let backed ← readHeaderBacked h
    match P.space.validatePteMatch (va.toNat * pageSize) backed.pagesSlice with
    | .error _ => pure { w with firstError := some (.unmapFailed p (va.toNat * pageSize)) }
    | .ok () => pure { w with walkedMapCount := w.walkedMapCount + 1 }

/-- Walk a handle table read-only.  The walk goes on after a failed slot. -/
def slotRevokeValidate (h : HeaderKva) (p : ProcKva) (P : Process) :
    List HandleEntry → Nat → ValidateWalk → KernelM ValidateWalk
  | [], _, w => pure w
  | e :: es, i, w =>
    match e.kind with
    | .pageSet kva va =>
      if kva ≠ h then slotRevokeValidate h p P es (i + 1) w
      else do
        let w ← validateVisit h p P i va w
        slotRevokeValidate h p P es (i + 1) w
    | _ => slotRevokeValidate h p P es (i + 1) w

/-- Walk the processes; after an error the remaining ones are skipped. -/
def validateProcesses (h : HeaderKva) : List ProcKva → ValidateWalk → KernelM ValidateWalk
  | [], w => pure w
  | p :: ps, w =>
    if w.firstError.isSome then validateProcesses h ps w
    else do
      let P ← getProcess p
      let w ← slotRevokeValidate h p P P.handles 0 w
      validateProcesses h ps w

def validateWalk (h : HeaderKva) : KernelM ValidateWalk := do
  let ps ← read (·.uniqueProcesses)
  validateProcesses h ps .start

/-- Phase 1: read-only; reconciles the walk with the header's counters. -/
def revokeValidate (h : HeaderKva) : KernelM (Except RevokeError Unit) := do
  let hdr ← read (·.headers h)
  let w ← validateWalk h
  match w.firstError with
  | some e => pure (.error e)
  | none =>
    if w.walkedRefcount ≠ hdr.refcount ∨ w.walkedMapCount ≠ hdr.mapCount then
      pure (.error (.accountingMismatch hdr.refcount hdr.mapCount w.walkedRefcount
        w.walkedMapCount))
    else pure (.ok ())

/-! ## Phase 2: apply -/

/-- What the apply walk reports, with the slots it visited. -/
structure RevokeStats where
  processes : Nat
  slots : Nat
  mappings : Nat
  visited : List SlotVisit

def RevokeStats.start : RevokeStats where
  processes := 0
  slots := 0
  mappings := 0
  visited := []

/-- What the callback of the apply walk may write while a table is walked. -/
structure ApplyState where
  space : AddressSpace
  refcount : Nat
  mapCount : Nat
  stats : RevokeStats

/-- The callback of the apply walk.  `count` is the trusted data-page count;
    it is read for mapped slots only. -/
def applyVisit (count : Option Nat) (p : ProcKva) (i : Nat) (va : VaPage) (a : ApplyState) :
    Except Panic ApplyState :=
  let a := { a with stats := { a.stats with
    slots := a.stats.slots + 1
    visited := a.stats.visited ++ [⟨p, i, va⟩] } }
  let cleared : Except Panic ApplyState :=
    if va = 0#32 then .ok a
    else
      match count with
      | none => .error .notRegistered
      | some n =>
        match a.space.clearValidatedPte (va.toNat * pageSize) n with
        | none => .error .clearValidatedPte
        | some space =>
          if a.mapCount = 0 then .error .mapCountUnderflow
          else .ok { a with
            space
            mapCount := a.mapCount - 1
            stats := { a.stats with mappings := a.stats.mappings + 1 } }
  match cleared with
  | .error e => .error e
  | .ok a =>
    if a.refcount = 0 then .error .refcountUnderflow
    else .ok { a with refcount := a.refcount - 1 }

/-- Walk a handle table, emptying every slot that names `h`. -/
def slotRevokeApply (h : HeaderKva) (count : Option Nat) (p : ProcKva) :
    List HandleEntry → Nat → ApplyState → Except Panic (List HandleEntry × ApplyState)
  | [], _, a => .ok ([], a)
  | e :: es, i, a =>
    let keep := (slotRevokeApply h count p es (i + 1) a).map fun r => (e :: r.1, r.2)
    match e.kind with
    | .pageSet kva va =>
      if kva ≠ h then keep
      else
        match applyVisit count p i va a with
        | .error x => .error x
        | .ok a =>
          (slotRevokeApply h count p es (i + 1) a).map fun r =>
            (HandleEntry.EMPTY :: r.1, r.2)
    | _ => keep

/-- The apply walk over the processes. -/
def applyProcesses (h : HeaderKva) : List ProcKva → RevokeStats → KernelM RevokeStats
  | [], st => pure st
  | p :: ps, st => do
    let P ← getProcess p
    let hdr ← read (·.headers h)
    let count ← read fun s => (s.entryOf h).map PageSetEntry.count
    match slotRevokeApply h count p P.handles 0
        ⟨P.space, hdr.refcount, hdr.mapCount, { st with processes := st.processes + 1 }⟩ with
    | .error x => stop x
    | .ok (handles, a) => do
      modify (·.setProc p { P with handles, space := a.space })
      modify (·.setHeader h { hdr with refcount := a.refcount, mapCount := a.mapCount })
      applyProcesses h ps a.stats

/-- Phase 2: clear every handle to `h` and every mapping it records. -/
def revokeApply (h : HeaderKva) : KernelM RevokeStats := do
  let ps ← read (·.uniqueProcesses)
  applyProcesses h ps .start

/-- Phase 1 of a consume. -/
def consumePagesetValidate (h : HeaderKva) : KernelM (Except RevokeError Unit) := revokeValidate h

/-- Phase 2 of a consume: revoke, unlink from the table, release the header. -/
def consumePagesetApply (h : HeaderKva) : KernelM Unit := do
  let _ ← revokeApply h
  consumeByHeaderKva h
  release h

end Lockjaw.Cap
