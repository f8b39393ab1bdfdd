/-
  Lockjaw.Ipc.Queues

  The endpoints' waiter queues.  All of them are threaded through the same
  `ipc_queue_next` field of the TCBs, so one predicate speaks about all
  endpoints at once: `Queues k q` says that endpoint `e` holds exactly the
  list `q e`, and that no TCB is on two queues.
-/

import Lockjaw.Lib.IntrusiveQueue
import Lockjaw.Ipc.Kernel

namespace Lockjaw.Ipc

open Lib Function

namespace Kernel

variable {k : Kernel} {t u ep e r : Kva} {q : Kva → List Kva}

/-! ## Reading back the object updates -/

section Updates

variable {f : Tcb → Tcb} {g : EndpointObject → EndpointObject} {h : ReplyObject → ReplyObject}
  {p : Option Pending}

@[simp] theorem updTcb_tcb : (k.updTcb t f).tcb u = if u = t then f (k.tcb t) else k.tcb u := by
  simp [updTcb, update_apply]

@[simp] theorem updEp_endpoint :
    (k.updEp ep g).endpoint e = if e = ep then g (k.endpoint ep) else k.endpoint e := by
  simp [updEp, update_apply]

@[simp] theorem updReply_reply (r' : Kva) :
    (k.updReply r h).reply r' = if r' = r then h (k.reply r) else k.reply r' := by
  simp [updReply, update_apply]

@[simp] theorem setPending_pending :
    (k.setPending t p).pending u = if u = t then p else k.pending u := by
  simp [setPending, update_apply]

end Updates

/-! ## All queues at once -/

/-- The link field of every TCB. -/
def nextOf (k : Kernel) : Kva → Kva := fun t => (k.tcb t).ipcQueueNext

/-- Endpoint `e`'s waiter queue is `l`, head first. -/
def QueueIs (k : Kernel) (e : Kva) (l : List Kva) : Prop :=
  IsQueue k.nextOf 0 (k.endpoint e).queueHead (k.endpoint e).queueTail l

/-- The waiter queues of all endpoints. -/
structure Queues (k : Kernel) (q : Kva → List Kva) : Prop where
  queueIs : ∀ e, k.QueueIs e (q e)
  disjoint : ∀ e e' t, t ∈ q e → t ∈ q e' → e = e'

theorem Queues.of_eq {q' : Kva → List Kva} (h : Queues k q) (heq : q' = q) : Queues k q' :=
  heq ▸ h

/-- The queues depend only on the link fields and the head and tail pointers. -/
theorem Queues.congr {k' : Kernel} (h : Queues k q)
    (htcb : ∀ t, (k'.tcb t).ipcQueueNext = (k.tcb t).ipcQueueNext)
    (hep : ∀ e, (k'.endpoint e).queueHead = (k.endpoint e).queueHead ∧
      (k'.endpoint e).queueTail = (k.endpoint e).queueTail) : Queues k' q := by
  refine ⟨fun e => ?_, h.disjoint⟩
  rw [QueueIs, (hep e).1, (hep e).2]
  exact (h.queueIs e).congr fun t _ => htcb t

/-! ## Enqueue -/

theorem enqueue_empty (h : (k.endpoint ep).queueTail = 0) :
    k.enqueue ep t = (k.updTcb t fun x => { x with ipcQueueNext := 0 }).updEp ep
      fun x => { x with queueHead := t, queueTail := t } :=
  if_pos h

/-- Enqueue behind the old tail. -/
theorem enqueue_nonempty (h : (k.endpoint ep).queueTail ≠ 0) :
    k.enqueue ep t = ((k.updTcb t fun x => { x with ipcQueueNext := 0 }).updTcb
      (k.endpoint ep).queueTail fun x => { x with ipcQueueNext := t }).updEp ep
      fun x => { x with queueTail := t } :=
  if_neg h

/-- `enqueue` changes no TCB field but the link. -/
@[simp] theorem enqueue_tcb : ((k.enqueue ep t).tcb u).toTcbBody = (k.tcb u).toTcbBody := by
  by_cases htail : (k.endpoint ep).queueTail = 0
  · rw [enqueue_empty htail]
    by_cases hut : u = t <;> simp [hut]
  · rw [enqueue_nonempty htail]
    by_cases hu : u = (k.endpoint ep).queueTail
    · simp only [updEp_tcb, updTcb_tcb, hu, if_true]
      split
      · next heq => rw [heq]
      · rfl
    · by_cases hut : u = t
      · subst hut
        simp [hu]
      · simp [hu, hut]

/-- `enqueue` changes no endpoint field but the queue ends. -/
theorem enqueue_endpoint (k : Kernel) (ep t e : Kva) : ∃ hd tl, (k.enqueue ep t).endpoint e =
    { k.endpoint e with queueHead := hd, queueTail := tl } := by
  by_cases htail : (k.endpoint ep).queueTail = 0
  · rw [enqueue_empty htail]
    by_cases he : e = ep
    · exact ⟨t, t, by simp [he]⟩
    · exact ⟨(k.endpoint e).queueHead, (k.endpoint e).queueTail, by simp [he]⟩
  · rw [enqueue_nonempty htail]
    by_cases he : e = ep
    · exact ⟨(k.endpoint ep).queueHead, t, by simp [he]⟩
    · exact ⟨(k.endpoint e).queueHead, (k.endpoint e).queueTail, by simp [he]⟩

@[simp] theorem enqueue_endpoint_state :
    ((k.enqueue ep t).endpoint e).state = (k.endpoint e).state := by
  obtain ⟨hd, tl, heq⟩ := enqueue_endpoint k ep t e
  rw [heq]

@[simp] theorem enqueue_endpoint_readinessWaiter :
    ((k.enqueue ep t).endpoint e).readinessWaiter = (k.endpoint e).readinessWaiter := by
  obtain ⟨hd, tl, heq⟩ := enqueue_endpoint k ep t e
  rw [heq]

@[simp] theorem enqueue_sched : (k.enqueue ep t).sched = k.sched := by
  dsimp only [enqueue]
  split <;> rfl

@[simp] theorem enqueue_threads : (k.enqueue ep t).threads = k.threads := by
  dsimp only [enqueue]
  split <;> rfl

@[simp] theorem enqueue_reply : (k.enqueue ep t).reply = k.reply := by
  dsimp only [enqueue]
  split <;> rfl

@[simp] theorem enqueue_pending : (k.enqueue ep t).pending = k.pending := by
  dsimp only [enqueue]
  split <;> rfl

/-- Appending a TCB that is on no queue. -/
theorem Queues.enqueue (h : Queues k q) (ep : Kva) (ht : t ≠ 0) (hfree : ∀ e, t ∉ q e) :
    Queues (k.enqueue ep t) (update q ep (q ep ++ [t])) := by
  have hq := h.queueIs ep
  refine ⟨fun e => ?_, fun e e' u hu hu' => ?_⟩
  · by_cases htail : (k.endpoint ep).queueTail = 0
    · have hnil : q ep = [] := by
        by_contra hne
        exact hq.ne_null _ (hq.tail_mem hne) htail
      rw [enqueue_empty htail]
      by_cases he : e = ep
      · subst he
        simp only [QueueIs, updEp_endpoint, if_true, update_self, hnil, List.nil_append]
        exact IsQueue.enqueue_nil ht (by simp [nextOf])
      · simp only [QueueIs, updEp_endpoint, if_neg he, updTcb_endpoint, update_of_ne he]
        refine (h.queueIs e).congr fun u hu => ?_
        have hut : u ≠ t := fun heq => hfree e (heq ▸ hu)
        simp [nextOf, hut]
    · have hne : q ep ≠ [] := fun hnil =>
        htail (by simpa [QueueIs, hnil] using (hnil ▸ hq).tail_eq)
      have htmem := hq.tail_mem hne
      have htt : (k.endpoint ep).queueTail ≠ t := fun heq => hfree ep (heq ▸ htmem)
      rw [enqueue_nonempty htail]
      by_cases he : e = ep
      · subst he
        simp only [QueueIs, updEp_endpoint, if_true, update_self, updTcb_endpoint]
        refine hq.enqueue_cons hne ht (hfree e) ?_ ?_ fun u hu hut => ?_
        · simp [nextOf, htt.symm]
        · simp [nextOf]
        · have hut' : u ≠ t := fun heq => hfree e (heq ▸ hu)
          simp [nextOf, hut, hut']
      · simp only [QueueIs, updEp_endpoint, if_neg he, updTcb_endpoint, update_of_ne he]
        refine (h.queueIs e).congr fun u hu => ?_
        have hut : u ≠ t := fun heq => hfree e (heq ▸ hu)
        have hutail : u ≠ (k.endpoint ep).queueTail :=
          fun heq => he (h.disjoint e ep _ (heq ▸ hu) htmem)
        simp [nextOf, hut, hutail]
  · -- the new TCB was on no queue, so membership elsewhere is unchanged
    simp only [update_apply] at hu hu'
    split at hu <;> split at hu'
    · next h1 h2 => rw [h1, h2]
    · grind [h.disjoint]
    · next h1 h2 =>
      rcases List.mem_append.mp hu' with hu' | hu'
      · exact h2 ▸ h.disjoint e ep u hu hu'
      · exact absurd (List.mem_singleton.mp hu' ▸ hu) (hfree e)
    · exact h.disjoint e e' u hu hu'

/-! ## Dequeue -/

/-- The kernel after the head of `ep`'s queue is unlinked. -/
@[simps! -fullyApplied reply pending sched threads]
def unlinkHead (k : Kernel) (ep : Kva) : Kernel :=
  let head := (k.endpoint ep).queueHead
  let next := (k.tcb head).ipcQueueNext
  (k.updTcb head fun t => { t with ipcQueueNext := 0 }).updEp ep fun e =>
    { e with queueHead := next, queueTail := if next = 0 then 0 else e.queueTail }

@[simp] theorem unlinkHead_tcb : ((k.unlinkHead ep).tcb u).toTcbBody = (k.tcb u).toTcbBody := by
  by_cases hu : u = (k.endpoint ep).queueHead <;> simp [unlinkHead, hu]

@[simp] theorem unlinkHead_endpoint_state :
    ((k.unlinkHead ep).endpoint e).state = (k.endpoint e).state := by
  by_cases he : e = ep <;> simp [unlinkHead, he]

@[simp] theorem unlinkHead_endpoint_readinessWaiter :
    ((k.unlinkHead ep).endpoint e).readinessWaiter = (k.endpoint e).readinessWaiter := by
  by_cases he : e = ep <;> simp [unlinkHead, he]

/-- Popping a non-empty queue. -/
theorem Queues.dequeue {x : Kva} {l : List Kva} (h : Queues k q) (hep : q ep = x :: l) :
    k.dequeue ep = some (x, k.unlinkHead ep) ∧
      Queues (k.unlinkHead ep) (update q ep l) := by
  have hq : k.QueueIs ep (x :: l) := hep ▸ h.queueIs ep
  have hhead : (k.endpoint ep).queueHead = x := hq.head_cons
  have hx0 : x ≠ 0 := hq.ne_null x List.mem_cons_self
  have hxl : x ∉ l := (List.nodup_cons.mp hq.nodup).1
  have hxep : x ∈ q ep := by rw [hep]; exact List.mem_cons_self
  refine ⟨by simp [Kernel.dequeue, unlinkHead, hhead, hx0], fun e => ?_, fun e e' u hu hu' => ?_⟩
  · by_cases he : e = ep
    · subst he
      simp only [QueueIs, unlinkHead, updEp_endpoint, if_true, update_self,
        updTcb_endpoint, hhead]
      refine IsQueue.dequeue hq fun u hu => ?_
      have hux : u ≠ x := fun heq => hxl (heq ▸ hu)
      simp [nextOf, hux]
    · simp only [QueueIs, unlinkHead, updEp_endpoint, if_neg he, updTcb_endpoint,
        update_of_ne he, hhead]
      refine (h.queueIs e).congr fun u hu => ?_
      have hux : u ≠ x := fun heq => he (h.disjoint e ep x (heq ▸ hu) hxep)
      simp [nextOf, hux]
  · grind [h.disjoint]

end Kernel

end Lockjaw.Ipc
