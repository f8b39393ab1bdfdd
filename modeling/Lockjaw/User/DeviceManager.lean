/-
  Lockjaw.User.DeviceManager

  The device manager: the table that `parse_fdt_into` makes of the device tree,
  the reservation of the kernel's UART, and the requests to claim, probe and
  release devices.

  The kernel takes part twice in a claim, when the MMIO page is registered and
  when its handle is exported into the caller's table; `Answers` holds what it
  says.  A caller token is not 0: the kernel mints none and refuses a call
  through a handle without a token.  The clock requests of the same loop have a
  table of their own and are left out.

  `Handles` says once what a request can do.  `System` adds the history a claim
  of exclusivity is about: who made the claim on each entry, and which pages
  were exported.
-/

import Lockjaw.Fdt.RoundTrip
import Lockjaw.User.BlockServer

namespace Lockjaw.User.DeviceManager

open Fdt Function List

/-! ## The requests -/

def pl011Hash : UInt64 := compatibleHash (ascii "arm,pl011")

def claimOk : UInt64 := 0
def claimErr : UInt64 := 1

def probeOk : UInt64 := 0
def probeEnd : UInt64 := 1
def probeClaimed : UInt64 := 2

/-- A caller token. -/
abbrev Token := { t : UInt64 // t ≠ 0 }

inductive Request where
  | claimDevice (hash : UInt64)
  | probeDevice (hash : UInt64) (index : Nat)
  | claimByAddr (mmioAddr : UInt64)
  | releaseByAddr (mmioAddr : UInt64)
  deriving DecidableEq, Repr

/-- What `sys_register_device_page` and `sys_export_handle` return to a claim. -/
structure Answers where
  registered : Option UInt64
  exported : Option UInt64
  deriving DecidableEq, Repr

structure Event where
  caller : Token
  request : Request
  answers : Answers

/-- The device table and the MMIO handles the manager keeps open itself. -/
structure Manager where
  devices : List DeviceInfo
  ownHandles : List UInt64

/-- The answer to a request: the reply, the entry claimed or released by it, and
    the physical address whose page was exported. -/
structure Handled where
  reply : Words
  claimed : Option Nat := none
  released : Option Nat := none
  exported : Option UInt64 := none
  next : Manager

/-- The first entry satisfying `p`, with its index. -/
def firstDevice (p : DeviceInfo → Bool) (devices : List DeviceInfo) : Option (DeviceInfo × Nat) :=
  devices.zipIdx.find? fun x => p x.1

def packClockRef (controllerPhandle clockId : UInt32) : UInt64 :=
  (controllerPhandle.toUInt64 <<< 32) ||| clockId.toUInt64

/-- The first clock of a device for the claim reply, 0 if it has none. -/
def clockRefWord (dev : DeviceInfo) : UInt64 :=
  match dev.clocks.head? with
  | some r => packClockRef r.controllerPhandle r.clockId
  | none => 0

/-- Registering, exporting and marking the entry found, shared by both claims.
    Only one of them closes the manager's own handle afterwards. -/
def grant (m : Manager) (ev : Event) (closeOwn : Bool) : Option (DeviceInfo × Nat) → Handled
  | none => { reply := ⟨claimErr, 0, 0, 0⟩, next := m }
  | some (dev, i) =>
    match ev.answers.registered, ev.answers.exported with
    | some mmioPs, some idx =>
      { reply := ⟨claimOk, idx, dev.intid.toUInt64, clockRefWord dev⟩
        claimed := some i
        exported := some dev.mmioAddr
        next :=
          { devices := m.devices.set i { dev with claimed := true, claimToken := ev.caller.1 }
            ownHandles := if closeOwn then m.ownHandles else mmioPs :: m.ownHandles } }
    | _, _ => { reply := ⟨claimErr, 0, 0, 0⟩, next := m }

def handleClaimDevice (m : Manager) (ev : Event) (hash : UInt64) : Handled :=
  grant m ev false (firstDevice (fun dev => dev.hasCompat hash && !dev.claimed) m.devices)

def handleClaimByAddr (m : Manager) (ev : Event) (mmioAddr : UInt64) : Handled :=
  grant m ev true (firstDevice (fun dev => dev.mmioAddr == mmioAddr && !dev.claimed) m.devices)

def handleProbeDevice (m : Manager) (hash : UInt64) (index : Nat) : Handled :=
  match (m.devices.filter (·.hasCompat hash))[index]? with
  | none => { reply := ⟨probeEnd, 0, 0, 0⟩, next := m }
  | some dev =>
    { reply := ⟨if dev.claimed then probeClaimed else probeOk, dev.mmioAddr,
        dev.intid.toUInt64, 0⟩
      next := m }

def handleReleaseByAddr (m : Manager) (ev : Event) (mmioAddr : UInt64) : Handled :=
  match firstDevice (fun dev => dev.mmioAddr == mmioAddr && dev.claimed) m.devices with
  | none => { reply := ⟨claimErr, 0, 0, 0⟩, next := m }
  | some (dev, i) =>
    if dev.claimToken ≠ ev.caller.1 then { reply := ⟨claimErr, 0, 0, 0⟩, next := m }
    else
      { reply := ⟨claimOk, 0, 0, 0⟩
        released := some i
        next := { m with
          devices := m.devices.set i { dev with claimed := false, claimToken := 0 } } }

def handle (m : Manager) (ev : Event) : Handled :=
  match ev.request with
  | .claimDevice hash => handleClaimDevice m ev hash
  | .probeDevice hash index => handleProbeDevice m hash index
  | .claimByAddr mmioAddr => handleClaimByAddr m ev mmioAddr
  | .releaseByAddr mmioAddr => handleReleaseByAddr m ev mmioAddr

/-- The kernel's UART: the first PL011 of the table. -/
def kernelUart (devices : List DeviceInfo) : Option (DeviceInfo × Nat) :=
  firstDevice (·.hasCompat pl011Hash) devices

/-- The manager when it starts to serve: the kernel's UART counts as claimed. -/
def boot (devices : List DeviceInfo) : Manager where
  devices := match kernelUart devices with
    | none => devices
    | some (dev, i) => devices.set i { dev with claimed := true }
  ownHandles := []

/-! ## What a request can do -/

variable {p : DeviceInfo → Bool} {data : Bytes} {devices : List DeviceInfo}

theorem firstDevice_some {dev : DeviceInfo}
    {i : Nat} (h : firstDevice p devices = some (dev, i)) :
    devices[i]? = some dev ∧ p dev = true := by
  have hp := find?_some (p := fun x : DeviceInfo × Nat => p x.1) h
  exact ⟨mem_zipIdx_iff_getElem?.mp (mem_of_find?_eq_some h), hp⟩

theorem firstDevice_isSome {dev : DeviceInfo}
    {i : Nat} (h : devices[i]? = some dev) (hp : p dev = true) :
    ∃ x, firstDevice p devices = some x := by
  cases hf : firstDevice p devices with
  | some x => exact ⟨x, rfl⟩
  | none =>
    have hmem : (dev, i) ∈ devices.zipIdx := mem_zipIdx_iff_getElem?.mpr h
    exact absurd hp (find?_eq_none.mp hf _ hmem)

/-- The three effects of a request on the table. -/
inductive Handles (m : Manager) (ev : Event) (h : Handled) : Prop where
  | keep (hdev : h.next.devices = m.devices) (hclaimed : h.claimed = none)
      (hreleased : h.released = none) (hexported : h.exported = none)
      (herr : (∀ hash index, ev.request ≠ .probeDevice hash index) → h.reply.w0 = claimErr)
  | claim (i : Nat) (dev : DeviceInfo) (hget : m.devices[i]? = some dev)
      (hfree : dev.claimed = false)
      (hdev : h.next.devices =
        m.devices.set i { dev with claimed := true, claimToken := ev.caller.1 })
      (hclaimed : h.claimed = some i) (hreleased : h.released = none)
      (hexported : h.exported = some dev.mmioAddr) (hok : h.reply.w0 = claimOk)
      (hreq : ∀ a, ev.request ≠ .releaseByAddr a)
  | release (i : Nat) (dev : DeviceInfo) (hget : m.devices[i]? = some dev)
      (hreq : ev.request = .releaseByAddr dev.mmioAddr) (hheld : dev.claimed = true)
      (htoken : dev.claimToken = ev.caller.1)
      (hdev : h.next.devices = m.devices.set i { dev with claimed := false, claimToken := 0 })
      (hclaimed : h.claimed = none) (hreleased : h.released = some i)
      (hexported : h.exported = none) (hok : h.reply.w0 = claimOk)

theorem grant_handles {m : Manager} {ev : Event} {closeOwn : Bool}
    (hreq : ∀ a, ev.request ≠ .releaseByAddr a) (hp : ∀ dev, p dev = true → dev.claimed = false) :
    Handles m ev (grant m ev closeOwn (firstDevice p m.devices)) := by
  cases hf : firstDevice p m.devices with
  | none => exact .keep rfl rfl rfl rfl fun _ => rfl
  | some x =>
    obtain ⟨dev, i⟩ := x
    obtain ⟨hget, hdev⟩ := firstDevice_some hf
    unfold grant
    cases ev.answers.registered with
    | none => exact .keep rfl rfl rfl rfl fun _ => rfl
    | some mmioPs =>
      cases ev.answers.exported with
      | none => exact .keep rfl rfl rfl rfl fun _ => rfl
      | some idx => exact .claim i dev hget (hp dev hdev) rfl rfl rfl rfl rfl hreq

theorem handle_handles (m : Manager) (ev : Event) : Handles m ev (handle m ev) := by
  unfold handle
  cases hr : ev.request with
  | claimDevice hash =>
    exact grant_handles (by simp [hr]) fun dev h => by simp_all
  | probeDevice hash index =>
    have hprobe : ¬ ∀ hash index, ev.request ≠ .probeDevice hash index :=
      fun h => h hash index hr
    unfold handleProbeDevice
    dsimp only
    split
    · exact .keep rfl rfl rfl rfl fun h => absurd h hprobe
    · exact .keep rfl rfl rfl rfl fun h => absurd h hprobe
  | claimByAddr mmioAddr =>
    exact grant_handles (by simp [hr]) fun dev h => by simp_all
  | releaseByAddr mmioAddr =>
    unfold handleReleaseByAddr
    dsimp only
    split
    · exact .keep rfl rfl rfl rfl fun _ => rfl
    · rename_i dev i hf
      obtain ⟨hget, hp⟩ := firstDevice_some hf
      simp only [Bool.and_eq_true, beq_iff_eq] at hp
      by_cases htok : dev.claimToken ≠ ev.caller.1
      · rw [if_pos htok]
        exact .keep rfl rfl rfl rfl fun _ => rfl
      · rw [if_neg htok]
        exact .release i dev hget (hp.1 ▸ hr) hp.2 (not_not.mp htok) rfl rfl rfl rfl rfl

/-! ## Tables of a parsed blob -/

/-- The parser leaves every device free. -/
def AllFree (devices : List DeviceInfo) : Prop :=
  ∀ dev ∈ devices, dev.claimed = false ∧ dev.claimToken = 0

section Map

variable {β : Type} {l : List DeviceInfo} {d dev : DeviceInfo} {i : Nat} (f : DeviceInfo → β)

theorem map_set_same (hget : l[i]? = some dev) (hd : f d = f dev) :
    (l.set i d).map f = l.map f := by
  have hmap : (l.map f)[i]? = some (f dev) := by
    rw [getElem?_map, hget]
    rfl
  obtain ⟨hlt, heq⟩ := List.getElem?_eq_some_iff.mp hmap
  rw [map_set, hd, ← heq]
  exact set_getElem_self hlt

/-- The second pass of the parser changes nothing but `clocks`. -/
theorem resolveAll_map (hf : ∀ dev clocks, f { dev with clocks := clocks } = f dev)
    {providers : List ClockProvider} {pending : List PendingClocks}
    {devices result : List DeviceInfo}
    (h : resolveAll data providers pending devices = .ok result) :
    result.map f = devices.map f := by
  induction pending generalizing devices with
  | nil =>
    cases h
    rfl
  | cons p pending ih =>
    rw [resolveAll] at h
    cases hget : devices[p.deviceIdx]? with
    | none => rw [hget] at h; cases h
    | some dev =>
      simp only [hget, resolveClocksFor, bind, Except.bind] at h
      cases hloop : resolveClocksFrom data providers
          (p.bytesStart.toNat + p.bytesLen.toNat) (maxClockRefs - dev.clocks.length)
          p.bytesStart.toNat with
      | error e => rw [hloop] at h; cases h
      | ok refs =>
        rw [hloop] at h
        exact (ih h).trans (map_set_same f hget (hf dev _))

end Map

theorem allFree_collectNode {acc : Collected} (h : AllFree acc.devices) (name : Bytes)
    (s : NodeState) : AllFree (collectNode acc name s).devices := by
  have hprov : (collectProvider s acc).devices = acc.devices := by
    unfold collectProvider
    split <;> rfl
  simp only [collectNode, collectDevice, hprov]
  split
  · intro dev hdev
    rcases mem_append.mp hdev with hdev | hdev
    · exact h dev hdev
    · rw [mem_singleton.mp hdev]
      exact ⟨rfl, rfl⟩
  · rw [hprov]
    exact h

/-- A parse is a walk over the nodes of the blob and a pass over the clocks. -/
theorem parse_cases (h : parseFdtInto data = .ok devices) :
    ∃ nodes, deliveredNodes data = .ok nodes ∧
      resolveAll data (deliver collectNode {} nodes).providers
        (deliver collectNode {} nodes).pending (deliver collectNode {} nodes).devices =
          .ok devices := by
  obtain ⟨o, ho, h⟩ := bind_ok h
  obtain ⟨acc, hwalk, h⟩ := bind_ok h
  rw [walkFdt_eq_fold] at hwalk
  unfold deliveredNodes
  rw [ho]
  cases hn : walkFdt data o.2 record o.1 [] with
  | error e => rw [hn] at hwalk; cases hwalk
  | ok nodes =>
    rw [hn] at hwalk
    cases hwalk
    exact ⟨nodes, hn, h⟩

theorem allFree_parse
    (h : parseFdtInto data = .ok devices) : AllFree devices := by
  obtain ⟨nodes, -, h⟩ := parse_cases h
  have hfree : AllFree (deliver collectNode {} nodes).devices :=
    foldlRecOn nodes _ (motive := fun c : Collected => AllFree c.devices)
      (fun dev hdev => nomatch hdev) fun c hc x _ => allFree_collectNode hc x.1 x.2
  have hmap := resolveAll_map (fun d => (d.claimed, d.claimToken)) (fun _ _ => rfl) h
  intro dev hdev
  have hmem := mem_map_of_mem (f := fun d => (d.claimed, d.claimToken)) hdev
  rw [hmap] at hmem
  obtain ⟨d, hd, heq⟩ := mem_map.mp hmem
  simp only [Prod.mk.injEq] at heq
  rw [← heq.1, ← heq.2]
  exact hfree d hd

/-! ## Runs -/

def pageOf (addr : UInt64) : UInt64 := addr / 4096

/-- The manager with its history: who made the claim on each entry that stands,
    and every exported page with its receiver. -/
structure System where
  manager : Manager
  holders : Nat → Option Token
  exports : List (Token × UInt64)

def System.step (S : System) (ev : Event) : System :=
  let h := handle S.manager ev
  { manager := h.next
    holders := match h.claimed, h.released with
      | some i, _ => update S.holders i (some ev.caller)
      | none, some i => update S.holders i none
      | none, none => S.holders
    exports := match h.exported with
      | some addr => (ev.caller, pageOf addr) :: S.exports
      | none => S.exports }

def System.start (devices : List DeviceInfo) : System where
  manager := boot devices
  holders := fun _ => none
  exports := []

def System.run (devices : List DeviceInfo) (events : List Event) : System :=
  events.foldl step (start devices)

/-- Whoever the table names as the holder of an entry in the page; 0 stands for the kernel. -/
def System.Claimant (S : System) (page token : UInt64) : Prop :=
  ∃ dev ∈ S.manager.devices, dev.claimed = true ∧ pageOf dev.mmioAddr = page ∧
    dev.claimToken = token

/-- Exclusive ownership in a state: one claimant for each page, the UART's page
    not exported, and what the next request may do. -/
structure System.Exclusive (devices : List DeviceInfo) (S : System) : Prop where
  one : ∀ page token token', S.Claimant page token → S.Claimant page token' → token = token'
  uart : ∀ uart i, kernelUart devices = some (uart, i) →
    ∀ x ∈ S.exports, x.2 ≠ pageOf uart.mmioAddr
  release : ∀ ev addr, ev.request = .releaseByAddr addr →
    (handle S.manager ev).reply.w0 = claimOk →
      ∃ i, (handle S.manager ev).released = some i ∧ S.holders i = some ev.caller
  err : ∀ ev, (handle S.manager ev).reply.w0 = claimErr →
    (handle S.manager ev).next.devices = S.manager.devices

/-- The devices of the table lie in different pages. -/
def PagesApart (devices : List DeviceInfo) : Prop :=
  (devices.map fun dev => pageOf dev.mmioAddr).Nodup

/-! ## The invariant of every run -/

/-- What the table says about entry `i`. -/
inductive Entry (devices : List DeviceInfo) (S : System) (i : Nat) (dev : DeviceInfo) : Prop where
  | kernel (uart : DeviceInfo) (huart : kernelUart devices = some (uart, i))
      (hclaimed : dev.claimed = true) (htoken : dev.claimToken = 0) (hholder : S.holders i = none)
  | held (token : Token) (huart : ∀ uart, kernelUart devices ≠ some (uart, i))
      (hclaimed : dev.claimed = true) (htoken : dev.claimToken = token.1)
      (hholder : S.holders i = some token)
  | free (huart : ∀ uart, kernelUart devices ≠ some (uart, i)) (hclaimed : dev.claimed = false)

structure System.Inv (devices : List DeviceInfo) (S : System) : Prop where
  addrs : S.manager.devices.map (·.mmioAddr) = devices.map (·.mmioAddr)
  entry : ∀ i dev, S.manager.devices[i]? = some dev → Entry devices S i dev
  exports : ∀ x ∈ S.exports, ∃ i dev, devices[i]? = some dev ∧
    (∀ uart, kernelUart devices ≠ some (uart, i)) ∧ x.2 = pageOf dev.mmioAddr

section Invariant

variable {devices : List DeviceInfo} {S S' : System} {i j : Nat} {dev : DeviceInfo}

theorem Entry.congr (h : Entry devices S i dev) (hholder : S'.holders i = S.holders i) :
    Entry devices S' i dev := by
  cases h with
  | kernel uart huart hclaimed htoken hnone =>
    exact .kernel uart huart hclaimed htoken (hholder.trans hnone)
  | held token huart hclaimed htoken hsome =>
    exact .held token huart hclaimed htoken (hholder.trans hsome)
  | free huart hclaimed => exact .free huart hclaimed

/-- The addresses of the table never change. -/
theorem System.Inv.addr (h : S.Inv devices) (hget : S.manager.devices[i]? = some dev) :
    ∃ dev0, devices[i]? = some dev0 ∧ dev0.mmioAddr = dev.mmioAddr := by
  have hmap := congrArg (·[i]?) h.addrs
  grind

theorem System.inv_start (hfree : AllFree devices) : (start devices).Inv devices := by
  cases hu : kernelUart devices with
  | none =>
    have hboot : (start devices).manager.devices = devices := by
      simp only [start, boot, hu]
    refine ⟨by rw [hboot], fun i dev hget => ?_, fun x hx => nomatch hx⟩
    rw [hboot] at hget
    exact .free (fun uart h => by rw [hu] at h; cases h)
      (hfree dev (mem_of_getElem? hget)).1
  | some x =>
    obtain ⟨uart, k⟩ := x
    have hk := (firstDevice_some hu).1
    have hboot : (start devices).manager.devices =
        devices.set k { uart with claimed := true } := by
      simp only [start, boot, hu]
    refine ⟨by rw [hboot]; exact map_set_same (·.mmioAddr) hk rfl, fun i dev hget => ?_,
      fun x hx => nomatch hx⟩
    rw [hboot] at hget
    by_cases hik : k = i
    · subst hik
      rw [List.getElem?_set_self (List.getElem?_eq_some_iff.mp hk).1] at hget
      cases hget
      exact .kernel uart hu rfl (hfree uart (mem_of_getElem? hk)).2 rfl
    · rw [getElem?_set_ne hik] at hget
      refine .free (fun uart' h => ?_) (hfree dev (mem_of_getElem? hget)).1
      rw [hu] at h
      cases h
      exact hik rfl

/-- Entry `i` and its holder change; the address of the device and the other entries stay. -/
theorem System.Inv.set (h : S.Inv devices) (hget : S.manager.devices[i]? = some dev)
    {dev' : DeviceInfo} (hdev : S'.manager.devices = S.manager.devices.set i dev')
    (haddr : dev'.mmioAddr = dev.mmioAddr) {holder : Option Token}
    (hholders : S'.holders = update S.holders i holder) (hentry : Entry devices S' i dev')
    (hexports : ∀ x ∈ S'.exports, ∃ i dev, devices[i]? = some dev ∧
      (∀ uart, kernelUart devices ≠ some (uart, i)) ∧ x.2 = pageOf dev.mmioAddr) :
    S'.Inv devices := by
  refine ⟨?_, fun j d hj => ?_, hexports⟩
  · rw [hdev]
    exact (map_set_same (·.mmioAddr) hget haddr).trans h.addrs
  · rw [hdev] at hj
    by_cases hij : i = j
    · subst hij
      rw [List.getElem?_set_self (List.getElem?_eq_some_iff.mp hget).1] at hj
      cases hj
      exact hentry
    · rw [getElem?_set_ne hij] at hj
      refine (h.entry j d hj).congr ?_
      rw [hholders, update_of_ne (Ne.symm hij)]

/-- One request keeps the invariant. -/
theorem System.Inv.step (h : S.Inv devices) (ev : Event) : (S.step ev).Inv devices := by
  cases handle_handles S.manager ev with
  | keep hdev hclaimed hreleased hexported herr =>
    have hS : S.step ev = { S with manager := (handle S.manager ev).next } := by
      simp only [System.step, hclaimed, hreleased, hexported]
    rw [hS]
    exact ⟨by rw [hdev]; exact h.addrs,
      fun i dev hget => (h.entry i dev (hdev ▸ hget)).congr rfl, h.exports⟩
  | claim i dev hget hfree hdev hclaimed hreleased hexported hok hreq =>
    -- the kernel's console and a device that is held are both marked as claimed
    have hnot : ∀ uart, kernelUart devices ≠ some (uart, i) := by
      cases h.entry i dev hget with
      | kernel uart huart hc => rw [hfree] at hc; cases hc
      | held token huart hc => rw [hfree] at hc; cases hc
      | free huart hc => exact huart
    have hS : S.step ev = ⟨(handle S.manager ev).next,
        update S.holders i (some ev.caller),
        (ev.caller, pageOf dev.mmioAddr) :: S.exports⟩ := by
      simp only [System.step, hclaimed, hexported]
    rw [hS]
    refine h.set hget hdev rfl rfl (.held ev.caller hnot rfl rfl (update_self ..)) fun x hx => ?_
    grind [h.addr, h.exports]
  | release i dev hget hreq hheld htoken hdev hclaimed hreleased hexported hok =>
    -- the console's token is 0, which is no caller's
    have hnot : ∀ uart, kernelUart devices ≠ some (uart, i) := by
      cases h.entry i dev hget with
      | kernel uart huart hc ht => exact absurd (htoken.symm.trans ht) ev.caller.2
      | held token huart hc => exact huart
      | free huart hc => rw [hheld] at hc; cases hc
    have hS : S.step ev = ⟨(handle S.manager ev).next, update S.holders i none,
        S.exports⟩ := by
      simp only [System.step, hclaimed, hreleased, hexported]
    rw [hS]
    exact h.set hget hdev rfl rfl (.free hnot rfl) h.exports

theorem System.inv_run (hfree : AllFree devices) (events : List Event) :
    (run devices events).Inv devices := by
  unfold run
  induction events using reverseRecOn with
  | nil => exact inv_start hfree
  | append_singleton events ev ih =>
    rw [foldl_append]
    exact ih.step ev

variable {ev : Event}

/-- A release that succeeds is by the token that made the claim. -/
theorem System.Inv.release (h : S.Inv devices) {addr : UInt64}
    (hreq : ev.request = .releaseByAddr addr) (hok : (handle S.manager ev).reply.w0 = claimOk) :
    ∃ i, (handle S.manager ev).released = some i ∧ S.holders i = some ev.caller := by
  cases handle_handles S.manager ev with
  | keep _ _ _ _ herr =>
    rw [herr (by rw [hreq]; exact fun _ _ => nofun)] at hok
    cases hok
  | claim i dev _ _ _ _ _ _ _ hne => exact absurd hreq (hne addr)
  | release i dev hget _ hheld htoken _ _ hreleased _ _ =>
    refine ⟨i, hreleased, ?_⟩
    cases h.entry i dev hget with
    | kernel uart _ _ ht => exact absurd (htoken.symm.trans ht) ev.caller.2
    | held token _ _ ht hholder =>
      rw [hholder, Subtype.ext (ht.symm.trans htoken)]
    | free _ hc => rw [hheld] at hc; cases hc

/-- An error reply leaves the table as it was. -/
theorem devices_of_claimErr {m : Manager} (h : (handle m ev).reply.w0 = claimErr) :
    (handle m ev).next.devices = m.devices := by
  cases handle_handles m ev with
  | keep hdev => exact hdev
  | claim i dev _ _ _ _ _ _ hok =>
    rw [hok] at h
    cases h
  | release i dev _ _ _ _ _ _ _ _ hok =>
    rw [hok] at h
    cases h

theorem PagesApart.eq {dev' : DeviceInfo} (h : PagesApart devices) (hi : devices[i]? = some dev)
    (hj : devices[j]? = some dev') (hpage : pageOf dev.mmioAddr = pageOf dev'.mmioAddr) :
    i = j := by
  obtain ⟨hlt, hget⟩ := List.getElem?_eq_some_iff.mp hi
  obtain ⟨hlt', hget'⟩ := List.getElem?_eq_some_iff.mp hj
  have hi' : i < (devices.map fun dev => pageOf dev.mmioAddr).length := by rwa [length_map]
  have hj' : j < (devices.map fun dev => pageOf dev.mmioAddr).length := by rwa [length_map]
  have heq : (devices.map fun dev => pageOf dev.mmioAddr)[i] =
      (devices.map fun dev => pageOf dev.mmioAddr)[j] := by
    rw [getElem_map, getElem_map, hget, hget', hpage]
  exact (List.Nodup.getElem_inj_iff h).mp heq

/-- With the devices in different pages every state is exclusive. -/
theorem System.Inv.exclusive (h : S.Inv devices) (hapart : PagesApart devices) :
    S.Exclusive devices where
  one := by
    rintro page token token' ⟨dev, hmem, -, hpage, rfl⟩ ⟨dev', hmem', -, hpage', rfl⟩
    grind [h.addr, hapart.eq, getElem?_of_mem]
  uart := by
    intro uart i huart x hx hpage
    obtain ⟨j, dev, hj, hnot, hx⟩ := h.exports x hx
    have hij : j = i := hapart.eq hj (firstDevice_some huart).1 (hx.symm.trans hpage)
    exact hnot uart (hij ▸ huart)
  release := fun ev addr hreq hok => h.release hreq hok
  err := fun ev => devices_of_claimErr

end Invariant

/-! ## Devices that share a page -/

section Shared

variable {devices : List DeviceInfo} {S : System} {i j : Nat} {dev dev' : DeviceInfo}

/-- A claim by address that the kernel goes along with. -/
def claimAt (caller : Token) (addr : UInt64) : Event where
  caller := caller
  request := .claimByAddr addr
  answers := ⟨some 0, some 0⟩

/-- A free device's address can be claimed; some free entry with that address is taken. -/
theorem System.step_claimAt (caller : Token) (hget : S.manager.devices[i]? = some dev)
    (hfree : dev.claimed = false) :
    ∃ k d, S.manager.devices[k]? = some d ∧ d.claimed = false ∧ d.mmioAddr = dev.mmioAddr ∧
      (S.step (claimAt caller dev.mmioAddr)).manager.devices =
        S.manager.devices.set k { d with claimed := true, claimToken := caller.1 } ∧
      (S.step (claimAt caller dev.mmioAddr)).exports =
        (caller, pageOf dev.mmioAddr) :: S.exports := by
  obtain ⟨⟨d, k⟩, hf⟩ := firstDevice_isSome
    (p := fun x => x.mmioAddr == dev.mmioAddr && !x.claimed) hget (by simp [hfree])
  obtain ⟨hk, hp⟩ := firstDevice_some hf
  simp only [Bool.and_eq_true, beq_iff_eq, Bool.not_eq_true'] at hp
  refine ⟨k, d, hk, hp.2, hp.1, ?_, ?_⟩
  · simp only [step, handle, claimAt, handleClaimByAddr, hf, grant]
  · simp only [step, handle, claimAt, handleClaimByAddr, hf, grant, hp.1]

/-- An entry other than the UART is free when the manager starts. -/
theorem System.start_free (hfree : AllFree devices) (hget : devices[i]? = some dev)
    (hnot : ∀ uart, kernelUart devices ≠ some (uart, i)) :
    (start devices).manager.devices[i]? = some dev ∧ dev.claimed = false := by
  refine ⟨?_, (hfree dev (mem_of_getElem? hget)).1⟩
  grind [start, boot]

/-- The page of any other device than the kernel's UART is exported to the first caller. -/
theorem page_exported (hfree : AllFree devices) {uart : DeviceInfo}
    (huart : kernelUart devices = some (uart, j)) (hget : devices[i]? = some dev) (hij : i ≠ j)
    (caller : Token) : (caller, pageOf dev.mmioAddr) ∈
      (System.run devices [claimAt caller dev.mmioAddr]).exports := by
  have hnot : ∀ u, kernelUart devices ≠ some (u, i) := by
    intro u hu
    rw [huart] at hu
    cases hu
    exact hij rfl
  obtain ⟨hstart, hclaimed⟩ := System.start_free hfree hget hnot
  obtain ⟨k, d, -, -, -, -, hexp⟩ := System.step_claimAt caller hstart hclaimed
  show _ ∈ ((System.start devices).step _).exports
  rw [hexp]
  exact mem_cons_self

/-- Two devices in one page are claimed by different callers. -/
theorem shared_page_claimed_twice (hfree : AllFree devices) (hi : devices[i]? = some dev)
    (hj : devices[j]? = some dev') (hij : i ≠ j)
    (hpage : pageOf dev.mmioAddr = pageOf dev'.mmioAddr)
    (hnoti : ∀ u, kernelUart devices ≠ some (u, i)) (hnotj : ∀ u, kernelUart devices ≠ some (u, j))
    (t t' : Token) (htt : t ≠ t') :
    ¬ (System.run devices [claimAt t dev.mmioAddr, claimAt t' dev'.mmioAddr]).Exclusive
      devices := by
  intro hex
  obtain ⟨hsi, hci⟩ := System.start_free hfree hi hnoti
  obtain ⟨hsj, hcj⟩ := System.start_free hfree hj hnotj
  obtain ⟨k, d, hk, -, hkaddr, hdev, -⟩ := System.step_claimAt t hsi hci
  generalize hS1 : (System.start devices).step (claimAt t dev.mmioAddr) = S₁ at hdev
  have hrun : System.run devices [claimAt t dev.mmioAddr, claimAt t' dev'.mmioAddr] =
      S₁.step (claimAt t' dev'.mmioAddr) := by
    rw [← hS1]
    rfl
  rw [hrun] at hex
  -- the first claim took one entry; another one with the second address is still free
  have hother : ∃ (l : Nat) (d' : DeviceInfo),
      S₁.manager.devices[l]? = some d' ∧ d'.claimed = false ∧
      d'.mmioAddr = dev'.mmioAddr := by
    by_cases hkj : k = j
    · refine ⟨i, dev, ?_, hci, ?_⟩
      all_goals grind
    · refine ⟨j, dev', ?_, hcj, rfl⟩
      rw [hdev, List.getElem?_set_ne hkj]
      exact hsj
  obtain ⟨l, d', hl, hlc, hladdr⟩ := hother
  obtain ⟨k', e, hk', hec, headdr, hdev', -⟩ := System.step_claimAt t' hl hlc
  rw [hladdr] at hdev' headdr
  have hklt := (List.getElem?_eq_some_iff.mp hk).1
  have hkget : S₁.manager.devices[k]? =
      some { d with claimed := true, claimToken := t.1 } := by
    rw [hdev, List.getElem?_set_self hklt]
  have hne : k' ≠ k := by
    rintro rfl
    rw [hkget] at hk'
    cases hk'
    cases hec
  have hfirst : (S₁.step (claimAt t' dev'.mmioAddr)).Claimant (pageOf dev.mmioAddr) t.1 := by
    refine ⟨{ d with claimed := true, claimToken := t.1 }, ?_, rfl, by rw [← hkaddr], rfl⟩
    rw [hdev']
    refine List.mem_of_getElem? (i := k) ?_
    rw [List.getElem?_set_ne hne]
    exact hkget
  have hsecond : (S₁.step (claimAt t' dev'.mmioAddr)).Claimant (pageOf dev.mmioAddr) t'.1 := by
    refine ⟨{ e with claimed := true, claimToken := t'.1 }, ?_, rfl, ?_, rfl⟩
    · rw [hdev']
      exact List.mem_set (List.getElem?_eq_some_iff.mp hk').1 _
    · rw [hpage, ← headdr]
  exact htt (Subtype.ext (hex.one _ _ _ hfirst hsecond))

end Shared

/-- Ownership is exclusive in every state of every run exactly if no two devices
    of the table lie in one page. -/
theorem ownership_exclusive_iff {data : Bytes} {devices : List DeviceInfo}
    (hparse : parseFdtInto data = .ok devices) :
    (∀ events, (System.run devices events).Exclusive devices) ↔ PagesApart devices := by
  have hfree := allFree_parse hparse
  refine ⟨fun h => ?_, fun h events => (System.inv_run hfree events).exclusive h⟩
  refine nodup_iff_getElem?_ne_getElem?.mpr fun i j hij hlt heq => ?_
  rw [length_map] at hlt
  obtain ⟨dev', hj⟩ : ∃ d, devices[j]? = some d := ⟨_, getElem?_eq_getElem hlt⟩
  obtain ⟨dev, hi⟩ : ∃ d, devices[i]? = some d :=
    ⟨_, getElem?_eq_getElem (Nat.lt_trans hij hlt)⟩
  rw [getElem?_map, getElem?_map, hi, hj, Option.map_some, Option.map_some,
    Option.some.injEq] at heq
  by_cases hui : ∃ u, kernelUart devices = some (u, i)
  · obtain ⟨u, hu⟩ := hui
    have hui : u = dev := Option.some.inj ((firstDevice_some hu).1.symm.trans hi)
    exact (h _).uart u i hu _ (page_exported hfree hu hj (Nat.ne_of_gt hij) ⟨1, by decide⟩)
      (by rw [hui, heq])
  · by_cases huj : ∃ u, kernelUart devices = some (u, j)
    · obtain ⟨u, hu⟩ := huj
      have huj : u = dev' := Option.some.inj ((firstDevice_some hu).1.symm.trans hj)
      exact (h _).uart u j hu _ (page_exported hfree hu hi (Nat.ne_of_lt hij) ⟨1, by decide⟩)
        (by rw [huj, heq])
    · exact shared_page_claimed_twice hfree hi hj (Nat.ne_of_lt hij) heq
        (fun u hu => hui ⟨u, hu⟩) (fun u hu => huj ⟨u, hu⟩)
        ⟨1, by decide⟩ ⟨2, by decide⟩ (by decide) (h _)

theorem ownership_exclusive_iff_uart :
    ((∀ events, (System.run uartTree.described events).Exclusive uartTree.described) ↔
        PagesApart uartTree.described) ∧
      (kernelUart uartTree.described).map Prod.snd = some 0 ∧ PagesApart uartTree.described :=
  ⟨ownership_exclusive_iff (show parseFdtInto uartTree.flatten = .ok uartTree.described by
    decide +kernel), by decide +kernel, by unfold PagesApart; decide +kernel⟩

instance (S : System) (page token : UInt64) : Decidable (S.Claimant page token) :=
  inferInstanceAs (Decidable (∃ dev ∈ S.manager.devices, _ ∧ _ ∧ _))

/-- The UART and the first two virtio transports of QEMU's `virt` board. -/
def virtTree : Tree :=
  .node [] [.addressCells 2, .sizeCells 2]
    [.node (ascii "pl011@9000000") [.compatible [ascii "arm,pl011", ascii "arm,primecell"],
        .reg [(0x9000000, 0x1000)], .interrupts [⟨0, 1, 4⟩]] [],
      .node (ascii "virtio_mmio@a000000") [.compatible [ascii "virtio,mmio"],
        .reg [(0xa000000, 0x200)], .interrupts [⟨0, 16, 1⟩]] [],
      .node (ascii "virtio_mmio@a000200") [.compatible [ascii "virtio,mmio"],
        .reg [(0xa000200, 0x200)], .interrupts [⟨0, 17, 1⟩]] []]

/-- Two drivers ask for a virtio device. -/
def virtioClaims : List Event :=
  [⟨⟨1, by decide⟩, .claimDevice (compatibleHash (ascii "virtio,mmio")), ⟨some 7, some 3⟩⟩,
    ⟨⟨2, by decide⟩, .claimDevice (compatibleHash (ascii "virtio,mmio")), ⟨some 8, some 3⟩⟩]

theorem parse_virtTree : parseFdtInto virtTree.flatten = .ok virtTree.described := by
  decide +kernel

/-- Both get the same page. -/
theorem two_claimants_of_one_page :
    parseFdtInto virtTree.flatten = .ok virtTree.described ∧
      (System.run virtTree.described virtioClaims).Claimant 0xa000 1 ∧
      (System.run virtTree.described virtioClaims).Claimant 0xa000 2 ∧
      (System.run virtTree.described virtioClaims).exports.map Prod.snd = [0xa000, 0xa000] :=
  ⟨parse_virtTree, by decide +kernel, by decide +kernel, by decide +kernel⟩

end Lockjaw.User.DeviceManager
