import Bmboot.Monitor.Teardown

/-!
# The registers that interrupt calls reach

A payload names an interrupt in three of its monitor calls, and the monitor
indexes the banks of the distributor with what it is given.  The payload
library checks the id against the range of user interrupts; the monitor checks
a part of it in one of the calls.
-/

namespace Bmboot

open Interrupts

/-! ## Accesses -/

/-- The banks of registers; a pair of set and clear registers is one bank. -/
inductive GicdBank
  | group
  | enable
  | pending
  | active
  | trigger
  | priority
  | targets
  deriving DecidableEq

/-- The length of the arrays of `GICD`; `IGROUPRn` goes on in what is declared
as reserved. -/
def GicdBank.length : GicdBank → ℕ
  | .group | .enable | .pending | .active => 32
  | .trigger => 64
  | .priority | .targets => 1020

def GicdBank.width : GicdBank → ℕ
  | .priority | .targets => 8
  | _ => 32

def Gicd.register (d : Gicd) : (b : GicdBank) → ℤ → BitVec b.width
  | .group => d.igroupr
  | .enable => d.enabler
  | .pending => d.pendr
  | .active => d.activer
  | .trigger => d.icfgr
  | .priority => d.ipriorityr
  | .targets => d.itargetsr

def Gicd.store (d : Gicd) : (b : GicdBank) → ℤ → BitVec b.width → Gicd
  | .group, i, x => { d with igroupr := Function.update d.igroupr i x }
  | .enable, i, x => { d with enabler := Function.update d.enabler i x }
  | .pending, i, x => { d with pendr := Function.update d.pendr i x }
  | .active, i, x => { d with activer := Function.update d.activer i x }
  | .trigger, i, x => { d with icfgr := Function.update d.icfgr i x }
  | .priority, i, x => { d with ipriorityr := Function.update d.ipriorityr i x }
  | .targets, i, x => { d with itargetsr := Function.update d.itargetsr i x }

/-- An access to a register, with the shift count if it takes a mask. -/
structure GicdAccess where
  bank : GicdBank
  index : ℤ
  shift : Option ℤ
  deriving DecidableEq

/-- The access is to a register that the bank has, and the shift is defined. -/
structure GicdAccess.Inside (a : GicdAccess) : Prop where
  index_nonneg : 0 ≤ a.index
  index_lt : a.index < a.bank.length
  shift : ∀ k ∈ a.shift, 0 ≤ k ∧ k ≤ 31

/-- The access to the bit of an interrupt in a bank of 32 for each word. -/
def bitAccess (bank : GicdBank) (id : ℤ) : GicdAccess where
  bank := bank
  index := id.tdiv 32
  shift := some (id.tmod 32)

def triggerAccess (id : ℤ) : GicdAccess where
  bank := .trigger
  index := id.tdiv 16
  shift := some (id.tmod 16 * 2)

def byteAccess (bank : GicdBank) (id : ℤ) : GicdAccess where
  bank := bank
  index := id
  shift := none

/-! ## The calls -/

/-- The monitor calls that name an interrupt. -/
inductive InterruptCall
  | configure
  | enable
  | disable
  deriving DecidableEq

namespace InterruptCall

def functionId : InterruptCall → BitVec 64
  | .configure => smcZynqmpGicIrqConfigure
  | .enable => smcZynqmpGicIrqEnable
  | .disable => smcZynqmpGicIrqDisable

/-- The branch of `handleSmc` for the call. -/
def run (cpu : DomainIndex) (irq : Interrupts) (x1 x2 : BitVec 64) :
    InterruptCall → Interrupts
  | .configure => irq.smcConfigure cpu (toCInt x1) (toCInt x2)
  | .enable => irq.enableInterrupt (toCInt x1)
  | .disable => irq.disableInterrupt (toCInt x1)

/-- The accesses that the call makes to the distributor, in order. -/
def accesses (x1 x2 : BitVec 64) : InterruptCall → List GicdAccess
  | .configure =>
      let id := toCInt x1
      if toCInt x2 < payloadMinPriorityValue ∨
          toCInt x2 > payloadMaxPriorityValue then
        []
      else if id ≥ 16 ∧ id < 32 then
        [bitAccess .group id, byteAccess .priority id]
      else if id ≥ 32 then
        [bitAccess .group id, byteAccess .priority id, byteAccess .targets id,
          triggerAccess id]
      else []
  | .enable =>
      let id := toCInt x1
      [bitAccess .pending id, bitAccess .active id, bitAccess .enable id]
  | .disable => [bitAccess .enable (toCInt x1)]

/-- The call changes no register of the distributor, or it names an interrupt
of the user range and all its accesses are to registers that exist. -/
def TouchesOnlyReal (call : InterruptCall) (cpu : DomainIndex)
    (x1 x2 : BitVec 64) : Prop :=
  (∀ irq, (call.run cpu irq x1 x2).gicd = irq.gicd) ∨
    UserInterrupt (toCInt x1) ∧ ∀ a ∈ call.accesses x1 x2, a.Inside

/-- The id is in range wherever the monitor relies on it. -/
def IdInRange (x1 x2 : BitVec 64) : InterruptCall → Prop
  | .configure =>
      PayloadPriority (toCInt x2) → toCInt x1 ≤ gicMaxUserInterruptId
  | .enable | .disable => UserInterrupt (toCInt x1)

/-- The three branches of `handleSmc`. -/
theorem handleSmc_functionId
    (call : InterruptCall) (cpu : DomainIndex) (mem : BitVec 64 → UInt8)
    (core : Core) (saved : Aarch64Regs) (h : saved.regs 0 = call.functionId) :
    handleSmc cpu mem core saved =
      ({ core with irq := call.run cpu core.irq (saved.regs 1) (saved.regs 2) },
        some saved) := by
  cases call with
  | configure =>
      rw [functionId] at h
      simp only [handleSmc, h]
      rfl
  | enable =>
      rw [functionId] at h
      simp only [handleSmc, h]
      rfl
  | disable =>
      rw [functionId] at h
      simp only [handleSmc, h]
      rfl

end InterruptCall

/-! ## Registers that are not accessed -/

/-- The two distributors agree on every register that is not accessed. -/
def SameElsewhere (accesses : List GicdAccess) (d d' : Gicd) : Prop :=
  ∀ bank i, (∀ a ∈ accesses, ¬(a.bank = bank ∧ a.index = i)) →
    d'.register bank i = d.register bank i

section Elsewhere

variable {d d' d'' : Gicd} {as bs : List GicdAccess}

theorem SameElsewhere.append
    (h : SameElsewhere as d d') (h' : SameElsewhere bs d' d'') :
    SameElsewhere (as ++ bs) d d'' := by
  intro bank i hnone
  rw [h' bank i fun a ha => hnone a (List.mem_append_right _ ha),
    h bank i fun a ha => hnone a (List.mem_append_left _ ha)]

theorem register_store_of_ne
    {b b' : GicdBank} {i i' : ℤ} (x : BitVec b.width)
    (hne : ¬(b = b' ∧ i = i')) :
    (d.store b i x).register b' i' = d.register b' i' := by
  by_cases hb : b = b'
  · subst hb
    have hi : i' ≠ i := fun h => hne ⟨rfl, h.symm⟩
    cases b <;> exact Function.update_of_ne hi _ _
  · cases b <;> cases b' <;> first | rfl | exact absurd rfl hb

/-- A store to the register that an access is to. -/
theorem sameElsewhere_store (a : GicdAccess) (x : BitVec a.bank.width) :
    SameElsewhere [a] d (d.store a.bank a.index x) :=
  fun _ _ hnone => register_store_of_ne x (hnone a List.mem_cons_self)

end Elsewhere

section Calls

variable (cpu : DomainIndex) (irq : Interrupts) (id : ℤ)

theorem sameElsewhere_enableInterrupt :
    SameElsewhere
      [bitAccess .pending id, bitAccess .active id, bitAccess .enable id]
      irq.gicd (irq.enableInterrupt id).gicd := by
  have hpending : SameElsewhere [bitAccess .pending id] irq.gicd
      (irq.gicd.clearPending id) :=
    sameElsewhere_store (bitAccess .pending id) _
  have hactive : SameElsewhere [bitAccess .active id] (irq.gicd.clearPending id)
      ((irq.gicd.clearPending id).clearActive id) :=
    sameElsewhere_store (bitAccess .active id) _
  have henable : SameElsewhere [bitAccess .enable id]
      ((irq.gicd.clearPending id).clearActive id)
      (irq.enableInterrupt id).gicd :=
    sameElsewhere_store (bitAccess .enable id) _
  exact (hpending.append hactive).append henable

theorem sameElsewhere_setGroupForInterruptChannel (group : InterruptGroup) :
    SameElsewhere [bitAccess .group id] irq.gicd
      (irq.setGroupForInterruptChannel id group).gicd := by
  rw [Interrupts.setGroupForInterruptChannel_gicd]
  exact sameElsewhere_store (bitAccess .group id) _

theorem sameElsewhere_configurePrivate
    (group : InterruptGroup) (priority : ℤ) :
    SameElsewhere [bitAccess .group id, byteAccess .priority id] irq.gicd
      (irq.configurePrivatePeripheralInterrupt id group priority).gicd :=
  (sameElsewhere_setGroupForInterruptChannel irq id group).append
    (sameElsewhere_store (byteAccess .priority id) _)

theorem sameElsewhere_configureShared
    (targetCpu : ℕ) (group : InterruptGroup) (priority : ℤ) :
    SameElsewhere
      [bitAccess .group id, byteAccess .priority id, byteAccess .targets id,
        triggerAccess id]
      irq.gicd
      (irq.configureSharedPeripheralInterruptAndRouteToCpu id .edge targetCpu
        group priority).gicd :=
  (((sameElsewhere_setGroupForInterruptChannel irq id group).append
    (sameElsewhere_store (byteAccess .priority id) _)).append
      (sameElsewhere_store (byteAccess .targets id) _)).append
        (sameElsewhere_store (triggerAccess id) _)

/-- A call changes only registers that it accesses. -/
theorem InterruptCall.sameElsewhere_run
    (call : InterruptCall) (x1 x2 : BitVec 64) :
    SameElsewhere (call.accesses x1 x2) irq.gicd
      (call.run cpu irq x1 x2).gicd := by
  cases call with
  | configure =>
      simp only [run, Interrupts.smcConfigure, accesses]
      split_ifs
      · exact fun _ _ _ => rfl
      · exact sameElsewhere_configurePrivate irq _ _ _
      · exact sameElsewhere_configureShared irq _ _ _ _
      · exact fun _ _ _ => rfl
  | enable => exact sameElsewhere_enableInterrupt irq _
  | disable => exact sameElsewhere_store (bitAccess .enable (toCInt x1)) _

end Calls

/-! ## Ids in range -/

section Range

variable {id : ℤ}

theorem userInterrupt_iff : UserInterrupt id ↔ 0 ≤ id ∧ id ≤ 187 := Iff.rfl

theorem bitAccess_inside (b : GicdBank) (hb : 32 ≤ b.length)
    (hid : UserInterrupt id) : (bitAccess b id).Inside := by
  obtain ⟨hlow, hhigh⟩ := userInterrupt_iff.mp hid
  have hlength : ((32 : ℕ) : ℤ) ≤ b.length := Int.ofNat_le.mpr hb
  refine ⟨?_, ?_, ?_⟩
  · rw [bitAccess, Int.tdiv_eq_ediv_of_nonneg hlow]
    change 0 ≤ id / 32
    omega
  · rw [bitAccess, Int.tdiv_eq_ediv_of_nonneg hlow]
    change id / 32 < b.length
    omega
  · rintro k ⟨⟩
    rw [Int.tmod_eq_emod_of_nonneg hlow]
    omega

theorem byteAccess_inside (b : GicdBank) (hb : 1020 ≤ b.length)
    (hid : UserInterrupt id) : (byteAccess b id).Inside := by
  obtain ⟨hlow, hhigh⟩ := userInterrupt_iff.mp hid
  have hlength : ((1020 : ℕ) : ℤ) ≤ b.length := Int.ofNat_le.mpr hb
  refine ⟨hlow, ?_, nofun⟩
  change id < b.length
  omega

theorem triggerAccess_inside (hid : UserInterrupt id) :
    (triggerAccess id).Inside := by
  obtain ⟨hlow, hhigh⟩ := userInterrupt_iff.mp hid
  refine ⟨?_, ?_, ?_⟩
  · rw [triggerAccess, Int.tdiv_eq_ediv_of_nonneg hlow]
    change 0 ≤ id / 16
    omega
  · rw [triggerAccess, Int.tdiv_eq_ediv_of_nonneg hlow]
    change id / 16 < 64
    omega
  · rintro k ⟨⟩
    rw [Int.tmod_eq_emod_of_nonneg hlow]
    omega

/-- Every access for a user interrupt is to a register that exists. -/
theorem InterruptCall.accesses_inside
    (call : InterruptCall) {x1 : BitVec 64} (x2 : BitVec 64)
    (hid : UserInterrupt (toCInt x1)) :
    ∀ a ∈ call.accesses x1 x2, a.Inside := by
  have hgroup := bitAccess_inside .group (by decide) hid
  have henable := bitAccess_inside .enable (by decide) hid
  have hpending := bitAccess_inside .pending (by decide) hid
  have hactive := bitAccess_inside .active (by decide) hid
  have hpriority := byteAccess_inside .priority (by decide) hid
  have htargets := byteAccess_inside .targets (by decide) hid
  have htrigger := triggerAccess_inside hid
  cases call with
  | configure =>
      simp only [accesses]
      split_ifs
      · simp
      · simp [hgroup, hpriority]
      · simp [hgroup, hpriority, htargets, htrigger]
      · simp
  | enable => simp [accesses, hpending, hactive, henable]
  | disable => simp [accesses, henable]

end Range

/-! ## Ids out of range -/

section Exact

variable (cpu : DomainIndex) {id : ℤ}

theorem interruptMask_ne_zero (id : ℤ) : Gicd.interruptMask id ≠ 0 := by
  have hlt : (id.tmod 32).toNat < 32 := by
    have hmod := @Int.tmod_lt_of_pos id 32 (by decide)
    omega
  intro hzero
  have hbit := RegisterBank.getLsbD_one_shiftLeft (k := (id.tmod 32).toNat) hlt
  rw [← Gicd.interruptMask, hzero] at hbit
  simp at hbit

theorem enableInterrupt_gicd_ne (id : ℤ) :
    (Interrupts.reset.enableInterrupt id).gicd ≠ Interrupts.reset.gicd := by
  intro h
  have hword := congrFun (congrArg Gicd.enabler h) (id.tdiv 32)
  have hset : (Interrupts.reset.enableInterrupt id).gicd.enabler (id.tdiv 32) =
      0#32 ||| Gicd.interruptMask id := Function.update_self ..
  rw [hset, BitVec.zero_or] at hword
  exact interruptMask_ne_zero id hword

/-- The distributor with every interrupt enabled. -/
def allEnabled : Interrupts :=
  { Interrupts.reset with
    gicd := { Interrupts.reset.gicd with enabler := fun _ => BitVec.allOnes 32 } }

theorem disableInterrupt_gicd_ne (id : ℤ) :
    (allEnabled.disableInterrupt id).gicd ≠ allEnabled.gicd := by
  intro h
  have hword := congrFun (congrArg Gicd.enabler h) (id.tdiv 32)
  have hclear : (allEnabled.disableInterrupt id).gicd.enabler (id.tdiv 32) =
      BitVec.allOnes 32 &&& ~~~Gicd.interruptMask id := Function.update_self ..
  rw [hclear, BitVec.allOnes_and] at hword
  apply interruptMask_ne_zero id
  have hnot := congrArg (~~~ ·) hword
  simpa [allEnabled] using hnot

/-- An accepted configuration of an interrupt beyond the range. -/
theorem smcConfigure_gicd_ne
    {priority : ℤ} (hp : PayloadPriority priority)
    (hid : gicMaxUserInterruptId < id) :
    (Interrupts.reset.smcConfigure cpu id priority).gicd ≠
      Interrupts.reset.gicd := by
  intro h
  have hhigh : 187 < id := hid
  have hnonneg : 0 ≤ id := by omega
  have hconfig := config_smcConfigure cpu Interrupts.reset priority hnonneg
    hnonneg
  have hge : 16 ≤ id := by omega
  rw [if_pos ⟨hp, hge, rfl⟩] at hconfig
  have hbyte : (Interrupts.reset.smcConfigure cpu id priority).gicd.ipriorityr
      id = BitVec.ofInt 8 priority := congrArg Config.priority hconfig
  rw [h] at hbyte
  have hzero : (0#8).toNat = (BitVec.ofInt 8 priority).toNat :=
    congrArg BitVec.toNat hbyte
  have hmin := (payloadPriority_iff.mp hp).1
  have hpriority := hp.toNat_ofInt
  rw [← hzero, BitVec.toNat_ofNat] at hpriority
  omega

end Exact

/-- An interrupt call touches only the registers of a real interrupt exactly
when its id is in the range of user interrupts or, in an attempt to configure,
is not above it or is turned down for its priority. -/
theorem touchesOnlyReal_iff_idInRange
    (call : InterruptCall) (cpu : DomainIndex) (x1 x2 : BitVec 64) :
    call.TouchesOnlyReal cpu x1 x2 ↔ call.IdInRange x1 x2 := by
  constructor
  · rintro (hsame | ⟨huser, -⟩)
    · cases call with
      | configure =>
          intro hp
          by_contra hid
          exact smcConfigure_gicd_ne cpu hp (Int.not_le.mp hid) (hsame _)
      | enable => exact absurd (hsame _) (enableInterrupt_gicd_ne _)
      | disable => exact absurd (hsame _) (disableInterrupt_gicd_ne _)
    · cases call with
      | configure => exact fun _ => huser.2
      | enable => exact huser
      | disable => exact huser
  · intro hid
    cases call with
    | enable => exact .inr ⟨hid, InterruptCall.enable.accesses_inside x2 hid⟩
    | disable => exact .inr ⟨hid, InterruptCall.disable.accesses_inside x2 hid⟩
    | configure =>
        by_cases huser : UserInterrupt (toCInt x1)
        · exact .inr ⟨huser, InterruptCall.configure.accesses_inside x2 huser⟩
        -- A refused call makes no access, and neither does one for a low id.
        · left
          intro irq
          simp only [InterruptCall.run, smcConfigure]
          split_ifs with hrefused hppi hspi
          · rfl
          · exact absurd (userInterrupt_iff.mpr (by omega)) huser
          · rw [← not_payloadPriority_iff, not_not] at hrefused
            have hlow : 0 ≤ toCInt x1 := by omega
            exact absurd (And.intro hlow (hid hrefused)) huser
          · rfl

/-- The payload asks for interrupt 1024 to be enabled. -/
theorem not_touchesOnlyReal_enable1024 :
    ¬∀ (call : InterruptCall) (cpu : DomainIndex) (x1 x2 : BitVec 64),
      call.TouchesOnlyReal cpu x1 x2 := by
  intro htouches
  rcases htouches .enable .cpu1 1024 0 with hsame | ⟨huser, -⟩
  · exact enableInterrupt_gicd_ne _ (hsame Interrupts.reset)
  · exact absurd huser (by decide)

end Bmboot
