import Bmboot.Gic.CpuInterface
import Bmboot.Lib.ActiveStack
import Bmboot.Monitor.InterruptLine
import Bmboot.Payload.FpuContext
import Bmboot.Payload.InterruptSetup
import Mathlib.Order.Interval.Finset.Nat

/-!
# Which interrupt may interrupt which

The payload's interrupts as the interrupt controller signals them.  A handler
runs with interrupts unmasked (`vectors_el1.cpp`), and the CPU interface signals
an interrupt only if it is more urgent than all that have been acknowledged and
not ended, looking at the upper bits of the priority.  The number of nested
handlers, for which the save area of the floating point registers has room, is
thus a matter of the priorities that the monitor accepts, and of those that the
payload library offers.
-/

namespace Bmboot

open Preemption StepSystem

/-! ## Handlers -/

/-- What `IRQInterrupt` is about to do, in the innermost handler; main counts as
a handler that does not end. -/
inductive HandlerPhase
  | acknowledge
  | handler
  /-- No handler is registered, and the crash has been reported. -/
  | crash
  | ret
  | hang
  deriving DecidableEq

/-- The payload on its core.  The active priorities are what `NSAPR0` holds. -/
structure Preemptible (binaryPoint : ℕ) where
  irq : Interrupts
  active : ActiveStack (ActiveInterrupt.level binaryPoint)
  phase : HandlerPhase
  fpu : FpuState

/-- The running code makes a monitor call or uses floating point, an interrupt
is signalled, the innermost `IRQInterrupt` accesses the interrupt controller or
returns, or the payload is killed and another one boots.  Set-ups name their
priority by an element of `P`. -/
inductive PreemptAction (P : Type*)
  | configure (id : ℤ) (priority : P)
  | enable (id : ℤ)
  | disable (id : ℤ)
  | trap
  | fp (effect : Aarch64FpRegs → Aarch64FpRegs)
  | irq (id : ℤ)
  | acknowledge (id : ℤ) (registered : Bool)
  | spurious
  | endOfInterrupt
  | ret
  | kill (base : ℤ) (frames : ℤ → Aarch64FpRegs) (regs : Aarch64FpRegs)

namespace Preemptible

variable {binaryPoint : ℕ} {P : Type*}

/-- The interrupt controller asserts IRQ for a pending interrupt of group 1. -/
structure Signalled (cpu : DomainIndex) (s : Preemptible binaryPoint) (id : ℤ) :
    Prop where
  user : Interrupts.UserInterrupt id
  enabled : s.irq.gicd.enabled id = true
  group : s.irq.gicd.inGroup1 id = true
  inactive : s.irq.gicd.active id = false
  target : id < 32 ∨ s.irq.gicd.targets id cpu.cpuIndex = true
  mask : (s.irq.gicd.ipriorityr id).toNat < s.irq.gicc.pmr.toNat
  enableGrp1 : s.irq.gicc.ctrl.getLsbD 1 = true
  preempts : s.active.Preempts
    (preemptionLevel binaryPoint (s.irq.gicd.ipriorityr id))

theorem signalled_iff {cpu : DomainIndex} {s : Preemptible binaryPoint}
    {id : ℤ} :
    s.Signalled cpu id ↔
      Interrupts.UserInterrupt id ∧ s.irq.gicd.enabled id = true ∧
        s.irq.gicd.inGroup1 id = true ∧ s.irq.gicd.active id = false ∧
        (id < 32 ∨ s.irq.gicd.targets id cpu.cpuIndex = true) ∧
        (s.irq.gicd.ipriorityr id).toNat < s.irq.gicc.pmr.toNat ∧
        s.irq.gicc.ctrl.getLsbD 1 = true ∧
        s.active.Preempts
          (preemptionLevel binaryPoint (s.irq.gicd.ipriorityr id)) := by
  constructor
  · intro h
    exact ⟨h.user, h.enabled, h.group, h.inactive, h.target, h.mask,
      h.enableGrp1, h.preempts⟩
  · rintro ⟨huser, henabled, hgroup, hinactive, htarget, hmask, hgrp, hpre⟩
    exact ⟨huser, henabled, hgroup, hinactive, htarget, hmask, hgrp, hpre⟩

instance (cpu : DomainIndex) (s : Preemptible binaryPoint) (id : ℤ) :
    Decidable (s.Signalled cpu id) :=
  decidable_of_iff _ signalled_iff.symm

/-! ## Steps -/

/-- The monitor call of the running code, about one of the interrupts 0 to 187. -/
def call (s : Preemptible binaryPoint) (id : ℤ) (irq : Interrupts) :
    Option (Preemptible binaryPoint) :=
  if s.phase = .handler ∧ Interrupts.UserInterrupt id then
    some { s with irq := irq }
  else none

/-- The interrupt becomes active; without a handler for it the payload reports a
crash. -/
def acknowledged {cpu : DomainIndex} {id : ℤ} (s : Preemptible binaryPoint)
    (registered : Bool) (hsignal : s.Signalled cpu id) :
    Preemptible binaryPoint :=
  { s with
    irq :=
      { s.irq with
        gicd :=
          { s.irq.gicd with
            activer := RegisterBank.setMask s.irq.gicd.activer
              (id.tdiv 32) (Gicd.interruptMask id) } }
    active := s.active.push ⟨id, s.irq.gicd.ipriorityr id⟩ hsignal.preempts
    phase := if registered then .handler else .crash }

/-- A read of `IAR` that returns the interrupt. -/
def acknowledge (cpu : DomainIndex) (s : Preemptible binaryPoint) (id : ℤ)
    (registered : Bool) : Option (Preemptible binaryPoint) :=
  if h : s.phase = .acknowledge ∧ s.Signalled cpu id then
    some (s.acknowledged registered h.2)
  else none

/-- The interrupt acknowledged last ends. -/
def ended (s : Preemptible binaryPoint) (a : ActiveInterrupt)
    (phase : HandlerPhase) : Preemptible binaryPoint where
  irq := { s.irq with gicd := s.irq.gicd.clearActive a.id }
  active := s.active.pop
  phase := phase
  fpu := s.fpu

/-- A write to `EOIR`. -/
def endOfInterrupt (s : Preemptible binaryPoint) :
    Option (Preemptible binaryPoint) :=
  match s.active.active, s.phase with
  | a :: _, .handler => some (s.ended a .ret)
  | a :: _, .crash => some (s.ended a .hang)
  | _, _ => none

/-- The interrupt hardware once the monitor has restarted. -/
def restarted (cpu : DomainIndex) (irq : Interrupts) : Interrupts :=
  Interrupts.setupInterrupts cpu (MonitorStart.restart irq).irq

/-- A payload is killed.  `teardownEl1Interrupts` clears the active priorities
of group 1, and the boot code of the next payload clears `FPUStatus`. -/
def kill (cpu : DomainIndex) (s : Preemptible binaryPoint) (base : ℤ)
    (frames : ℤ → Aarch64FpRegs) (regs : Aarch64FpRegs) :
    Preemptible binaryPoint where
  irq := restarted cpu s.irq
  active := .empty
  phase := .handler
  fpu := .boot base frames regs

def step (cpu : DomainIndex) (code : P → ℤ) (s : Preemptible binaryPoint) :
    PreemptAction P → Option (Preemptible binaryPoint)
  | .configure id p => s.call id (s.irq.smcConfigure cpu id (code p))
  | .enable id => s.call id (s.irq.enableInterrupt id)
  | .disable id => s.call id (s.irq.disableInterrupt id)
  | .trap => (s.fpu.step .trap).map fun fpu => { s with fpu := fpu }
  | .fp effect => (s.fpu.step (.fp effect)).map fun fpu => { s with fpu := fpu }
  | .irq id =>
      if s.phase = .handler ∧ s.Signalled cpu id then
        some { s with fpu := s.fpu.irqEntry, phase := .acknowledge }
      else none
  | .acknowledge id registered => s.acknowledge cpu id registered
  | .spurious =>
      -- `IAR` reads 0x3ff; the write of it to `EOIR` has no effect.
      if s.phase = .acknowledge then some { s with phase := .hang } else none
  | .endOfInterrupt => s.endOfInterrupt
  | .ret =>
      if s.phase = .ret then
        (s.fpu.step .ret).map fun fpu =>
          { s with fpu := fpu, phase := .handler }
      else none
  | .kill base frames regs => some (s.kill cpu base frames regs)

/-- The first payload of a monitor that has just set up its interrupts. -/
def boot (binaryPoint : ℕ) (cpu : DomainIndex) (irq : Interrupts) (base : ℤ)
    (frames : ℤ → Aarch64FpRegs) (regs : Aarch64FpRegs) :
    Preemptible binaryPoint where
  irq := Interrupts.setupInterrupts cpu irq
  active := .empty
  phase := .handler
  fpu := .boot base frames regs

/-! ## What a step can be -/

section Inversion

variable {cpu : DomainIndex} {s t : Preemptible binaryPoint} {id : ℤ}

theorem call_eq_some_iff {irq : Interrupts} :
    s.call id irq = some t ↔
      s.phase = .handler ∧ Interrupts.UserInterrupt id ∧
        t = { s with irq := irq } := by
  rw [call, Option.ite_none_right_eq_some, Option.some.injEq, and_assoc]
  constructor
  · rintro ⟨hphase, hid, heq⟩
    exact ⟨hphase, hid, heq.symm⟩
  · rintro ⟨hphase, hid, heq⟩
    exact ⟨hphase, hid, heq.symm⟩

theorem acknowledge_eq_some_iff {registered : Bool} :
    s.acknowledge cpu id registered = some t ↔
      s.phase = .acknowledge ∧
        ∃ hsignal : s.Signalled cpu id,
          t = s.acknowledged registered hsignal := by
  rw [acknowledge, Option.dite_none_right_eq_some]
  constructor
  · rintro ⟨⟨hphase, hsignal⟩, heq⟩
    exact ⟨hphase, hsignal, (Option.some.inj heq).symm⟩
  · rintro ⟨hphase, hsignal, rfl⟩
    exact ⟨⟨hphase, hsignal⟩, rfl⟩

theorem of_endOfInterrupt_eq_some (h : s.endOfInterrupt = some t) :
    ∃ a rest phase, s.active.active = a :: rest ∧
      (s.phase = .handler ∧ phase = .ret ∨
        s.phase = .crash ∧ phase = .hang) ∧
      t = s.ended a phase := by
  rw [endOfInterrupt] at h
  split at h
  next a rest hactive hphase =>
    exact ⟨a, rest, .ret, hactive, .inl ⟨hphase, rfl⟩,
      (Option.some.inj h).symm⟩
  next a rest hactive hphase =>
    exact ⟨a, rest, .hang, hactive, .inr ⟨hphase, rfl⟩,
      (Option.some.inj h).symm⟩
  · exact absurd h (by simp)

theorem step_cases
    {code : P → ℤ} {a : PreemptAction P}
    {Q : PreemptAction P → Preemptible binaryPoint → Prop}
    (h : s.step cpu code a = some t)
    (configure : ∀ id p, s.phase = .handler → Interrupts.UserInterrupt id →
      Q (.configure id p)
        { s with irq := s.irq.smcConfigure cpu id (code p) })
    (enable : ∀ id, s.phase = .handler → Interrupts.UserInterrupt id →
      Q (.enable id) { s with irq := s.irq.enableInterrupt id })
    (disable : ∀ id, s.phase = .handler → Interrupts.UserInterrupt id →
      Q (.disable id) { s with irq := s.irq.disableInterrupt id })
    (trap : ∀ fpu, s.fpu.step .trap = some fpu → Q .trap { s with fpu := fpu })
    (fp : ∀ effect fpu, s.fpu.step (.fp effect) = some fpu →
      Q (.fp effect) { s with fpu := fpu })
    (irq : ∀ id, s.phase = .handler → s.Signalled cpu id →
      Q (.irq id) { s with fpu := s.fpu.irqEntry, phase := .acknowledge })
    (acknowledge : ∀ id registered, s.phase = .acknowledge →
      ∀ hsignal : s.Signalled cpu id,
        Q (.acknowledge id registered) (s.acknowledged registered hsignal))
    (spurious : s.phase = .acknowledge → Q .spurious { s with phase := .hang })
    (endOfInterrupt : ∀ a rest phase, s.active.active = a :: rest →
      (s.phase = .handler ∧ phase = .ret ∨ s.phase = .crash ∧ phase = .hang) →
      Q .endOfInterrupt (s.ended a phase))
    (ret : ∀ fpu, s.phase = .ret → s.fpu.step .ret = some fpu →
      Q .ret { s with fpu := fpu, phase := .handler })
    (kill : ∀ base frames regs,
      Q (.kill base frames regs) (s.kill cpu base frames regs)) :
    Q a t := by
  cases a with
  | configure id p =>
      obtain ⟨hphase, hid, rfl⟩ := call_eq_some_iff.mp h
      exact configure id p hphase hid
  | enable id =>
      obtain ⟨hphase, hid, rfl⟩ := call_eq_some_iff.mp h
      exact enable id hphase hid
  | disable id =>
      obtain ⟨hphase, hid, rfl⟩ := call_eq_some_iff.mp h
      exact disable id hphase hid
  | trap =>
      obtain ⟨fpu, hfpu, rfl⟩ := Option.map_eq_some_iff.mp h
      exact trap fpu hfpu
  | fp effect =>
      obtain ⟨fpu, hfpu, rfl⟩ := Option.map_eq_some_iff.mp h
      exact fp effect fpu hfpu
  | irq id =>
      obtain ⟨⟨hphase, hsignal⟩, heq⟩ := Option.ite_none_right_eq_some.mp h
      obtain rfl := Option.some.inj heq
      exact irq id hphase hsignal
  | acknowledge id registered =>
      obtain ⟨hphase, hsignal, rfl⟩ := acknowledge_eq_some_iff.mp h
      exact acknowledge id registered hphase hsignal
  | spurious =>
      obtain ⟨hphase, heq⟩ := Option.ite_none_right_eq_some.mp h
      obtain rfl := Option.some.inj heq
      exact spurious hphase
  | endOfInterrupt =>
      obtain ⟨a, rest, phase, hactive, hphase, rfl⟩ :=
        of_endOfInterrupt_eq_some h
      exact endOfInterrupt a rest phase hactive hphase
  | ret =>
      obtain ⟨hphase, hmap⟩ := Option.ite_none_right_eq_some.mp h
      obtain ⟨fpu, hfpu, rfl⟩ := Option.map_eq_some_iff.mp hmap
      exact ret fpu hphase hfpu
  | kill base frames regs =>
      obtain rfl := Option.some.inj h
      exact kill base frames regs

end Inversion

/-! ## The priorities in use -/

section Levels

variable {cpu : DomainIndex} {irq : Interrupts} {id : ℤ}

/-- The interrupts routed to EL1 all have a priority with a level in `levels`. -/
def RoutedWithin (binaryPoint : ℕ) (levels : Finset ℕ) (irq : Interrupts) :
    Prop :=
  ∀ id, Interrupts.UserInterrupt id → irq.gicd.inGroup1 id = true →
    preemptionLevel binaryPoint (irq.gicd.ipriorityr id) ∈ levels

variable {levels : Finset ℕ}

theorem RoutedWithin.smcConfigure (h : RoutedWithin binaryPoint levels irq)
    (hid : Interrupts.UserInterrupt id) {p : ℤ}
    (hp : PayloadPriority p →
      preemptionLevel binaryPoint (BitVec.ofInt 8 p) ∈ levels) :
    RoutedWithin binaryPoint levels (irq.smcConfigure cpu id p) := by
  intro id' hid' hgroup
  have hconfig := irq.config_smcConfigure cpu p hid.nonneg hid'.nonneg
  by_cases haccepted : PayloadPriority p ∧ 16 ≤ id ∧ id' = id
  · rw [if_pos haccepted] at hconfig
    have hpriority := congrArg Interrupts.Config.priority hconfig
    have hbyte : (irq.smcConfigure cpu id p).gicd.ipriorityr id' =
        BitVec.ofInt 8 p := hpriority
    rw [hbyte]
    exact hp haccepted.1
  · rw [if_neg haccepted] at hconfig
    have hpriority : (irq.smcConfigure cpu id p).gicd.ipriorityr id' =
        irq.gicd.ipriorityr id' := congrArg Interrupts.Config.priority hconfig
    have hgroup' : (irq.smcConfigure cpu id p).gicd.inGroup1 id' =
        irq.gicd.inGroup1 id' := congrArg Interrupts.Config.inGroup1 hconfig
    rw [hpriority]
    exact h id' hid' (hgroup'.symm.trans hgroup)

/-- The monitor takes its own interrupt out of group 1. -/
theorem RoutedWithin.setupInterrupts
    (h : RoutedWithin binaryPoint levels irq) :
    RoutedWithin binaryPoint levels (Interrupts.setupInterrupts cpu irq) := by
  intro id hid hgroup
  by_cases hipi : id = cpu.ipiInterruptId
  · have hconf := (Interrupts.ipiConfigured_setupInterrupts cpu irq).group
    rw [← hipi, hgroup] at hconf
    exact absurd hconf (by decide)
  · have hconfig := Interrupts.config_setupInterrupts_of_ne cpu irq hid.nonneg
      hipi
    have hpriority : (Interrupts.setupInterrupts cpu irq).gicd.ipriorityr id =
        irq.gicd.ipriorityr id := congrArg Interrupts.Config.priority hconfig
    have hgroup' : (Interrupts.setupInterrupts cpu irq).gicd.inGroup1 id =
        irq.gicd.inGroup1 id := congrArg Interrupts.Config.inGroup1 hconfig
    rw [hpriority]
    exact h id hid (hgroup'.symm.trans hgroup)

theorem RoutedWithin.restarted (h : RoutedWithin binaryPoint levels irq) :
    RoutedWithin binaryPoint levels (restarted cpu irq) := by
  apply RoutedWithin.setupInterrupts
  obtain ⟨enabler, hgicd⟩ := irq.teardownEl1Interrupts_gicd
  have hteardown : (MonitorStart.restart irq).irq.gicd = _ := hgicd
  rw [RoutedWithin, hteardown]
  exact h

end Levels

/-! ## The stack of handlers -/

end Preemptible

/-- The interrupt of the innermost handler is active. -/
def HandlerPhase.isActive : HandlerPhase → Bool
  | .handler | .crash => true
  | .acknowledge | .ret | .hang => false

namespace FpuState

/-- A floating point instruction leaves the handlers as they are. -/
theorem irqFrames_of_fp {s t : FpuState} {a : FpuAction}
    (ha : a = .trap ∨ ∃ effect, a = .fp effect) (h : s.step a = some t) :
    t.irqFrames = s.irqFrames := by
  rcases ha with rfl | ⟨effect, rfl⟩
  · simp only [step, Option.ite_none_left_eq_some, Option.some.injEq] at h
    obtain ⟨-, rfl⟩ := h
    rw [synchronousInterruptHandler]
    split <;> rfl
  · simp only [step, Option.ite_none_right_eq_some, Option.some.injEq] at h
    obtain ⟨-, rfl⟩ := h
    rfl

theorem irqFrames_of_ret {s t : FpuState} (h : s.step .ret = some t) :
    s.irqFrames.length = t.irqFrames.length + 1 := by
  simp only [step] at h
  split at h
  · exact absurd h (by simp)
  next f rest hframes =>
    obtain rfl := Option.some.inj h
    rw [hframes, irqExit]
    split <;> rfl

end FpuState

namespace Preemptible

/-- There is one frame for each active interrupt, and one for the innermost
handler while its interrupt is not acknowledged yet or has ended. -/
structure Inv (levels : Finset ℕ) (s : Preemptible binaryPoint) : Prop where
  level : ∀ a ∈ s.active.active, a.level binaryPoint ∈ levels
  routed : RoutedWithin binaryPoint levels s.irq
  depth : s.active.active.length + (if s.phase.isActive then 0 else 1) =
    s.fpu.irqFrames.length
  room : s.fpu.irqFrames.length ≤ levels.card
  crash : s.phase = .crash → s.active.active ≠ []
  pmr : s.irq.gicc.pmr = 0xff
  ctrl : s.irq.gicc.ctrl = gicCtrlValue

section Invariant

variable {cpu : DomainIndex} {levels : Finset ℕ} {s t : Preemptible binaryPoint}
  {code : P → ℤ} {a : PreemptAction P}

theorem inv_boot {irq : Interrupts}
    (hrouted : RoutedWithin binaryPoint levels irq) (base : ℤ)
    (frames : ℤ → Aarch64FpRegs) (regs : Aarch64FpRegs) :
    (boot binaryPoint cpu irq base frames regs).Inv levels where
  level := nofun
  routed := hrouted.setupInterrupts
  depth := rfl
  room := Nat.zero_le _
  crash := nofun
  pmr := congrArg Gicc.pmr (Interrupts.gicc_setupInterrupts ..)
  ctrl := congrArg Gicc.ctrl (Interrupts.gicc_setupInterrupts ..)

/-- Where interrupts are unmasked, a signalled one finds room for a frame. -/
theorem Inv.length_lt (hinv : s.Inv levels) (hphase : s.phase = .handler)
    {id : ℤ} (hsignal : s.Signalled cpu id) :
    s.fpu.irqFrames.length < levels.card := by
  have hdepth := hinv.depth
  rw [hphase] at hdepth
  have hlevel := hinv.routed id hsignal.user hsignal.group
  have hlt := s.active.length_lt_card hinv.level hlevel hsignal.preempts
  exact hdepth ▸ hlt

theorem Inv.smcConfigure (hinv : s.Inv levels) {id p : ℤ}
    (hid : Interrupts.UserInterrupt id)
    (hp : PayloadPriority p →
      preemptionLevel binaryPoint (BitVec.ofInt 8 p) ∈ levels) :
    ({ s with irq := s.irq.smcConfigure cpu id p } :
      Preemptible binaryPoint).Inv levels := by
  have hgicc : (s.irq.smcConfigure cpu id p).gicc = s.irq.gicc :=
    (Interrupts.smcConfigure_sameInterface _ _ _ p).gicc
  exact
    { level := hinv.level
      routed := hinv.routed.smcConfigure hid hp
      depth := hinv.depth
      room := hinv.room
      crash := hinv.crash
      pmr := (congrArg Gicc.pmr hgicc).trans hinv.pmr
      ctrl := (congrArg Gicc.ctrl hgicc).trans hinv.ctrl }

theorem inv_step
    (hcode : ∀ p, PayloadPriority (code p) →
      preemptionLevel binaryPoint (BitVec.ofInt 8 (code p)) ∈ levels)
    (hinv : s.Inv levels) (h : s.step cpu code a = some t) :
    t.Inv levels := by
  have hdepth := hinv.depth
  refine step_cases (Q := fun _ t => t.Inv levels) h ?_ ?_ ?_ ?_ ?_ ?_ ?_ ?_
    ?_ ?_ ?_
  case refine_1 =>
    intro id p _ hid
    exact hinv.smcConfigure hid (hcode p)
  case refine_2 =>
    intro id _ _
    exact { hinv with }
  case refine_3 =>
    intro id _ _
    exact { hinv with }
  case refine_4 =>
    intro fpu hfpu
    have hframes := FpuState.irqFrames_of_fp (.inl rfl) hfpu
    exact
      { hinv with
        depth := hdepth.trans (congrArg _ hframes.symm)
        room := hframes ▸ hinv.room }
  case refine_5 =>
    intro effect fpu hfpu
    have hframes := FpuState.irqFrames_of_fp (.inr ⟨effect, rfl⟩) hfpu
    exact
      { hinv with
        depth := hdepth.trans (congrArg _ hframes.symm)
        room := hframes ▸ hinv.room }
  case refine_6 =>
    intro id hphase hsignal
    rw [hphase] at hdepth
    exact
      { hinv with
        depth := congrArg Nat.succ hdepth
        room := hinv.length_lt hphase hsignal
        crash := nofun }
  case refine_7 =>
    intro id registered hphase hsignal
    rw [hphase] at hdepth
    refine ⟨?_, hinv.routed, ?_, hinv.room, ?_, hinv.pmr, hinv.ctrl⟩
    · intro b hb
      rcases List.mem_cons.mp hb with rfl | hb
      · exact hinv.routed id hsignal.user hsignal.group
      · exact hinv.level b hb
    · rw [← show s.fpu.irqFrames.length =
        (s.acknowledged registered hsignal).fpu.irqFrames.length from rfl,
        ← hdepth]
      cases registered <;> rfl
    · intro _
      exact List.cons_ne_nil _ _
  case refine_8 =>
    intro hphase
    rw [hphase] at hdepth
    exact { hinv with depth := hdepth, crash := nofun }
  case refine_9 =>
    intro b rest phase hactive hphase
    have hnext : phase.isActive = false := by
      rcases hphase with ⟨-, rfl⟩ | ⟨-, rfl⟩ <;> rfl
    have hbefore : s.phase.isActive = true := by
      rcases hphase with ⟨hphase, -⟩ | ⟨hphase, -⟩ <;> rw [hphase] <;> rfl
    rw [hactive, hbefore] at hdepth
    refine ⟨?_, hinv.routed, ?_, hinv.room, ?_, hinv.pmr, hinv.ctrl⟩
    · intro c hc
      exact hinv.level c (List.mem_of_mem_tail hc)
    · rw [ended, ActiveStack.active_pop, hactive, hnext]
      exact hdepth
    · rcases hphase with ⟨-, rfl⟩ | ⟨-, rfl⟩ <;> nofun
  case refine_10 =>
    intro fpu hphase hfpu
    have hframes := FpuState.irqFrames_of_ret hfpu
    have hroom := hinv.room
    rw [hphase, hframes] at hdepth
    rw [hframes] at hroom
    exact
      { hinv with
        depth := Nat.succ.inj hdepth
        room := Nat.le_of_succ_le hroom
        crash := nofun }
  case refine_11 =>
    intro base frames regs
    exact
      { level := nofun
        routed := hinv.routed.restarted
        depth := rfl
        room := Nat.zero_le _
        crash := nofun
        pmr := congrArg Gicc.pmr (Interrupts.gicc_setupInterrupts ..)
        ctrl := congrArg Gicc.ctrl (Interrupts.gicc_setupInterrupts ..) }

theorem inv_of_run
    (hcode : ∀ p, PayloadPriority (code p) →
      preemptionLevel binaryPoint (BitVec.ofInt 8 (code p)) ∈ levels)
    (hs : s.Inv levels) {schedule : List (PreemptAction P)}
    (hrun : run (step cpu code) s schedule = some t) : t.Inv levels :=
  run_preserves (fun _ _ _ hinv h => inv_step hcode hinv h) hs hrun

/-! ## The save area -/

/-- The handler that executes the first floating point instruction of a payload,
if it is a handler, does not return. -/
def FirstUserStays (s : Preemptible binaryPoint) : PreemptAction P → Prop
  | .ret => s.fpu.FirstUserStays .ret
  | _ => True

/-- The floating point state moves as `asm_vectors.S` moves it, with an
interrupt only where there is room for its frame, or a payload boots. -/
theorem fpu_step (hinv : s.Inv levels)
    (hlevels : levels.card ≤ maxActiveHandlers)
    (h : s.step cpu code a = some t) :
    (t.fpu = s.fpu ∧ s.FirstUserStays a) ∨
      (∃ b, s.fpu.step b = some t.fpu ∧
        (s.fpu.FirstUserStays b ↔ s.FirstUserStays a)) ∨
      ∃ base frames regs, t.fpu = .boot base frames regs ∧
        s.FirstUserStays a := by
  refine step_cases
    (Q := fun a t => (t.fpu = s.fpu ∧ s.FirstUserStays a) ∨
      (∃ b, s.fpu.step b = some t.fpu ∧
        (s.fpu.FirstUserStays b ↔ s.FirstUserStays a)) ∨
      ∃ base frames regs, t.fpu = .boot base frames regs ∧
        s.FirstUserStays a) h ?_ ?_ ?_ ?_ ?_ ?_ ?_ ?_ ?_ ?_ ?_
  case refine_4 => exact fun fpu hfpu => .inr (.inl ⟨.trap, hfpu, Iff.rfl⟩)
  case refine_5 =>
    exact fun effect fpu hfpu => .inr (.inl ⟨.fp effect, hfpu, Iff.rfl⟩)
  case refine_6 =>
    intro id hphase hsignal
    have hroom := (hinv.length_lt hphase hsignal).trans_le hlevels
    exact .inr (.inl ⟨.irq, if_pos hroom, Iff.rfl⟩)
  case refine_10 =>
    exact fun fpu _ hfpu => .inr (.inl ⟨.ret, hfpu, Iff.rfl⟩)
  case refine_11 =>
    exact fun base frames regs =>
      .inr (.inr ⟨base, frames, regs, rfl, trivial⟩)
  all_goals
    intros
    exact .inl ⟨rfl, trivial⟩

end Invariant

end Preemptible

/-! ## The priorities of the payload library -/

def libraryPriorities : List PayloadInterruptPriority :=
  [.p7Max, .p6, .p5, .p4, .p3, .p2, .p1, .p0Min]

theorem mem_libraryPriorities (p : PayloadInterruptPriority) :
    p ∈ libraryPriorities := by
  cases p <;> decide

/-- The byte in the distributor for a priority of the library. -/
def PayloadInterruptPriority.byte (p : PayloadInterruptPriority) : BitVec 8 :=
  BitVec.ofInt 8 p.code.toInt

def libraryLevels (binaryPoint : ℕ) : Finset ℕ :=
  (libraryPriorities.map fun p => preemptionLevel binaryPoint p.byte).toFinset

theorem level_mem_libraryLevels (binaryPoint : ℕ)
    (p : PayloadInterruptPriority) :
    preemptionLevel binaryPoint p.byte ∈ libraryLevels binaryPoint :=
  List.mem_toFinset.mpr
    (List.mem_map_of_mem (mem_libraryPriorities p))

theorem card_libraryLevels_le (binaryPoint : ℕ) :
    (libraryLevels binaryPoint).card ≤ maxActiveHandlers :=
  List.toFinset_card_le _

/-- The interrupts routed to EL1 have priorities of the payload library. -/
def Interrupts.RoutedByLibrary (irq : Interrupts) : Prop :=
  ∀ id, UserInterrupt id → irq.gicd.inGroup1 id = true →
    ∃ p : PayloadInterruptPriority, irq.gicd.ipriorityr id = p.byte

theorem Interrupts.RoutedByLibrary.routedWithin {irq : Interrupts}
    (h : irq.RoutedByLibrary) (binaryPoint : ℕ) :
    Preemptible.RoutedWithin binaryPoint (libraryLevels binaryPoint) irq := by
  intro id hid hgroup
  obtain ⟨p, hp⟩ := h id hid hgroup
  rw [hp]
  exact level_mem_libraryLevels binaryPoint p

/-- What `setupInterruptHandling` does to the interrupt hardware is the step
`configure`. -/
theorem irq_setupInterruptHandling {H : Type*} (cpu : DomainIndex)
    (mem : BitVec 64 → UInt8) (saved : Aarch64Regs) (r : PayloadRuntime H)
    (interruptId : BitVec 32) (p : PayloadInterruptPriority) (handler : H)
    (hid : Interrupts.UserInterrupt interruptId.toInt) :
    (setupInterruptHandling cpu mem saved r interruptId p.code
        handler).state.core.irq =
      r.core.irq.smcConfigure cpu interruptId.toInt p.code.toInt := by
  have hrange : ¬(interruptId.toInt < gicMinUserInterruptId ∨
      interruptId.toInt > gicMaxUserInterruptId) := by
    rw [not_or, Int.not_lt, Int.not_lt]
    exact hid
  rw [setupInterruptHandling, if_neg hrange]
  exact congrArg Core.irq
    (handleSmc_configure cpu mem saved r interruptId p.code)

/-- The steps of a payload that uses the payload library. -/
abbrev libraryStep {binaryPoint : ℕ} (cpu : DomainIndex) :
    Preemptible binaryPoint → PreemptAction PayloadInterruptPriority →
      Option (Preemptible binaryPoint) :=
  Preemptible.step cpu fun p => p.code.toInt

namespace Preemptible

variable {binaryPoint : ℕ} {cpu : DomainIndex} {s t : Preemptible binaryPoint}
  {a : PreemptAction PayloadInterruptPriority}

theorem inv_libraryStep (hinv : s.Inv (libraryLevels binaryPoint))
    (h : libraryStep cpu s a = some t) :
    t.Inv (libraryLevels binaryPoint) :=
  inv_step (fun p _ => level_mem_libraryLevels binaryPoint p) hinv h

/-- The handlers fit in the save area, which is in order as long as nothing has
gone wrong. -/
structure ContextInv (s : Preemptible binaryPoint) : Prop where
  handlers : s.Inv (libraryLevels binaryPoint)
  contexts : s.fpu.Clean → s.fpu.Inv

theorem ContextInv.step (hinv : s.ContextInv)
    (h : libraryStep cpu s a = some t) : t.ContextInv := by
  refine ⟨inv_libraryStep hinv.handlers h, ?_⟩
  rcases fpu_step hinv.handlers (card_libraryLevels_le binaryPoint) h
    with ⟨heq, -⟩ | ⟨b, hb, -⟩ | ⟨base, frames, regs, hboot, -⟩
  · exact heq ▸ hinv.contexts
  · exact FpuState.inv_of_clean_step hinv.contexts hb
  · exact fun _ => hboot ▸ FpuState.inv_boot base frames regs

theorem ContextInv.contextsSurvive_step_iff (hinv : s.ContextInv)
    (hsurvive : s.fpu.ContextsSurvive) (h : libraryStep cpu s a = some t) :
    t.fpu.ContextsSurvive ↔ s.FirstUserStays a := by
  have hclean := hsurvive.toClean
  rcases fpu_step hinv.handlers (card_libraryLevels_le binaryPoint) h
    with ⟨heq, hstays⟩ | ⟨b, hb, hiff⟩ | ⟨base, frames, regs, hboot, hstays⟩
  · exact iff_of_true (heq ▸ hsurvive) hstays
  · rw [← hiff]
    constructor
    · intro hsurvive'
      by_contra hreturns
      exact FpuState.not_clean_step (hinv.contexts hclean) hreturns hb
        hsurvive'.toClean
    · intro hstays
      obtain ⟨hinv', hclean'⟩ :=
        FpuState.inv_step (hinv.contexts hclean) hclean hstays hb
      exact hinv'.contextsSurvive hclean'
  · have hboot' := FpuState.inv_boot base frames regs
    exact iff_of_true
      (hboot ▸ hboot'.contextsSurvive (FpuState.clean_boot base frames regs))
      hstays

end Preemptible

/-- Payloads that set up their interrupts through the payload library, one after
the other on a core where all that is in group 1 at first has a priority of the
library, whatever the binary point: the save area is never left and every
interrupted context resumes with its floating point registers, exactly when no
handler returns that has executed the first floating point instruction of its
payload. -/
theorem libraryPayloads_contextsSurvive_iff
    (binaryPoint : ℕ) (cpu : DomainIndex) (irq : Interrupts)
    (hirq : irq.RoutedByLibrary) (base : ℤ) (frames : ℤ → Aarch64FpRegs)
    (regs : Aarch64FpRegs)
    (schedule : List (PreemptAction PayloadInterruptPriority)) :
    Throughout (libraryStep cpu) (.boot binaryPoint cpu irq base frames regs)
        schedule (fun s => s.fpu.ContextsSurvive) ↔
      EachStep (libraryStep cpu) (.boot binaryPoint cpu irq base frames regs)
        schedule Preemptible.FirstUserStays := by
  have hfpu := FpuState.inv_boot base frames regs
  have hinv : (Preemptible.boot binaryPoint cpu irq base frames
      regs).ContextInv :=
    { handlers :=
        Preemptible.inv_boot (hirq.routedWithin binaryPoint) base frames regs
      contexts := fun _ => hfpu }
  apply throughout_iff_eachStep
    (fun s a t (hinv : s.ContextInv) h => hinv.step h)
    (fun s a t hinv hsurvive h => hinv.contextsSurvive_step_iff hsurvive h) hinv
  exact hfpu.contextsSurvive (FpuState.clean_boot base frames regs)

/-- A handler of interrupt 121 executes the first floating point instruction and
returns. -/
def libraryHandlerFirst : List (PreemptAction PayloadInterruptPriority) :=
  [.configure 121 .p7Max, .enable 121, .irq 121, .acknowledge 121 true, .trap,
    .endOfInterrupt]

theorem libraryPayloads_contextsSurvive_iff_handlerFirst :
    ∃ regs : Aarch64FpRegs,
      ¬Throughout (libraryStep .cpu1)
        (.boot 3 .cpu1 .reset 0 (fun _ => regs) regs)
        (libraryHandlerFirst ++ [.ret]) (fun s => s.fpu.ContextsSurvive) := by
  let regs := IpcBlock.zero.executorToManager.fpregs
  have hreset : Interrupts.reset.RoutedByLibrary := by
    intro id _ hgroup
    have hzero : Interrupts.reset.gicd.inGroup1 id = false :=
      BitVec.getLsbD_zero
    exact absurd (hzero.symm.trans hgroup) (by decide)
  refine ⟨regs, ?_⟩
  rw [libraryPayloads_contextsSurvive_iff 3 .cpu1 .reset hreset 0
    (fun _ => regs) regs]
  intro heach
  have hrun : (run (libraryStep .cpu1)
      (Preemptible.boot 3 .cpu1 .reset 0 (fun _ => regs) regs)
      libraryHandlerFirst).any (fun t => decide (t.fpu.firstUse = some 1 ∧
        t.fpu.irqFrames.length = 1) &&
          (libraryStep .cpu1 t .ret).isSome) = true := by
    decide
  obtain ⟨t, ht, htest⟩ := (Option.any_eq_true _ _).mp hrun
  rw [Bool.and_eq_true, decide_eq_true_eq] at htest
  obtain ⟨⟨hfirst, hlength⟩, hsome⟩ := htest
  obtain ⟨u, hu⟩ := Option.isSome_iff_exists.mp hsome
  have hstays : t.fpu.firstUse ≠ some t.fpu.irqFrames.length :=
    heach libraryHandlerFirst .ret t u (List.prefix_refl _) ht hu
  exact hstays (hlength ▸ hfirst)

/-! ## The priorities that the monitor accepts -/

/-- The interrupts routed to EL1 have priorities that the monitor accepts. -/
def Interrupts.RoutedByMonitor (irq : Interrupts) : Prop :=
  ∀ id, UserInterrupt id → irq.gicd.inGroup1 id = true →
    PayloadPriority (irq.gicd.ipriorityr id).toNat

def acceptedLevels (binaryPoint : ℕ) : Finset ℕ :=
  Finset.Icc (0x80 / 2 ^ binaryPoint) (0xf0 / 2 ^ binaryPoint)

theorem level_mem_acceptedLevels (binaryPoint : ℕ) {priority : BitVec 8}
    (h : PayloadPriority priority.toNat) :
    preemptionLevel binaryPoint priority ∈ acceptedLevels binaryPoint := by
  obtain ⟨hmin, hmax⟩ := payloadPriority_iff.mp h
  rw [acceptedLevels, Finset.mem_Icc]
  constructor
  · exact Nat.div_le_div_right (by omega)
  · exact Nat.div_le_div_right (by omega)

/-- Four bits of a priority tell the accepted ones apart into eight levels. -/
theorem card_acceptedLevels_le {binaryPoint : ℕ} (h : 4 ≤ binaryPoint) :
    (acceptedLevels binaryPoint).card ≤ maxActiveHandlers := by
  obtain ⟨k, rfl⟩ := Nat.exists_eq_add_of_le h
  have hlow : 0x80 / 2 ^ (4 + k) = 8 / 2 ^ k := by
    simp [pow_add, ← Nat.div_div_eq_div_mul]
  have hhigh : 0xf0 / 2 ^ (4 + k) = 15 / 2 ^ k := by
    simp [pow_add, ← Nat.div_div_eq_div_mul]
  rw [acceptedLevels, Nat.card_Icc, hlow, hhigh, maxActiveHandlers]
  rcases Nat.eq_zero_or_pos k with rfl | hk
  · decide
  · have htwo : 2 ≤ 2 ^ k := Nat.le_self_pow hk.ne' 2
    have hle : 15 / 2 ^ k ≤ 15 / 2 := Nat.div_le_div_left htwo (by decide)
    exact (Nat.sub_le _ _).trans (Nat.succ_le_succ hle)

/-- Nine interrupts whose priorities differ in the upper five bits, the least
urgent one first. -/
def nineInterrupts : List (PreemptAction ℤ) :=
  (List.range 9).flatMap fun i =>
    [.configure (32 + i) (0xc0 - 8 * i), .enable (32 + i), .irq (32 + i),
      .acknowledge (32 + i) true]

/-- Whatever calls about interrupts 0 to 187 the payloads on a core make, never are
there more than eight interrupt frames, that is handlers one inside the other,
exactly if at most the upper four bits of a priority count for preemption.  At
first all that is in group 1 has a priority that the monitor accepts. -/
theorem eightHandlers_iff (binaryPoint : ℕ) :
    (∀ (cpu : DomainIndex) (irq : Interrupts) (base : ℤ)
        (frames : ℤ → Aarch64FpRegs) (regs : Aarch64FpRegs)
        (schedule : List (PreemptAction ℤ)), irq.RoutedByMonitor →
      Throughout (Preemptible.step cpu id)
        (.boot binaryPoint cpu irq base frames regs) schedule
        fun s => s.fpu.irqFrames.length ≤ maxActiveHandlers) ↔
      4 ≤ binaryPoint := by
  constructor
  · intro hall
    by_contra hlt
    let regs := IpcBlock.zero.executorToManager.fpregs
    have hreset : Interrupts.reset.RoutedByMonitor := by
      intro id _ hgroup
      have hzero : Interrupts.reset.gicd.inGroup1 id = false :=
        BitVec.getLsbD_zero
      exact absurd (hzero.symm.trans hgroup) (by decide)
    have hrun : (run (Preemptible.step .cpu1 id)
        (Preemptible.boot binaryPoint .cpu1 .reset 0 (fun _ => regs) regs)
        nineInterrupts).any
          (fun t => decide (t.fpu.irqFrames.length = 9)) = true := by
      have hcases : binaryPoint = 0 ∨ binaryPoint = 1 ∨ binaryPoint = 2 ∨
          binaryPoint = 3 := by omega
      rcases hcases with rfl | rfl | rfl | rfl <;> decide
    obtain ⟨t, ht, hnine⟩ := (Option.any_eq_true _ _).mp hrun
    have height : t.fpu.irqFrames.length ≤ maxActiveHandlers := hall .cpu1 .reset 0 (fun _ => regs) regs nineInterrupts
      hreset nineInterrupts t (List.prefix_refl _) ht
    rw [of_decide_eq_true hnine] at height
    exact absurd height (by decide)
  · intro hle cpu irq base frames regs schedule hirq before t _ hrun
    have hcode : ∀ p, PayloadPriority p →
        preemptionLevel binaryPoint (BitVec.ofInt 8 p) ∈
          acceptedLevels binaryPoint := by
      intro p hp
      apply level_mem_acceptedLevels
      rw [hp.toNat_ofInt]
      exact hp
    have hinv := Preemptible.inv_of_run hcode
      (Preemptible.inv_boot (fun id hid hgroup =>
        level_mem_acceptedLevels binaryPoint (hirq id hid hgroup))
        base frames regs) hrun
    exact hinv.room.trans (card_acceptedLevels_le hle)

/-! ## Interrupts of a new payload -/

namespace Preemptible

section NewPayload

variable {binaryPoint : ℕ} {P : Type*} {cpu : DomainIndex}
  {s t : Preemptible binaryPoint} {code : P → ℤ} {a : PreemptAction P}

/-- All levels there are. -/
def allLevels : Finset ℕ := Finset.range 256

theorem level_mem_allLevels (binaryPoint : ℕ) (priority : BitVec 8) :
    preemptionLevel binaryPoint priority ∈ allLevels :=
  Finset.mem_range.mpr
    ((Nat.div_le_self _ _).trans_lt (BitVec.isLt priority))

theorem inv_boot_allLevels (irq : Interrupts) (base : ℤ)
    (frames : ℤ → Aarch64FpRegs) (regs : Aarch64FpRegs) :
    (boot binaryPoint cpu irq base frames regs).Inv allLevels :=
  inv_boot (fun _ _ _ => level_mem_allLevels _ _) base frames regs

theorem inv_step_allLevels (hinv : s.Inv allLevels)
    (h : s.step cpu code a = some t) : t.Inv allLevels :=
  inv_step (fun _ _ => level_mem_allLevels _ _) hinv h

/-- While main runs no interrupt is active in the CPU interface. -/
theorem Inv.main {levels : Finset ℕ} (hinv : s.Inv levels)
    (hmain : s.fpu.irqFrames = []) :
    s.phase = .handler ∧ s.active.active = [] := by
  have hdepth := hinv.depth
  rw [hmain, List.length_nil, Nat.add_eq_zero_iff] at hdepth
  have hactive := List.length_eq_zero_iff.mp hdepth.1
  refine ⟨?_, hactive⟩
  cases hphase : s.phase with
  | handler => rfl
  | crash => exact absurd hactive (hinv.crash hphase)
  | acknowledge => simp [hphase, HandlerPhase.isActive] at hdepth
  | ret => simp [hphase, HandlerPhase.isActive] at hdepth
  | hang => simp [hphase, HandlerPhase.isActive] at hdepth

/-- An interrupt that has just been set up and enabled is signalled as soon as it
is pending, if it is more urgent than the active ones. -/
theorem Inv.signalled_setUp_iff {levels : Finset ℕ} (hinv : s.Inv levels)
    {id p : ℤ} (hid : Interrupts.UserInterrupt id) (hge : 16 ≤ id)
    (hp : PayloadPriority p) :
    ({ s with irq := (s.irq.smcConfigure cpu id p).enableInterrupt id } :
      Preemptible binaryPoint).Signalled cpu id ↔
      s.active.Preempts (preemptionLevel binaryPoint (BitVec.ofInt 8 p)) := by
  let d := (s.irq.smcConfigure cpu id p).gicd
  have hconfig := s.irq.config_smcConfigure cpu p hid.nonneg hid.nonneg
  rw [if_pos ⟨hp, hge, rfl⟩] at hconfig
  have hgroup : d.inGroup1 id = true :=
    congrArg Interrupts.Config.inGroup1 hconfig
  have hpriority : d.ipriorityr id = BitVec.ofInt 8 p :=
    congrArg Interrupts.Config.priority hconfig
  have htarget : id < 32 ∨ d.targets id cpu.cpuIndex = true := by
    have htargets : d.itargetsr id =
        if 32 ≤ id then 1#8 <<< cpu.cpuIndex else s.irq.gicd.itargetsr id :=
      congrArg Interrupts.Config.targets hconfig
    by_cases hspi : 32 ≤ id
    · right
      rw [Gicd.targets, htargets, if_pos hspi]
      cases cpu <;> decide
    · exact .inl (by omega)
  have henabled : (((d.clearPending id).clearActive id).setEnable id).enabled
      id = true := by
    rw [Gicd.enabled_setEnable _ hid.nonneg hid.nonneg]
    simp
  have hinactive : (((d.clearPending id).clearActive id).setEnable id).active
      id = false := by
    have hclear := (d.clearPending id).active_clearActive hid.nonneg hid.nonneg
    rw [decide_eq_true rfl, Bool.not_true, Bool.and_false] at hclear
    exact hclear
  have hgicc : (s.irq.smcConfigure cpu id p).gicc = s.irq.gicc :=
    (Interrupts.smcConfigure_sameInterface _ _ _ p).gicc
  have hmask : (d.ipriorityr id).toNat <
      (s.irq.smcConfigure cpu id p).gicc.pmr.toNat := by
    have hbyte := hp.toNat_ofInt
    have hmax := (payloadPriority_iff.mp hp).2
    have hpmr : (0xff : BitVec 32).toNat = 255 := by decide
    rw [hpriority, hgicc, hinv.pmr, hpmr]
    omega
  have hgrp : (s.irq.smcConfigure cpu id p).gicc.ctrl.getLsbD 1 = true := by
    rw [hgicc, hinv.ctrl]
    decide
  rw [signalled_iff]
  constructor
  · rintro ⟨-, -, -, -, -, -, -, hpreempts⟩
    exact hpriority ▸ hpreempts
  · intro hpreempts
    exact ⟨hid, henabled, hgroup, hinactive, htarget, hmask, hgrp,
      hpriority ▸ hpreempts⟩

end NewPayload

end Preemptible

/-- After any sequence of payloads from a start of the monitor on, whatever handlers
they were killed in: an interrupt that main or a handler sets up and enables is signalled, as soon as it
is pending, exactly if it is more urgent than all active ones; while main runs,
always. -/
theorem setUpInterrupt_signalled_iff
    (binaryPoint : ℕ) (cpu : DomainIndex) (irq : Interrupts) (base : ℤ)
    (frames : ℤ → Aarch64FpRegs) (regs : Aarch64FpRegs)
    (schedule : List (PreemptAction ℤ)) (s : Preemptible binaryPoint)
    (hrun : run (Preemptible.step cpu id)
      (.boot binaryPoint cpu irq base frames regs) schedule = some s)
    (interruptId priority : ℤ)
    (hid : 16 ≤ interruptId ∧ interruptId ≤ gicMaxUserInterruptId)
    (hpriority : PayloadPriority priority) :
    (s.phase = .handler →
      ∃ t, run (Preemptible.step cpu id) s
          [.configure interruptId priority, .enable interruptId] = some t ∧
        (t.Signalled cpu interruptId ↔
          s.active.Preempts
            (preemptionLevel binaryPoint (BitVec.ofInt 8 priority)))) ∧
      (s.fpu.irqFrames = [] →
        ∃ t, run (Preemptible.step cpu id) s
            [.configure interruptId priority, .enable interruptId] = some t ∧
          t.Signalled cpu interruptId) := by
  have huser : Interrupts.UserInterrupt interruptId :=
    ⟨le_trans (by decide) hid.1, hid.2⟩
  have hinv : s.Inv Preemptible.allLevels :=
    run_preserves (fun _ _ _ hinv h => Preemptible.inv_step_allLevels hinv h)
      (Preemptible.inv_boot_allLevels irq base frames regs) hrun
  have hcalls : s.phase = .handler →
      ∃ t, run (Preemptible.step cpu id) s
          [.configure interruptId priority, .enable interruptId] = some t ∧
        (t.Signalled cpu interruptId ↔
          s.active.Preempts
            (preemptionLevel binaryPoint (BitVec.ofInt 8 priority))) := by
    intro hphase
    refine ⟨_, run_cons_eq_some.mpr ⟨_, if_pos ⟨hphase, huser⟩,
      run_cons_eq_some.mpr ⟨_, if_pos ⟨hphase, huser⟩, rfl⟩⟩, ?_⟩
    exact hinv.signalled_setUp_iff huser hid.1 hpriority
  refine ⟨hcalls, ?_⟩
  intro hmain
  obtain ⟨hphase, hactive⟩ := hinv.main hmain
  obtain ⟨t, ht, hiff⟩ := hcalls hphase
  refine ⟨t, ht, hiff.mpr ?_⟩
  intro a ha
  rw [hactive] at ha
  exact absurd ha List.not_mem_nil

/-- A payload is killed in two nested handlers; the next one sets up the
interrupt of the outer handler. -/
def killedInHandlers : List (PreemptAction ℤ) :=
  [.configure 121 0xf0, .enable 121, .irq 121, .acknowledge 121 true,
    .configure 122 0x80, .enable 122, .irq 122, .acknowledge 122 true,
    .kill 0 (fun _ => IpcBlock.zero.executorToManager.fpregs)
      IpcBlock.zero.executorToManager.fpregs]

theorem setUpInterrupt_signalled_iff_killedInHandlers :
    ∃ s t, run (Preemptible.step .cpu1 id)
        (Preemptible.boot 3 .cpu1 .reset 0
          (fun _ => IpcBlock.zero.executorToManager.fpregs)
          IpcBlock.zero.executorToManager.fpregs) killedInHandlers = some s ∧
      run (Preemptible.step .cpu1 id) s [.configure 121 0xf0, .enable 121] =
        some t ∧
      t.Signalled .cpu1 121 := by
  have hrun : (run (Preemptible.step .cpu1 id)
      (Preemptible.boot 3 .cpu1 .reset 0
        (fun _ => IpcBlock.zero.executorToManager.fpregs)
        IpcBlock.zero.executorToManager.fpregs) killedInHandlers).any
      (fun t => decide (t.fpu.irqFrames.length = 0)) = true := by
    decide
  obtain ⟨s, hs, hmain⟩ := (Option.any_eq_true _ _).mp hrun
  have hframes := List.length_eq_zero_iff.mp (of_decide_eq_true hmain)
  obtain ⟨t, ht, hsignalled⟩ := (setUpInterrupt_signalled_iff 3 .cpu1 .reset 0 _
    _ killedInHandlers s hs 121 0xf0 (by decide) (by decide)).2 hframes
  exact ⟨s, t, hs, ht, hsignalled⟩

/-! ## Re-entrance -/

namespace Preemptible

/-- Handlers make no set-up. -/
def SetsUpInMain {binaryPoint : ℕ} (s : Preemptible binaryPoint) :
    PreemptAction ℤ → Prop
  | .configure _ _ => s.fpu.irqFrames = []
  | _ => True

/-- The active interrupts still have the priorities with which they were
acknowledged. -/
structure StableInv {binaryPoint : ℕ} (s : Preemptible binaryPoint) : Prop where
  handlers : s.Inv allLevels
  priority : ∀ a ∈ s.active.active, a.priority = s.irq.gicd.ipriorityr a.id

theorem StableInv.step {binaryPoint : ℕ} {cpu : DomainIndex}
    {s t : Preemptible binaryPoint} {a : PreemptAction ℤ}
    (hinv : s.StableInv) (hmain : s.SetsUpInMain a)
    (h : s.step cpu id a = some t) : t.StableInv := by
  refine ⟨inv_step_allLevels hinv.handlers h, ?_⟩
  have hpriority := hinv.priority
  refine step_cases
    (Q := fun a t => s.SetsUpInMain a → ∀ b ∈ t.active.active,
      b.priority = t.irq.gicd.ipriorityr b.id)
    h ?_ ?_ ?_ ?_ ?_ ?_ ?_ ?_ ?_ ?_ ?_ hmain
  case refine_1 =>
    intro id p _ _ hframes b hb
    have hempty : s.active.active = [] := (hinv.handlers.main hframes).2
    rw [hempty] at hb
    exact absurd hb List.not_mem_nil
  case refine_7 =>
    intro id registered _ hsignal _ b hb
    rcases List.mem_cons.mp hb with rfl | hb
    · rfl
    · exact hpriority b hb
  case refine_9 =>
    intro b rest phase _ _ _ c hc
    exact hpriority c (List.mem_of_mem_tail hc)
  case refine_11 => exact fun _ _ _ _ => nofun
  all_goals
    intros
    apply hpriority
    assumption

end Preemptible

/-- From a start of the monitor on, as long as only main sets up interrupts, no
handler is ever interrupted by its own interrupt, whether handlers enable it again
or not. -/
theorem handlers_not_reentered
    (binaryPoint : ℕ) (cpu : DomainIndex) (irq : Interrupts) (base : ℤ)
    (frames : ℤ → Aarch64FpRegs) (regs : Aarch64FpRegs)
    (schedule : List (PreemptAction ℤ))
    (hmain : EachStep (Preemptible.step cpu id)
      (.boot binaryPoint cpu irq base frames regs) schedule
      Preemptible.SetsUpInMain) :
    Throughout (Preemptible.step cpu id)
      (.boot binaryPoint cpu irq base frames regs) schedule
      fun s => (s.active.active.map ActiveInterrupt.id).Nodup := by
  intro before t hprefix hrun
  have hinv : t.StableInv := run_preserves_of_eachStep
    (fun s a t (hinv : s.StableInv) h hmain => hinv.step hmain h)
    ⟨Preemptible.inv_boot_allLevels irq base frames regs, nofun⟩
    (fun done a s u hdone => hmain done a s u (hdone.trans hprefix)) hrun
  apply t.active.nodup_keys ActiveInterrupt.id
    fun id => preemptionLevel binaryPoint (t.irq.gicd.ipriorityr id)
  intro a ha
  rw [ActiveInterrupt.level, hinv.priority a ha]

/-- A handler enables its own interrupt again. -/
def enablesItself : List (PreemptAction ℤ) :=
  [.configure 121 0xf0, .enable 121, .irq 121, .acknowledge 121 true,
    .enable 121]

theorem handlers_not_reentered_enablesItself :
    Throughout (Preemptible.step .cpu1 id)
      (Preemptible.boot 3 .cpu1 .reset 0
        (fun _ => IpcBlock.zero.executorToManager.fpregs)
        IpcBlock.zero.executorToManager.fpregs) enablesItself
      fun s => (s.active.active.map ActiveInterrupt.id).Nodup := by
  apply handlers_not_reentered
  refine eachStep_cons.mpr fun _ _ => ⟨rfl, ?_⟩
  iterate 4 refine eachStep_cons.mpr fun _ _ => ⟨trivial, ?_⟩
  exact eachStep_nil

end Bmboot
