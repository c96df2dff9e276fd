import Bmboot.Gic.OneInterrupt
import Bmboot.System.Commands
import Bmboot.System.OwnInterrupts

/-!
# Bringing a domain back

A domain whose monitor runs can be brought back to `monitor_ready` by the
manager alone, unless the payload has spoilt the configuration of the kill
interrupt or the monitor has crashed; and then nothing but the payload can
change that.

`KillReady` says at every point of the core that a kill request would be
taken.  From there the way back is a measure: each step of the handler and of
the setup goes down, and the end is the head of the monitor's loop.
-/

namespace Bmboot

open Interrupts Routine StepSystem

/-! ## A request would be taken -/

namespace Interrupts

/-- The channel with nothing but a kill request in it. -/
def withKill (irq : Interrupts) : Interrupts :=
  { irq with ipi := { irq.ipi with isr := killMask } }

/-- A kill request would be signalled. -/
def killDeliverable (cpu : DomainIndex) (irq : Interrupts) : Bool :=
  irq.withKill.fiqSignalled cpu

/-- A kill request would be signalled, and exceptions are not masked. -/
structure TakesKill (cpu : DomainIndex) (irq : Interrupts) : Prop where
  deliverable : irq.killDeliverable cpu = true
  unmasked : irq.fiqMasked = false

variable {cpu : DomainIndex} {irq : Interrupts}

/-- With a request in the channel, deliverable means signalled. -/
theorem fiqSignalled_of_killPending
    (honly : irq.OnlyKill) (hpending : irq.killPending = true) :
    irq.fiqSignalled cpu = irq.killDeliverable cpu := by
  rcases honly.isr_eq with hisr | hisr
  · simp [killPending, hisr] at hpending
  · rw [killDeliverable, withKill, ← hisr]

theorem fiqMasked_unmaskAll (irq : Interrupts) :
    irq.unmaskAll.fiqMasked = false := by
  simp [fiqMasked, unmaskAll]

/-- After the setup a request would be taken. -/
theorem takesKill_setupInterrupts
    (cpu : DomainIndex) (irq : Interrupts) :
    (setupInterrupts cpu irq).TakesKill cpu := by
  have hconf := ipiConfigured_setupInterrupts cpu irq
  have hline : (setupInterrupts cpu irq).withKill.ipiLine = true := by
    have hmask : killMask &&& (irq.ipi.enabled ||| killMask) = killMask := by
      refine BitVec.eq_of_getLsbD_eq fun i hi => ?_
      rw [BitVec.getLsbD_and, BitVec.getLsbD_or]
      cases irq.ipi.enabled.getLsbD i <;> cases killMask.getLsbD i <;> rfl
    have hipi :
        (setupInterrupts cpu irq).ipi.enabled = irq.ipi.enabled ||| killMask := by
      cases cpu <;> rfl
    rw [ipiLine, withKill, hipi, hmask]
    decide
  have htarget : (setupInterrupts cpu irq).gicd.targets cpu.ipiInterruptId
      cpu.cpuIndex = true := by
    rw [Gicd.targets, hconf.target]
    cases cpu <;> decide
  have hpmr : (setupInterrupts cpu irq).gicc.pmr = 0xff :=
    congrArg Gicc.pmr (gicc_setupInterrupts cpu irq)
  have hctrl : (setupInterrupts cpu irq).gicc.ctrl = gicCtrlValue :=
    congrArg Gicc.ctrl (gicc_setupInterrupts cpu irq)
  constructor
  · have hgicd : (setupInterrupts cpu irq).withKill.gicd =
        (setupInterrupts cpu irq).gicd := rfl
    have hsame : (setupInterrupts cpu irq).withKill.gicc =
        (setupInterrupts cpu irq).gicc := rfl
    rw [killDeliverable, fiqSignalled, hline, hgicd, hsame, hconf.enabled,
      hconf.group, active_setupInterrupts, htarget, hconf.priority, hpmr, hctrl]
    decide
  · exact fiqMasked_setupInterrupts cpu irq

end Interrupts

/-! ## The setup with a request arriving -/

/-- The channel's contents do not change the course of the setup. -/
theorem SetupPc.step_isr
    (cpu : DomainIndex) (irq : Interrupts) (pc : SetupPc) (isr : BitVec 32) :
    ∃ isr', pc.step cpu { irq with ipi := { irq.ipi with isr := isr } } =
      ({ (pc.step cpu irq).1 with
          ipi := { (pc.step cpu irq).1.ipi with isr := isr' } },
        (pc.step cpu irq).2) := by
  cases pc with
  | recordRouting =>
      refine ⟨isr, ?_⟩
      simp only [SetupPc.step, Interrupts.recordRouting]
      split_ifs <;> rfl
  | writeIsr => exact ⟨isr &&& ~~~getIpiPeerMask ipiSrcBmbootManager, rfl⟩
  | _ => exact ⟨isr, rfl⟩

/-- The setup ends in the same way, up to the channel, whatever was in it. -/
theorem setup_completes_isr
    {cpu : DomainIndex} {irq irq' : Interrupts} {pc : SetupPc}
    (h : Completes (SetupPc.step cpu) irq pc irq' ()) (isr : BitVec 32) :
    ∃ isr', Completes (SetupPc.step cpu)
      { irq with ipi := { irq.ipi with isr := isr } } pc
      { irq' with ipi := { irq'.ipi with isr := isr' } } () := by
  generalize hr : () = r at h
  induction h generalizing isr with
  | ret hstep =>
      obtain ⟨isr', hisr⟩ := SetupPc.step_isr cpu _ _ isr
      rw [hstep] at hisr
      exact ⟨isr', .ret hisr⟩
  | goto hstep _ ih =>
      obtain ⟨isr', hisr⟩ := SetupPc.step_isr cpu _ _ isr
      rw [hstep] at hisr
      obtain ⟨isr'', hrest⟩ := ih isr' hr
      exact ⟨isr'', .goto hisr hrest⟩

/-! ## At every point of the core -/

/-- A kill request would be taken, or the setup on its way will see to that.  A
payload can spoil the configuration, but does not mask exceptions. -/
def MonitorPc.KillReady (cpu : DomainIndex) (irq : Interrupts) : MonitorPc → Prop
  | .inReset | .fiq _ | .boot | .crashed => True
  | .setup pc =>
      ∀ irq', Completes (SetupPc.step cpu) irq pc irq' () → irq'.TakesKill cpu
  | .command (.flushInvalidate currmask) | .command (.flushRestore currmask) =>
      irq.killDeliverable cpu = true ∧ currmask &&& daifFMask = 0
  | .el1 .payload => irq.fiqMasked = false
  | .publishReady | .loop _ | .noop _ | .command _ | .accepted _ | .rejected
  | .enterDummy | .el1 .dummy => irq.TakesKill cpu

/-- The accesses left of the teardown and the restart after it. -/
def TeardownPc.distance : TeardownPc → ℕ
  | .disableTimer => 301
  | .clearNsapr0 => 300
  | .loop id => 20 + (gicMaxUserInterruptId + 1 - id).toNat

def FiqPc.distance : FiqPc → ℕ
  | .readIar => 305
  | .readIsr _ => 304
  | .writeIsr _ _ => 303
  | .writeEoir _ _ => 302
  | .teardown pc => pc.distance

def SetupPc.distance : SetupPc → ℕ
  | .writeBpr => 16
  | .writePmr => 15
  | .writeCtrl => 14
  | .readDaif => 13
  | .writeDaif _ => 12
  | .readGroup => 11
  | .writeGroup _ => 10
  | .recordRouting => 9
  | .writePriority => 8
  | .writeTargets => 7
  | .clearPending => 6
  | .clearActive => 5
  | .setEnable => 4
  | .writeIsr => 3
  | .writeIer => 2

/-- The steps left until the head of the monitor's loop, on the way through the
handler of a kill request. -/
def MonitorPc.distance : MonitorPc → ℕ
  | .command (.flushInvalidate _) => 402
  | .command (.flushRestore _) => 401
  | .fiq pc => pc.distance
  | .boot => 17
  | .setup pc => pc.distance
  | .publishReady => 1
  | .loop .readSeq => 0
  | _ => 400

section KillReady

variable {cpu : DomainIndex} {s t : System} {a : Action}

theorem TakesKill.raiseKill
    {irq : Interrupts} (h : irq.TakesKill cpu) : irq.raiseKill.TakesKill cpu :=
  ⟨h.deliverable, h.unmasked⟩

theorem MonitorPc.KillReady.raiseKill
    {irq : Interrupts} {pc : MonitorPc} (h : pc.KillReady cpu irq) :
    pc.KillReady cpu irq.raiseKill := by
  match pc, h with
  | .inReset, _ | .fiq _, _ | .boot, _ | .crashed, _ => trivial
  | .setup pc, h =>
      intro irq' hcompletes
      obtain ⟨isr', hisr⟩ := setup_completes_isr hcompletes irq.ipi.isr
      have hkill := h _ hisr
      exact ⟨hkill.deliverable, hkill.unmasked⟩
  | .command (.flushInvalidate _), h | .command (.flushRestore _), h => exact h
  | .el1 .payload, h => exact h
  | .publishReady, h | .loop _, h | .noop _, h | .accepted _, h | .rejected, h
  | .enterDummy, h | .el1 .dummy, h => exact TakesKill.raiseKill h
  | .command .writeState, h | .command .flushMask, h
  | .command .checkEntryAddress, h | .command .readEntryAddress, h
  | .command (.readSize _), h | .command (.readCrc _ _), h
  | .command (.validate _ _), h | .command (.writeResp _), h
  | .command (.readAck _), h | .command (.writeAck _ _), h =>
      exact TakesKill.raiseKill h

theorem killReady_setupStep
    {pc : SetupPc} (hpc : s.monitor = .setup pc)
    (hs : s.monitor.KillReady cpu s.irq) :
    (s.setupStep cpu pc).monitor.KillReady cpu (s.setupStep cpu pc).irq := by
  rw [hpc] at hs
  simp only [System.setupStep]
  split
  next irq pc' hstep =>
    intro irq' hcompletes
    exact hs irq' (.goto hstep hcompletes)
  next irq hstep => exact hs irq (.ret hstep)

theorem killReady_commandStep
    {pc : CommandPc} (hpc : s.monitor = .command pc)
    (hs : s.monitor.KillReady cpu s.irq) :
    (s.commandStep pc).monitor.KillReady cpu (s.commandStep pc).irq := by
  rw [hpc] at hs
  cases pc with
  | flushMask =>
      refine ⟨hs.deliverable, ?_⟩
      have hunmasked := hs.unmasked
      simpa [fiqMasked] using hunmasked
  | flushInvalidate currmask => exact hs
  | flushRestore currmask =>
      refine ⟨hs.1, ?_⟩
      have hmask := hs.2
      simp [System.commandStep, fiqMasked, System.gotoMonitor, hmask]
  | checkEntryAddress =>
      simp only [System.commandStep]
      split_ifs <;> exact hs
  | validate call pc =>
      simp only [System.commandStep]
      split <;> exact hs
  | writeAck resp ack =>
      simp only [System.commandStep]
      split_ifs <;> exact hs
  | _ => exact hs

theorem killReady_smcStep
    (c : SmcCall) (hpc : s.monitor = .el1 .payload)
    (hs : s.monitor.KillReady cpu s.irq) :
    (s.smcStep cpu c).monitor.KillReady cpu (s.smcStep cpu c).irq := by
  rw [hpc] at hs
  have hdaif : (c.apply cpu ⟨s.ipc, s.irq⟩).irq.daif = s.irq.daif := by
    rw [SmcCall.apply_irq]
    split_ifs
    · exact (smcConfigure_sameInterface ..).daif
    · rfl
    · rfl
    · rfl
  cases hsaved : (handleSmc cpu c.mem ⟨s.ipc, s.irq⟩ c.regs).2 with
  | none =>
      have hmonitor : (s.smcStep cpu c).monitor = .crashed := by
        simp [System.smcStep, hsaved]
      rw [hmonitor]
      trivial
  | some saved =>
      have hmonitor : (s.smcStep cpu c).monitor = .el1 .payload := by
        simp [System.smcStep, hsaved]
      have hirq : (s.smcStep cpu c).irq = (c.apply cpu ⟨s.ipc, s.irq⟩).irq := by
        simp [System.smcStep, hsaved, SmcCall.apply]
      rw [hmonitor, hirq]
      change (c.apply cpu ⟨s.ipc, s.irq⟩).irq.fiqMasked = false
      rw [fiqMasked, hdaif]
      exact hs

theorem killReady_step
    (hs : s.monitor.KillReady cpu s.irq) (h : s.step cpu a = some t) : t.monitor.KillReady cpu t.irq := by
  refine System.step_cases_core
    (P := fun _ t => t.monitor.KillReady cpu t.irq) h
    ?startup ?terminate ?manager ?fiqStep ?boot
    (fun pc hpc => killReady_setupStep hpc hs) ?publishReady ?loop ?noop
    (fun pc hpc => killReady_commandStep hpc hs) ?accepted ?rejected ?enterDummy
    (fun _ _ _ => trivial) (fun c hpc => killReady_smcStep c hpc hs)
    (fun _ _ _ _ _ _ => trivial)
  case startup =>
    intro cntfrq pc _
    cases pc with
    | guard =>
        simp only [System.startupStep]
        split_ifs <;> exact hs
    | bootCore =>
        simp only [System.startupStep]
        split
        · trivial
        · exact hs
    | _ => exact hs
  case terminate =>
    intro pc _
    cases pc with
    | guard =>
        simp only [System.terminateStep]
        split_ifs <;> exact hs
    | writeCmd => exact hs
    | sendIpi => exact hs.raiseKill
  case manager =>
    intro a t _ hsame
    rw [hsame.monitor, hsame.irq]
    exact hs
  case fiqStep =>
    intro pc _
    simp only [System.fiqStep]
    split <;> trivial
  case boot =>
    intro _ irq' hcompletes
    have hsetup := (setup_completes cpu s.bootStep.irq).unique hcompletes
    rw [← hsetup.1]
    exact takesKill_setupInterrupts cpu _
  case publishReady =>
    intro hpc
    rw [hpc] at hs
    exact hs
  case loop =>
    intro pc hpc
    rw [hpc] at hs
    cases pc with
    | readSeq => exact hs
    | readAck seq =>
        simp only [System.loopStep]
        split_ifs <;> exact hs
    | readCmd =>
        simp only [System.loopStep]
        split_ifs <;> exact hs
  case noop =>
    intro pc hpc
    rw [hpc] at hs
    cases pc <;> exact hs
  case accepted =>
    intro pc hpc
    rw [hpc] at hs
    cases pc with
    | readEntryAddress => exact hs
    | enterEl1 address => exact fiqMasked_unmaskAll s.irq
  case rejected =>
    intro hpc
    rw [hpc] at hs
    exact hs
  case enterDummy =>
    intro hpc
    rw [hpc] at hs
    exact ⟨hs.deliverable, fiqMasked_unmaskAll s.irq⟩

/-- The facts about a state from which the way back can be told.  No history of
the manager is among them. -/
structure System.Sound (cpu : DomainIndex) (s : System) : Prop where
  state : StateInv s
  kill : KillInv cpu s
  command : CommandInv s
  killReady : s.monitor.KillReady cpu s.irq

theorem System.Initial.sound (hs : s.Initial) : s.Sound cpu where
  state := .initial hs
  kill := .initial hs
  command := .initial hs
  killReady := by
    rw [hs.monitor]
    trivial

theorem System.Sound.step
    (hs : s.Sound cpu) (h : s.step cpu a = some t) : t.Sound cpu where
  state := hs.state.step h
  kill := hs.kill.step h
  command := hs.command.step hs.state h
  killReady := killReady_step hs.killReady h

theorem System.Sound.run
    {as : List Action} (hs : s.Sound cpu)
    (h : StepSystem.run (System.step cpu) s as = some t) : t.Sound cpu :=
  run_preserves (fun _ _ _ hs h => System.Sound.step hs h) hs h

theorem System.Sound.reaches
    {P : Action → Prop} (hs : s.Sound cpu) (h : Reaches (System.step cpu) P s t) :
    t.Sound cpu := by
  obtain ⟨as, -, hrun⟩ := h
  exact hs.run hrun

theorem sound_of_reachable
    {allowed : System → Action → Prop}
    (h : Reachable (System.step cpu) System.Initial allowed s) : s.Sound cpu :=
  h.invariant (fun _ hs => hs.sound) fun _ _ _ _ hs _ ht => hs.step ht

theorem MonitorPc.KillReady.deliverable
    {irq : Interrupts} {pc : MonitorPc} (h : pc.KillReady cpu irq)
    (hmain : pc.InMain) (hpayload : pc ≠ .el1 .payload) :
    irq.killDeliverable cpu = true := by
  match pc, h with
  | .command (.flushInvalidate _), h | .command (.flushRestore _), h => exact h.1
  | .el1 .payload, _ => exact absurd rfl hpayload
  | .loop _, h | .noop _, h | .accepted _, h | .rejected, h | .enterDummy, h
  | .el1 .dummy, h => exact TakesKill.deliverable h
  | .command .writeState, h | .command .flushMask, h
  | .command .checkEntryAddress, h | .command .readEntryAddress, h
  | .command (.readSize _), h | .command (.readCrc _ _), h
  | .command (.validate _ _), h | .command (.writeResp _), h
  | .command (.readAck _), h | .command (.writeAck _ _), h =>
      exact TakesKill.deliverable h

/-- In `main` exceptions are masked around the flush of the instruction cache
only. -/
theorem MonitorPc.KillReady.unmasked_or
    {irq : Interrupts} {pc : MonitorPc} (h : pc.KillReady cpu irq)
    (hmain : pc.InMain) (hgoal : pc ≠ .loop .readSeq) :
    (irq.fiqMasked = false ∧ 305 < pc.distance) ∨
      ∃ currmask, pc = .command (.flushInvalidate currmask) ∨
        pc = .command (.flushRestore currmask) := by
  match pc, h with
  | .command (.flushInvalidate currmask), _ => exact .inr ⟨currmask, .inl rfl⟩
  | .command (.flushRestore currmask), _ => exact .inr ⟨currmask, .inr rfl⟩
  | .el1 .payload, h => exact .inl ⟨h, by decide⟩
  | .loop .readSeq, _ => exact absurd rfl hgoal
  | .loop (.readAck _), h | .loop .readCmd, h | .noop _, h | .accepted _, h
  | .rejected, h | .enterDummy, h | .el1 .dummy, h =>
      exact .inl ⟨h.unmasked, Nat.le_of_ble_eq_true rfl⟩
  | .command .writeState, h | .command .flushMask, h
  | .command .checkEntryAddress, h | .command .readEntryAddress, h
  | .command (.readSize _), h | .command (.readCrc _ _), h
  | .command (.validate _ _), h | .command (.writeResp _), h
  | .command (.readAck _), h | .command (.writeAck _ _), h =>
      exact .inl ⟨h.unmasked, Nat.le_of_ble_eq_true rfl⟩

end KillReady

/-! ## The way back -/

theorem TeardownPc.distance_step
    {irq irq' : Interrupts} {pc pc' : TeardownPc}
    (h : TeardownPc.step irq pc = (irq', .goto pc')) :
    pc'.distance < pc.distance := by
  cases pc with
  | disableTimer =>
      cases h
      decide
  | clearNsapr0 =>
      cases h
      decide
  | loop id =>
      simp only [TeardownPc.step] at h
      split at h
      next hmore =>
        cases h
        simp only [distance]
        omega
      · cases h

theorem TeardownPc.lt_distance (pc : TeardownPc) : 17 < pc.distance := by
  cases pc with
  | loop id =>
      simp only [distance]
      omega
  | _ => decide

theorem FiqPc.distance_step
    {cpu : DomainIndex} {irq irq' : Interrupts} {pc pc' : FiqPc}
    (h : pc.step cpu irq = (irq', .goto pc')) : pc'.distance < pc.distance := by
  cases pc with
  | readIar =>
      simp only [FiqPc.step] at h
      split at h
      · cases h
        exact Nat.lt_succ_self 304
      · cases h
  | readIsr iar =>
      cases h
      exact Nat.lt_succ_self 303
  | writeIsr iar sourceMask =>
      cases h
      exact Nat.lt_succ_self 302
  | writeEoir iar sourceMask =>
      simp only [FiqPc.step] at h
      split at h
      · cases h
        exact Nat.lt_succ_self 301
      · cases h
  | teardown pc =>
      simp only [FiqPc.step] at h
      split at h
      next hteardown =>
        cases h
        exact TeardownPc.distance_step hteardown
      · cases h

theorem FiqPc.lt_distance (pc : FiqPc) : 17 < pc.distance := by
  cases pc with
  | teardown pc => exact pc.lt_distance
  | _ =>
      simp only [distance]
      omega

theorem SetupPc.distance_step
    {cpu : DomainIndex} {irq irq' : Interrupts} {pc pc' : SetupPc}
    (h : pc.step cpu irq = (irq', .goto pc')) : pc'.distance < pc.distance := by
  cases pc <;> cases h <;> exact Nat.lt_succ_self _

theorem SetupPc.lt_distance (pc : SetupPc) : 1 < pc.distance := by
  cases pc <;> simp only [distance] <;> omega

/-- A domain on its way back: the manager waits, and short of the goal a
request that would be signalled is in the channel of a monitor in `main`. -/
structure System.WayBack (cpu : DomainIndex) (m : Manager) (s : System) :
    Prop where
  sound : s.Sound cpu
  manager : s.manager = m
  notReset : s.monitor ≠ .inReset
  notCrashed : s.monitor ≠ .crashed
  pending : s.monitor.InMain → s.monitor ≠ .loop .readSeq →
    s.irq.killPending = true ∧ s.irq.killDeliverable cpu = true

/-- Steps of the core and of the interrupt hardware. -/
def Action.IsRestart : Action → Prop
  | .monitor | .fiq => True
  | _ => False

section WayBack

variable {cpu : DomainIndex} {m : Manager} {s t : System} {a : Action}

theorem sameManager_of_ofCore
    (ha : a.OfCore) (h : s.step cpu a = some t) : System.SameManager s t := by
  refine System.step_cases_manager
    (P := fun a t => a.OfCore → System.SameManager s t) h
    (fun _ _ => False.elim) (fun _ _ _ => False.elim) (fun _ _ => False.elim)
    (fun _ _ _ => False.elim) (fun _ _ _ => False.elim) (fun _ _ => False.elim)
    (fun _ _ => False.elim) (fun _ => False.elim) (fun _ _ => False.elim)
    (fun _ => False.elim) (fun _ => False.elim)
    (fun _ _ _ _ hsame _ => hsame) ha

/-- A step of the core outside `main` and towards the goal. -/
theorem System.WayBack.next
    (hs : s.WayBack cpu m) (h : s.step cpu a = some t) (ha : a.IsRestart)
    (hreset : t.monitor ≠ .inReset) (hcrashed : t.monitor ≠ .crashed)
    (hpending : t.monitor.InMain → t.monitor ≠ .loop .readSeq →
      t.irq.killPending = true ∧ t.irq.killDeliverable cpu = true)
    (hlt : t.monitor.distance < s.monitor.distance) :
    ∃ a t, a.IsRestart ∧ s.step cpu a = some t ∧ t.WayBack cpu m ∧
      t.monitor.distance < s.monitor.distance := by
  have hcore : a.OfCore := by
    cases a <;> first | exact ha.elim | trivial
  have hmanager := (sameManager_of_ofCore hcore h).manager
  exact ⟨a, t, ha, h,
    { sound := hs.sound.step h
      manager := hmanager.trans hs.manager
      notReset := hreset
      notCrashed := hcrashed
      pending := hpending }, hlt⟩

/-- In `main`, the request is taken, or the mask around the flush comes off. -/
theorem System.WayBack.next_main
    (hs : s.WayBack cpu m) (hmain : s.monitor.InMain)
    (hgoal : s.monitor ≠ .loop .readSeq) :
    ∃ a t, a.IsRestart ∧ s.step cpu a = some t ∧ t.WayBack cpu m ∧
      t.monitor.distance < s.monitor.distance := by
  have hready := hs.sound.killReady
  have honly := hs.sound.kill.onlyKill
  obtain ⟨hpending, hdeliverable⟩ := hs.pending hmain hgoal
  have hsignalled : s.irq.fiqSignalled cpu = true := by
    rw [fiqSignalled_of_killPending honly hpending]
    exact hdeliverable
  have htake : s.irq.fiqMasked = false →
      s.step cpu .fiq = some s.takeFiq := by
    intro hunmasked
    simp only [System.step, System.fiq]
    split
    next hin => exact absurd hin hs.notReset
    · rw [if_pos ⟨hsignalled, by simp [hunmasked]⟩]
  rcases hready.unmasked_or hmain hgoal with ⟨hunmasked, hfar⟩ | ⟨currmask, hpc | hpc⟩
  · exact hs.next (htake hunmasked) trivial MonitorPc.noConfusion MonitorPc.noConfusion False.elim hfar
  · have hstep :
        s.step cpu .monitor =
          some (s.gotoMonitor (.command (.flushRestore currmask))) := by
      simp [System.step, System.monitorStep, hpc, System.commandStep]
    refine hs.next hstep trivial MonitorPc.noConfusion MonitorPc.noConfusion (fun _ _ => ⟨hpending, hdeliverable⟩) ?_
    rw [hpc]
    exact Nat.lt_succ_self 401
  · have hstep :
        s.step cpu .monitor =
          some ({ s with irq := { s.irq with daif := currmask } }.gotoMonitor
            (.command .checkEntryAddress)) := by
      simp [System.step, System.monitorStep, hpc, System.commandStep]
    refine hs.next hstep trivial MonitorPc.noConfusion MonitorPc.noConfusion (fun _ _ => ⟨hpending, hdeliverable⟩) ?_
    rw [hpc]
    exact Nat.lt_succ_self 400

/-- Short of the goal, some step of the core goes towards it. -/
theorem System.WayBack.exists_step
    (hs : s.WayBack cpu m) (hgoal : s.monitor ≠ .loop .readSeq) :
    ∃ a t, a.IsRestart ∧ s.step cpu a = some t ∧ t.WayBack cpu m ∧
      t.monitor.distance < s.monitor.distance := by
  have hkill := hs.sound.kill
  by_cases hmain : s.monitor.InMain
  · exact hs.next_main hmain hgoal
  cases hpc : s.monitor with
  | inReset => exact absurd hpc hs.notReset
  | crashed => exact absurd hpc hs.notCrashed
  | loop pc | noop pc | command pc | accepted pc | el1 pc =>
      rw [hpc] at hmain
      exact absurd trivial hmain
  | rejected | enterDummy =>
      rw [hpc] at hmain
      exact absurd trivial hmain
  | fiq pc =>
      have hstep : s.step cpu .monitor = some (s.fiqStep cpu pc) := by
        simp only [System.step, System.monitorStep, hpc]
      rw [← hpc]
      cases hfiq : pc.step cpu s.irq with
      | mk irq next =>
          cases next with
          | goto pc' =>
              have ht : s.fiqStep cpu pc = (s.setIrq irq).gotoMonitor (.fiq pc') := by
                simp only [System.fiqStep, hfiq]
              rw [ht] at hstep
              refine hs.next hstep trivial MonitorPc.noConfusion MonitorPc.noConfusion False.elim ?_
              rw [hpc]
              exact FiqPc.distance_step hfiq
          | ret outcome =>
              obtain ⟨rfl, -⟩ := (hkill.fiq pc hpc).step_ret hkill.onlyKill hfiq
              have ht : s.fiqStep cpu pc = (s.setIrq irq).gotoMonitor .boot := by
                simp only [System.fiqStep, hfiq]
              rw [ht] at hstep
              refine hs.next hstep trivial MonitorPc.noConfusion MonitorPc.noConfusion False.elim ?_
              rw [hpc]
              exact pc.lt_distance
  | boot =>
      have hstep : s.step cpu .monitor = some s.bootStep := by
        simp only [System.step, System.monitorStep, hpc]
      rw [← hpc]
      refine hs.next hstep trivial MonitorPc.noConfusion MonitorPc.noConfusion False.elim ?_
      rw [hpc]
      exact Nat.lt_succ_self 16
  | setup pc =>
      have hstep : s.step cpu .monitor = some (s.setupStep cpu pc) := by
        simp only [System.step, System.monitorStep, hpc]
      rw [← hpc]
      cases hsetup : pc.step cpu s.irq with
      | mk irq next =>
          cases next with
          | goto pc' =>
              have ht : s.setupStep cpu pc =
                  (s.setIrq irq).gotoMonitor (.setup pc') := by
                simp only [System.setupStep, hsetup]
              rw [ht] at hstep
              refine hs.next hstep trivial MonitorPc.noConfusion MonitorPc.noConfusion False.elim ?_
              rw [hpc]
              exact SetupPc.distance_step hsetup
          | ret value =>
              have ht : s.setupStep cpu pc =
                  (s.setIrq irq).gotoMonitor .publishReady := by
                simp only [System.setupStep, hsetup]
              rw [ht] at hstep
              refine hs.next hstep trivial MonitorPc.noConfusion MonitorPc.noConfusion False.elim ?_
              rw [hpc]
              exact pc.lt_distance
  | publishReady =>
      have hstep : s.step cpu .monitor = some s.publishReadyStep := by
        simp only [System.step, System.monitorStep, hpc]
      rw [← hpc]
      refine hs.next hstep trivial MonitorPc.noConfusion MonitorPc.noConfusion (fun _ hne => absurd rfl hne) ?_
      rw [hpc]
      exact Nat.zero_lt_one

/-- On the way back the monitor gets to the head of its loop. -/
theorem System.WayBack.exists_run
    (hs : s.WayBack cpu m) :
    ∃ as t, (∀ a ∈ as, a.IsRestart) ∧ run (System.step cpu) s as = some t ∧
      t.WayBack cpu m ∧ t.monitor = .loop .readSeq :=
  exists_run_of_measure_of (fun _ hw hgoal => hw.exists_step hgoal) hs

end WayBack

/-! ## Recoverable and lost domains -/

theorem Action.IsRestart.unaided {a : Action} (ha : a.IsRestart) : a.Unaided := by
  cases a <;> first | exact ha.elim | trivial

/-- The manager can bring the domain back: the monitor runs, and a payload that
runs has left the kill interrupt as it has to be. -/
def System.Recoverable (cpu : DomainIndex) (s : System) : Prop :=
  s.monitor ≠ .inReset ∧ s.monitor ≠ .crashed ∧
    (s.monitor = .el1 .payload → s.irq.killDeliverable cpu = true)

/-- The core hangs in a crashed monitor, or runs a payload with a kill
interrupt that would not be signalled. -/
def System.Lost (cpu : DomainIndex) (s : System) : Prop :=
  s.monitor = .crashed ∨
    s.monitor = .el1 .payload ∧ s.irq.killDeliverable cpu = false

section Recovery

variable {cpu : DomainIndex} {s t : System} {a : Action}

theorem System.lost_of_not_recoverable
    (hreset : s.monitor ≠ .inReset) (h : ¬s.Recoverable cpu) : s.Lost cpu := by
  by_cases hcrashed : s.monitor = .crashed
  · exact .inl hcrashed
  · have hpayload : ¬(s.monitor = .el1 .payload → s.irq.killDeliverable cpu = true) :=
      fun himp => h ⟨hreset, hcrashed, himp⟩
    obtain ⟨hmonitor, hdeliverable⟩ := Classical.not_imp.mp hpayload
    exact .inr ⟨hmonitor, Bool.eq_false_of_not_eq_true hdeliverable⟩

/-- Once `terminatePayload` has sent its request, a recoverable domain is on
its way back. -/
theorem System.Recoverable.exists_wayBack
    (h : s.Sound cpu)
    (hidle : s.manager.pc = .idle) (hs : s.Recoverable cpu) :
    ∃ t, run (System.step cpu) s (.call .terminatePayload :: managerSteps 3) =
        some t ∧
      t.ipc.managerToExecutor.cmd = Command.noop.code ∧
      t.WayBack cpu
        { s.manager with
          pc := .await, call := some .terminatePayload, result := none } := by
  obtain ⟨hreset, hcrashed, hpayload⟩ := hs
  have hgeneral := h.state.started hreset
  have hcall : s.step cpu (.call .terminatePayload) =
      some (s.beginCall cpu .terminatePayload) := by
    simp only [System.step, System.callStep, hidle]
  have hguard :
      (s.beginCall cpu .terminatePayload).terminateStep .guard =
        (s.beginCall cpu .terminatePayload).gotoManager (.terminate .writeCmd) := by
    have hstarted :
        (s.beginCall cpu .terminatePayload).manager.generalState =
          .monitorStarted := hgeneral
    simp only [System.terminateStep, hstarted, ne_eq, not_true_eq_false, if_false]
  have hfirst :
      (s.beginCall cpu .terminatePayload).step cpu .manager =
        some ((s.beginCall cpu .terminatePayload).gotoManager
          (.terminate .writeCmd)) := congrArg some hguard
  have hrun :
      run (System.step cpu) s (.call .terminatePayload :: managerSteps 3) =
        some ((((s.beginCall cpu .terminatePayload).gotoManager
          (.terminate .writeCmd)).terminateStep .writeCmd).terminateStep
            .sendIpi) :=
    run_cons_eq_some.mpr ⟨_, hcall, run_cons_eq_some.mpr ⟨_, hfirst, rfl⟩⟩
  have hdeliverable :
      s.monitor.InMain → s.irq.killDeliverable cpu = true := by
    intro hmain
    by_cases hpc : s.monitor = .el1 .payload
    · exact hpayload hpc
    · exact h.killReady.deliverable hmain hpc
  exact ⟨_, hrun, rfl,
    { sound := h.run hrun
      manager := rfl
      notReset := hreset
      notCrashed := hcrashed
      pending := fun hmain _ => ⟨killPending_raiseKill, hdeliverable hmain⟩ }⟩

/-- A manager that waits for a monitor at the head of its loop returns. -/
theorem System.WayBack.await
    {m : Manager} (hs : s.WayBack cpu m) (hpc : m.pc = .await)
    (hmonitor : s.monitor = .loop .readSeq) :
    s.step cpu .manager = some (s.finish none) ∧ s.getState = .monitorReady := by
  have hstate := hs.sound.state
  have hword : s.ipc.executorToManager.state = DomainState.monitorReady.code := by
    have hok := hstate.state
    rw [hmonitor] at hok
    exact hok
  have hready : s.getState = .monitorReady :=
    System.getState_of_code (hstate.started hs.notReset) hword
  have hawait : s.manager.pc = .await := hs.manager ▸ hpc
  refine ⟨?_, hready⟩
  simp only [System.step, System.managerStep, hawait, System.awaitStep, hready,
    if_true]

/-- Steps of the core leave the manager alone. -/
theorem sameManager_of_run
    {as : List Action} (has : ∀ a ∈ as, a.IsRestart)
    (hrun : run (System.step cpu) s as = some t) : System.SameManager s t := by
  have hstep :
      ∀ u a v, System.SameManager s u → a.IsRestart → u.step cpu a = some v →
        System.SameManager s v := by
    intro u a v hu ha hv
    have hcore : a.OfCore := by
      cases a <;> first | exact ha.elim | trivial
    have hsame := sameManager_of_ofCore hcore hv
    exact ⟨hsame.manager.trans hu.manager, hsame.outbox.trans hu.outbox,
      hsame.mem.trans hu.mem, hsame.managerLog.trans hu.managerLog⟩
  exact run_preserves_of hstep ⟨rfl, rfl, rfl, rfl⟩ has hrun

/-- A recoverable domain can be terminated: the call returns success, the
monitor is at the head of its loop, and the command word is a noop. -/
theorem System.Recoverable.exists_terminated
    (h : s.Sound cpu)
    (hidle : s.manager.pc = .idle) (hs : s.Recoverable cpu) :
    ∃ as t, (∀ a ∈ as, a.Unaided) ∧
      run (System.step cpu) s (.call .terminatePayload :: as) = some t ∧
      t.manager.pc = .idle ∧ t.manager.call = some .terminatePayload ∧
      t.manager.result = some none ∧ t.getState = .monitorReady ∧
      t.monitor = .loop .readSeq ∧
      t.ipc.managerToExecutor.cmd = Command.noop.code := by
  obtain ⟨u, hcall, hnoop, hback⟩ := hs.exists_wayBack h hidle
  obtain ⟨as, v, has, hrun, hback', hmonitor⟩ := hback.exists_run
  obtain ⟨hreturn, hready⟩ := hback'.await rfl hmonitor
  have hmanager : v.manager.call = some .terminatePayload := by
    rw [hback'.manager]
  have hcmd : v.ipc.managerToExecutor.cmd = Command.noop.code := by
    rw [(sameManager_of_run has hrun).outbox, hnoop]
  refine ⟨managerSteps 3 ++ as ++ [.manager], v.finish none, ?_, ?_, rfl,
    hmanager, rfl, hready, hmonitor, hcmd⟩
  · intro a ha
    rcases List.mem_append.mp ha with ha | ha
    · rcases List.mem_append.mp ha with ha | ha
      · rw [List.eq_of_mem_replicate ha]
        trivial
      · exact (has a ha).unaided
    · rw [List.mem_singleton.mp ha]
      trivial
  · have hsplit :
        (Action.call .terminatePayload :: (managerSteps 3 ++ as ++ [.manager])) =
          (.call .terminatePayload :: managerSteps 3) ++ (as ++ [.manager]) := by
      simp
    rw [hsplit, run_append, hcall, Option.bind_some, run_append, hrun,
      Option.bind_some, StepSystem.run, hreturn, Option.bind_some]
    rfl

/-- Only the payload gets a lost domain out of that, and its state never reads
`monitor_ready`. -/
theorem System.Lost.step
    (h : s.Sound cpu)
    (hs : s.Lost cpu) (ha : a.Unaided) (ht : s.step cpu a = some t) :
    t.Lost cpu := by
  have hstate := h.state
  have honly := h.kill.onlyKill
  -- nothing but a hung monitor or a running payload is lost
  have hother :
      ∀ pc, s.monitor = pc → pc ≠ .crashed → pc ≠ .el1 .payload → False := by
    rintro pc hpc hcrashed hpayload
    rcases hs with hmonitor | ⟨hmonitor, -⟩
    · exact hcrashed (hpc.symm.trans hmonitor)
    · exact hpayload (hpc.symm.trans hmonitor)
  have hkeep :
      ∀ t : System, t.monitor = s.monitor →
        t.irq.killDeliverable cpu = s.irq.killDeliverable cpu → t.Lost cpu := by
    intro t hmonitor hirq
    rw [System.Lost, hmonitor, hirq]
    exact hs
  revert ha
  refine System.step_cases_core (P := fun a t => a.Unaided → t.Lost cpu) ht
    ?startup ?terminate ?manager
    (fun pc hpc _ => (hother _ hpc MonitorPc.noConfusion MonitorPc.noConfusion).elim)
    (fun hpc _ => (hother _ hpc MonitorPc.noConfusion MonitorPc.noConfusion).elim)
    (fun pc hpc _ => (hother _ hpc MonitorPc.noConfusion MonitorPc.noConfusion).elim)
    (fun hpc _ => (hother _ hpc MonitorPc.noConfusion MonitorPc.noConfusion).elim)
    (fun pc hpc _ => (hother _ hpc MonitorPc.noConfusion MonitorPc.noConfusion).elim)
    (fun pc hpc _ => (hother _ hpc MonitorPc.noConfusion MonitorPc.noConfusion).elim)
    (fun pc hpc _ => (hother _ hpc MonitorPc.noConfusion MonitorPc.noConfusion).elim)
    (fun pc hpc _ => (hother _ hpc MonitorPc.noConfusion MonitorPc.noConfusion).elim)
    (fun hpc _ => (hother _ hpc MonitorPc.noConfusion MonitorPc.noConfusion).elim)
    (fun hpc _ => (hother _ hpc MonitorPc.noConfusion MonitorPc.noConfusion).elim)
    ?fiq (fun _ _ ha => ha.elim)
    (fun _ _ _ _ _ hpc _ => (hother _ hpc MonitorPc.noConfusion MonitorPc.noConfusion).elim)
  case startup =>
    intro cntfrq pc _ _
    cases pc with
    | guard =>
        simp only [System.startupStep]
        split_ifs <;> exact hkeep _ rfl rfl
    | bootCore =>
        simp only [System.startupStep]
        split
        next hreset => exact (hother _ hreset MonitorPc.noConfusion MonitorPc.noConfusion).elim
        · exact hkeep _ rfl rfl
    | _ => exact hkeep _ rfl rfl
  case terminate =>
    intro pc _ _
    cases pc with
    | guard =>
        simp only [System.terminateStep]
        split_ifs <;> exact hkeep _ rfl rfl
    | _ => exact hkeep _ rfl rfl
  case manager =>
    intro a t _ hsame _
    exact hkeep t hsame.monitor (by rw [hsame.irq])
  case fiq =>
    intro _ hsignalled hunmasked _
    rcases hs with hcrashed | ⟨-, hspoilt⟩
    · exact absurd (hstate.masked hcrashed) (by simp [hunmasked])
    · have hpending := honly.killPending_of_fiqSignalled hsignalled
      rw [fiqSignalled_of_killPending honly hpending, hspoilt] at hsignalled
      cases hsignalled

/-- The state of a lost domain is one of a payload or of a crashed monitor. -/
theorem System.Lost.not_ready
    (h : s.Sound cpu) (hs : s.Lost cpu) : s.getState ≠ .monitorReady := by
  intro hready
  have hword := (System.getState_eq hready (by decide)).2
  have hok := h.state.state
  rcases hs with hmonitor | ⟨hmonitor, -⟩
  · rw [hmonitor, hword] at hok
    have hcode : DomainState.monitorReady.code = DomainState.crashedMonitor.code := hok
    exact absurd hcode (by decide)
  · rw [hmonitor, hword] at hok
    rcases hok with ⟨hstate, -⟩ | ⟨hstate, -⟩ | ⟨hstate, -⟩ <;>
      exact absurd hstate (by decide)

theorem System.Lost.run
    (h : s.Sound cpu)
    (hs : s.Lost cpu) {as : List Action} (has : ∀ a ∈ as, a.Unaided)
    (hrun : StepSystem.run (System.step cpu) s as = some t) :
    t.Sound cpu ∧ t.Lost cpu := by
  have hstep :
      ∀ (s : System) (a : Action) (t : System), s.Sound cpu ∧ s.Lost cpu →
        a.Unaided → s.step cpu a = some t → t.Sound cpu ∧ t.Lost cpu := by
    rintro s a t ⟨hsound, hlost⟩ ha ht
    exact ⟨hsound.step ht, hlost.step hsound ha ht⟩
  exact run_preserves_of hstep ⟨h, hs⟩ has hrun

/-- If payloads enable only what they have configured, then from every state with
the manager idle and the core out of reset: no interrupt but the kill interrupt
gets to the monitor; if the monitor has not crashed and a payload that runs has
left the kill interrupt deliverable, then `terminatePayload` can succeed with no
help from the payload, and the monitor waits for commands in a state from which
it can again; and otherwise nothing the manager or the core does makes the domain
read `monitor_ready` again. -/
theorem terminate_succeeds_or_lost
    (h : Reachable (System.step cpu) (System.QuietInitial cpu)
      (UsesOwnInterrupts cpu) s)
    (hidle : s.manager.pc = .idle) (hreset : s.monitor ≠ .inReset) :
    (∀ as t, (∀ a ∈ as, a.Unaided) → run (System.step cpu) s as = some t →
      t.OnlyKillReaches cpu) ∧
    (s.Recoverable cpu →
      ∃ as t, (∀ a ∈ as, a.Unaided) ∧
        run (System.step cpu) s (.call .terminatePayload :: as) = some t ∧
        t.manager.pc = .idle ∧ t.manager.call = some .terminatePayload ∧
        t.manager.result = some none ∧ t.getState = .monitorReady ∧
        t.monitor = .loop .readSeq ∧ t.Recoverable cpu) ∧
    (¬s.Recoverable cpu →
      ∀ as t, (∀ a ∈ as, a.Unaided) → run (System.step cpu) s as = some t →
        t.getState ≠ .monitorReady) := by
  have hsound : s.Sound cpu := sound_of_reachable (h.mono_init fun _ hs => hs.toInitial)
  refine ⟨?_, ?_, ?_⟩
  · intro as t has hrun
    exact onlyKillReaches_of_run (othersInv_of_reachable h)
      (fun a ha => (has a ha).onlyConfirms) hrun
  · intro hs
    obtain ⟨as, t, has, hrun, hpc, hcall, hresult, hready, hmonitor, -⟩ :=
      hs.exists_terminated hsound hidle
    refine ⟨as, t, has, hrun, hpc, hcall, hresult, hready, hmonitor, ?_⟩
    rw [System.Recoverable, hmonitor]
    exact ⟨MonitorPc.noConfusion, MonitorPc.noConfusion, MonitorPc.noConfusion⟩
  · intro hs as t has hrun
    obtain ⟨ht, hlost⟩ :=
      (System.lost_of_not_recoverable hreset hs).run hsound has hrun
    exact hlost.not_ready ht

/-- A payload that confirms its start and disables the kill interrupt of the
first core. -/
def unkillableSchedule : List Action :=
  startSchedule
    [smcCall smcNotifyPayloadStarted 0 0,
      smcCall smcZynqmpGicIrqDisable 67 0] ++ managerSteps 1

/-- That payload can no longer be stopped. -/
theorem terminate_succeeds_or_lost_disable67 :
    ∃ s, run (System.step .cpu1) System.powerOn unkillableSchedule = some s ∧
      s.manager.result = some none ∧
      ∀ as t, (∀ a ∈ as, a.Unaided) → run (System.step .cpu1) s as = some t →
        t.getState ≠ .monitorReady := by
  obtain ⟨s, hrun, hreach, hidle, hresult, hmonitor, hspoilt⟩ :=
    exists_run_of_restrict_run (System.step .cpu1) (UsesOwnInterrupts .cpu1)
      unkillableSchedule
      (fun s => s.manager.pc = .idle ∧ s.manager.result = some none ∧
        s.monitor = .el1 .payload ∧ s.irq.killDeliverable .cpu1 = false)
      (System.powerOn_quietInitial .cpu1) (by decide +kernel)
  have hreset : s.monitor ≠ .inReset := by
    rw [hmonitor]
    exact MonitorPc.noConfusion
  refine ⟨s, hrun, hresult,
    (terminate_succeeds_or_lost hreach hidle hreset).2.2 ?_⟩
  rintro ⟨-, -, hdeliverable⟩
  rw [hdeliverable hmonitor] at hspoilt
  cases hspoilt

end Recovery

end Bmboot
