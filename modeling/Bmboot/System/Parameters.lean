import Bmboot.System.Commands

/-!
# The parameters of a command

The manager writes the parameters of a command one by one, while no command is
pending.  At all other times the block carries those of the latest command, and
while `startPayloadAt` polls its command cannot be answered as a noop.
-/

namespace Bmboot

open StepSystem

/-- The block carries the parameters of a command. -/
structure ManagerToExecutor.Carries (m : ManagerToExecutor) (args : StartArgs) :
    Prop where
  entryAddress : m.payloadEntryAddress = args.entryAddress
  size : m.payloadSize = args.payloadSize
  crc : m.payloadCrc = args.payloadCrc
  argument : m.payloadArgument = args.payloadArgument

/-- The block carries the parameters of the latest command. -/
def System.CarriesLatest (s : System) : Prop :=
  ∀ args, s.managerLog.issued.getLast? = some args →
    s.ipc.managerToExecutor.Carries args

/-- What `startPayloadAt` has written. -/
def StartPc.ParamOk (s : System) (args : StartArgs) : StartPc → Prop
  | .writeSize =>
      s.ipc.managerToExecutor.payloadEntryAddress = args.entryAddress
  | .writeCrc =>
      s.ipc.managerToExecutor.payloadEntryAddress = args.entryAddress ∧
        s.ipc.managerToExecutor.payloadSize = args.payloadSize
  | .writeArgument =>
      s.ipc.managerToExecutor.payloadEntryAddress = args.entryAddress ∧
        s.ipc.managerToExecutor.payloadSize = args.payloadSize ∧
        s.ipc.managerToExecutor.payloadCrc = args.payloadCrc
  | .writeCmd => s.ipc.managerToExecutor.Carries args
  | .incrementSeq | .writeSeq _ =>
      s.ipc.managerToExecutor.Carries args ∧
        s.ipc.managerToExecutor.cmd = Command.startPayload.code
  | _ => s.CarriesLatest

def ManagerPc.ParamOk (s : System) : ManagerPc → Prop
  | .start args pc => pc.ParamOk s args
  | .poll _ =>
      s.CarriesLatest ∧
        s.ipc.managerToExecutor.cmd = Command.startPayload.code
  | _ => s.CarriesLatest

/-- Once a command has been issued, the command word is one of the two. -/
def System.CommandKnown (s : System) : Prop :=
  s.managerLog.issued ≠ [] →
    s.ipc.managerToExecutor.cmd = Command.noop.code ∨
      s.ipc.managerToExecutor.cmd = Command.startPayload.code

structure ParamInv (s : System) : Prop where
  manager : s.manager.pc.ParamOk s
  known : s.CommandKnown
  /-- A command that the monitor answers as a noop stays one. -/
  noop : ∀ pc, s.monitor = .noop pc →
    s.ipc.managerToExecutor.cmd = Command.noop.code
  /-- The command of a polling manager is answered with a verdict. -/
  answered : ∀ pc, s.manager.pc = .poll pc → s.mailbox.Settled →
    ∃ resp, s.monitorLog.outcomes.getLast? = some (.verdict resp)

section Invariant

variable {cpu : DomainIndex} {s t : System} {a : Action}

theorem ManagerPc.ParamOk.congr {pc : ManagerPc}
    (h : pc.ParamOk s)
    (houtbox : t.ipc.managerToExecutor = s.ipc.managerToExecutor)
    (hissued : t.managerLog.issued = s.managerLog.issued) : pc.ParamOk t := by
  have hlatest : s.CarriesLatest → t.CarriesLatest := by
    intro hlatest
    rw [System.CarriesLatest, hissued, houtbox]
    exact hlatest
  cases pc with
  | start args pc =>
      cases pc <;> simp only [ParamOk, StartPc.ParamOk, houtbox] at h ⊢ <;>
        first | exact h | exact hlatest h
  | poll pc => exact ⟨hlatest h.1, houtbox ▸ h.2⟩
  | _ => exact hlatest h

theorem ParamInv.initial (h : s.Initial) : ParamInv s where
  manager := by simp [h.pc, ManagerPc.ParamOk, System.CarriesLatest, h.issued]
  known := by simp [System.CommandKnown, h.issued]
  noop := by simp [h.monitor]
  answered := by simp [h.pc]

/-- The manager does not answer, and outside the polling loop nothing is known
about the answer. -/
theorem ParamInv.ofManager
    (hmonitor : t.monitor = s.monitor) (hknown : t.CommandKnown)
    (hnoop : ∀ pc, s.monitor = .noop pc →
      t.ipc.managerToExecutor.cmd = Command.noop.code)
    (hpc : t.manager.pc.ParamOk t)
    (hanswered : ∀ pc, t.manager.pc = .poll pc → t.mailbox.Settled →
      ∃ resp, t.monitorLog.outcomes.getLast? = some (.verdict resp)) :
    ParamInv t where
  manager := hpc
  known := hknown
  noop := by
    rw [hmonitor]
    exact hnoop
  answered := hanswered

/-- A step of the manager that does not write its half of the block. -/
theorem ParamInv.quiet
    (hs : ParamInv s) (hmonitor : t.monitor = s.monitor)
    (hissued : t.managerLog.issued = s.managerLog.issued)
    (hcmd : t.ipc.managerToExecutor.cmd = s.ipc.managerToExecutor.cmd)
    (hpc : t.manager.pc.ParamOk t)
    (hpoll : ∀ pc, t.manager.pc ≠ .poll pc) : ParamInv t := by
  refine ParamInv.ofManager hmonitor ?_ ?_ hpc fun pc h => absurd h (hpoll pc)
  · rw [System.CommandKnown, hissued, hcmd]
    exact hs.known
  · rw [hcmd]
    exact hs.noop

/-- Outside `startPayloadAt` the block carries the latest parameters. -/
theorem ParamInv.carriesLatest
    (hs : ParamInv s) (hpc : ∀ args pc, s.manager.pc ≠ .start args pc) :
    s.CarriesLatest := by
  have hok := hs.manager
  cases h : s.manager.pc with
  | start args pc => exact absurd h (hpc args pc)
  | poll pc =>
      rw [h] at hok
      exact hok.1
  | _ =>
      rw [h] at hok
      exact hok

/-- While a command is pending, the block carries its parameters. -/
theorem ParamInv.carries_of_pending
    (hs : ParamInv s) (hcommand : CommandInv s) (hpending : s.mailbox.Pending) :
    s.CarriesLatest := by
  have hok := hs.manager
  have hsettled := hcommand.manager
  cases h : s.manager.pc with
  | start args pc =>
      rw [h] at hok hsettled
      cases pc with
      | writeSeq seq => exact absurd hpending hsettled.2.1.not_pending
      | writeSize | writeCrc | writeArgument | writeCmd | incrementSeq =>
          exact absurd hpending hsettled.2.not_pending
      | _ => exact hok
  | _ => exact hs.carriesLatest (by simp [h])

/-! ## Steps of the manager -/

theorem ParamInv.finish
    (hs : ParamInv s) (hlatest : s.CarriesLatest) (r : MaybeError) :
    ParamInv (s.finish r) :=
  hs.quiet rfl rfl rfl hlatest nofun

theorem ParamInv.callStep
    (hs : ParamInv s) (c : Call) (hpc : s.manager.pc = .idle) :
    ParamInv (s.beginCall cpu c) := by
  have hlatest := hs.carriesLatest (by simp [hpc])
  cases c <;> exact hs.quiet rfl rfl rfl hlatest nofun

theorem ParamInv.startupStep
    (hs : ParamInv s) (hstate : StateInv s) (hcommand : CommandInv s)
    {cntfrq : BitVec 32} {pc : StartupPc}
    (hpc : s.manager.pc = .startup cntfrq pc) :
    ParamInv (s.startupStep cntfrq pc) := by
  have hlatest := hs.carriesLatest (by simp [hpc])
  have hreset := hstate.startup cntfrq pc hpc
  cases pc with
  | guard =>
      simp only [System.startupStep]
      split_ifs
      · exact hs.finish hlatest _
      · exact hs.quiet rfl rfl rfl hlatest (by rintro _ ⟨⟩)
  | clearIpc =>
      have hin : s.monitor = .inReset := hreset
      have hissued := (hcommand.fresh hin).1
      refine ParamInv.ofManager (s := s) rfl (fun _ => .inl rfl) ?_ ?_
        (by rintro _ ⟨⟩)
      · intro pc h
        rw [hin] at h
        cases h
      · intro args h
        simp [System.startupStep, System.gotoManager, hissued] at h
  | writeState => exact hs.quiet rfl rfl rfl hlatest (by rintro _ ⟨⟩)
  | writeCntfrq =>
      refine hs.quiet rfl rfl rfl ?_ (by rintro _ ⟨⟩)
      intro args h
      have hcarries := hlatest args h
      exact ⟨hcarries.1, hcarries.2, hcarries.3, hcarries.4⟩
  | bootCore =>
      have hin : s.monitor = .inReset := hreset.1
      simp only [System.startupStep, hin]
      exact ⟨hlatest, hs.known, (by rintro _ ⟨⟩), (by rintro _ ⟨⟩)⟩

theorem ParamInv.ensureStep
    (hs : ParamInv s) {cntfrq : BitVec 32}
    (hpc : s.manager.pc = .ensure cntfrq) : ParamInv (s.ensureStep cntfrq) := by
  have hlatest := hs.carriesLatest (by simp [hpc])
  simp only [System.ensureStep]
  split_ifs <;> exact hs.quiet rfl rfl rfl hlatest (by rintro _ ⟨⟩)

theorem ParamInv.loadStep
    (hs : ParamInv s) {load : Load} {pc : LoadPc}
    (hpc : s.manager.pc = .load load pc) : ParamInv (s.loadStep load pc) := by
  have hlatest := hs.carriesLatest (by simp [hpc])
  match pc with
  | .checkState =>
      simp only [System.loadStep]
      split_ifs <;> exact hs.quiet rfl rfl rfl hlatest (by rintro _ ⟨⟩)
  | .map =>
      simp only [System.loadStep]
      split <;> exact hs.quiet rfl rfl rfl hlatest (by rintro _ ⟨⟩)
  | .store ((address, b) :: rest) =>
      exact hs.quiet rfl rfl rfl hlatest (by rintro _ ⟨⟩)
  | .store [] =>
      simp only [System.loadStep]
      split <;> exact hs.quiet rfl rfl rfl hlatest (by rintro _ ⟨⟩)

theorem ParamInv.startStep
    (hs : ParamInv s) (hcommand : CommandInv s) {args : StartArgs}
    {pc : StartPc} (hpc : s.manager.pc = .start args pc) :
    ParamInv (s.startStep args pc) := by
  have hok := hs.manager
  rw [hpc] at hok
  cases pc with
  | checkState =>
      simp only [System.startStep]
      split_ifs <;> exact hs.quiet rfl rfl rfl hok (by rintro _ ⟨⟩)
  | readAck => exact hs.quiet rfl rfl rfl hok (by rintro _ ⟨⟩)
  | readSeq ack =>
      simp only [System.startStep]
      split_ifs <;> exact hs.quiet rfl rfl rfl hok (by rintro _ ⟨⟩)
  | readWrpos => exact hs.quiet rfl rfl rfl hok (by rintro _ ⟨⟩)
  | writeRdpos wrpos =>
      refine hs.quiet rfl rfl rfl ?_ (by rintro _ ⟨⟩)
      intro args h
      have hcarries := hok args h
      exact ⟨hcarries.1, hcarries.2, hcarries.3, hcarries.4⟩
  | writeEntryAddress => exact hs.quiet rfl rfl rfl rfl (by rintro _ ⟨⟩)
  | writeSize => exact hs.quiet rfl rfl rfl ⟨hok, rfl⟩ (by rintro _ ⟨⟩)
  | writeCrc => exact hs.quiet rfl rfl rfl ⟨hok.1, hok.2, rfl⟩ (by rintro _ ⟨⟩)
  | writeArgument =>
      exact hs.quiet rfl rfl rfl ⟨hok.1, hok.2.1, hok.2.2, rfl⟩ (by rintro _ ⟨⟩)
  | writeCmd =>
      refine ParamInv.ofManager (s := s) rfl (fun _ => .inr rfl) ?_
        ⟨⟨hok.1, hok.2, hok.3, hok.4⟩, rfl⟩ (by rintro _ ⟨⟩)
      -- a noop is answered only while its command is pending
      intro pc hmonitor
      have hsettled := hcommand.manager
      have hpending := hcommand.monitor
      rw [hpc] at hsettled
      rw [hmonitor] at hpending
      cases pc with
      | readAck => exact absurd hpending hsettled.2.not_pending
      | writeAck ack => exact absurd hpending.1 hsettled.2.not_pending
  | incrementSeq => exact hs.quiet rfl rfl rfl hok (by rintro _ ⟨⟩)
  | writeSeq seq =>
      obtain ⟨hcarries, hcmd⟩ := hok
      have hsettled := hcommand.manager
      rw [hpc] at hsettled
      refine ParamInv.ofManager (s := s) rfl (fun _ => .inr hcmd) hs.noop
        ⟨?_, hcmd⟩ ?_
      · intro last h
        have hlast : args = last := by
          simpa [System.startStep, System.gotoManager, System.setOutbox] using h
        rw [← hlast]
        exact ⟨hcarries.1, hcarries.2, hcarries.3, hcarries.4⟩
      · intro pc _ hagain
        exact absurd (Mailbox.pending_issue args hsettled.2.1)
          hagain.not_pending

theorem ParamInv.pollStep
    (hs : ParamInv s) {pc : PollPc} (hpc : s.manager.pc = .poll pc) :
    ParamInv (s.pollStep pc) := by
  have hok := hs.manager
  rw [hpc] at hok
  have hanswered := hs.answered pc hpc
  cases pc with
  | readAck => exact ⟨hok, hs.known, hs.noop, fun _ _ => hanswered⟩
  | readSeq ack =>
      simp only [System.pollStep]
      split_ifs <;> exact ⟨hok, hs.known, hs.noop, fun _ _ => hanswered⟩
  | readResp =>
      simp only [System.pollStep]
      split_ifs
      · exact ⟨hok, hs.known, hs.noop, fun _ _ => hanswered⟩
      all_goals exact hs.finish hok.1 _
  | readState =>
      simp only [System.pollStep]
      split_ifs
      · exact hs.finish hok.1 _
      · exact hs.finish hok.1 _
      · exact ⟨hok, hs.known, hs.noop, fun _ _ => hanswered⟩

theorem ParamInv.terminateStep
    (hs : ParamInv s) {pc : TerminatePc}
    (hpc : s.manager.pc = .terminate pc) : ParamInv (s.terminateStep pc) := by
  have hlatest := hs.carriesLatest (by simp [hpc])
  cases pc with
  | guard =>
      simp only [System.terminateStep]
      split_ifs <;> exact hs.quiet rfl rfl rfl hlatest (by rintro _ ⟨⟩)
  | writeCmd =>
      refine ParamInv.ofManager (s := s) rfl (fun _ => .inl rfl)
        (fun _ _ => rfl) ?_ (by rintro _ ⟨⟩)
      intro args h
      have hcarries := hlatest args h
      exact ⟨hcarries.1, hcarries.2, hcarries.3, hcarries.4⟩
  | sendIpi => exact hs.quiet rfl rfl rfl hlatest (by rintro _ ⟨⟩)

theorem ParamInv.awaitStep
    (hs : ParamInv s) (hpc : s.manager.pc = .await) : ParamInv s.awaitStep := by
  simp only [System.awaitStep]
  split_ifs
  · exact hs.finish (hs.carriesLatest (by simp [hpc])) none
  · exact hs

/-- Outside `startPayloadAt`, a step that ends the call. -/
theorem ParamInv.fail
    (hs : ParamInv s) {e : ErrorCode} (he : e ∈ System.failures s.manager.pc) :
    ParamInv (s.finish (some e)) := by
  refine hs.finish (hs.carriesLatest ?_) _
  intro args pc hpc
  rw [hpc] at he
  exact List.not_mem_nil he

/-! ## Steps of the core -/

theorem ParamInv.core
    (hs : ParamInv s) (hsame : System.SameManager s t)
    (houtcomes : t.monitorLog.outcomes = s.monitorLog.outcomes)
    (hnoop : ∀ pc, t.monitor = .noop pc →
      s.ipc.managerToExecutor.cmd = Command.noop.code) : ParamInv t where
  manager := by
    rw [hsame.manager]
    exact hs.manager.congr hsame.outbox (by rw [hsame.managerLog])
  known := by
    rw [System.CommandKnown, hsame.managerLog, hsame.outbox]
    exact hs.known
  noop := by
    rw [hsame.outbox]
    exact hnoop
  answered := by
    have hmailbox : t.mailbox = s.mailbox := by
      simp only [System.mailbox, hsame.managerLog, houtcomes]
    rw [hsame.manager, hmailbox, houtcomes]
    exact hs.answered

/-- The pending command is answered, by a verdict if the manager is polling. -/
theorem ParamInv.acknowledge
    (hs : ParamInv s) {ack : BitVec 32} {outcome : Outcome} {pc : MonitorPc}
    (hpc : ∀ pc', pc ≠ .noop pc')
    (hverdict : ∀ pc, s.manager.pc = .poll pc →
      ∃ resp, outcome = .verdict resp) :
    ParamInv ((s.acknowledge ack outcome).gotoMonitor pc) where
  manager := hs.manager.congr rfl rfl
  known := hs.known
  noop := fun pc' h => absurd h (hpc pc')
  answered := by
    intro pc hpoll _
    obtain ⟨resp, rfl⟩ := hverdict pc hpoll
    exact ⟨resp, by simp [System.acknowledge, System.gotoMonitor]⟩

theorem ParamInv.loopStep (hs : ParamInv s) (pc : LoopPc) :
    ParamInv (s.loopStep pc) := by
  have hsame := (s.loopStep_mainFrame pc).toSameManager
  cases pc with
  | readSeq => exact hs.core hsame rfl (by rintro _ ⟨⟩)
  | readAck seq =>
      simp only [System.loopStep] at hsame ⊢
      split_ifs at hsame ⊢ <;> exact hs.core hsame rfl (by rintro _ ⟨⟩)
  | readCmd =>
      simp only [System.loopStep] at hsame ⊢
      split_ifs at hsame ⊢ with hcmd
      · exact hs.core hsame rfl fun _ _ => hcmd
      · exact hs.core hsame rfl (by rintro _ ⟨⟩)
      · exact hs.core hsame rfl (by rintro _ ⟨⟩)

theorem ParamInv.noopStep
    (hs : ParamInv s) {pc : NoopPc} (hpc : s.monitor = .noop pc) :
    ParamInv (s.noopStep pc) := by
  have hnoop := hs.noop pc hpc
  cases pc with
  | readAck => exact hs.core ⟨rfl, rfl, rfl, rfl⟩ rfl fun _ _ => hnoop
  | writeAck ack =>
      refine hs.acknowledge nofun ?_
      intro pc hpoll
      have hok := hs.manager
      rw [hpoll] at hok
      exact absurd (hnoop.symm.trans hok.2) (by decide)

theorem ParamInv.commandStep (hs : ParamInv s) (pc : CommandPc) :
    ParamInv (s.commandStep pc) := by
  have hsame := (s.commandStep_mainFrame pc).toSameManager
  cases pc with
  | checkEntryAddress =>
      simp only [System.commandStep] at hsame ⊢
      split_ifs at hsame ⊢ <;> exact hs.core hsame rfl (by rintro _ ⟨⟩)
  | validate call pc =>
      simp only [System.commandStep] at hsame ⊢
      split at hsame <;> exact hs.core hsame rfl (by rintro _ ⟨⟩)
  | writeAck resp ack =>
      refine hs.acknowledge ?_ fun _ _ => ⟨resp, rfl⟩
      intro pc'
      split_ifs <;> rintro ⟨⟩
  | _ => exact hs.core hsame rfl (by rintro _ ⟨⟩)

theorem ParamInv.step
    (hs : ParamInv s) (hstate : StateInv s) (hcommand : CommandInv s)
    (h : s.step cpu a = some t) : ParamInv t := by
  refine System.step_cases (P := fun _ t => ParamInv t) h
    (fun c hpc => hs.callStep c hpc)
    (fun cntfrq pc hpc => hs.startupStep hstate hcommand hpc)
    (fun cntfrq hpc => hs.ensureStep hpc)
    (fun load pc hpc => hs.loadStep hpc)
    (fun args pc hpc => hs.startStep hcommand hpc)
    (fun pc hpc => hs.pollStep hpc)
    (fun pc hpc => hs.terminateStep hpc)
    (fun hpc => hs.awaitStep hpc)
    (fun e he => hs.fail he)
    (fun hpc => hs.finish (hs.carriesLatest (by simp [hpc])) _)
    (fun hpc => hs.finish (hs.carriesLatest (by simp [hpc])) _)
    ?fiqStep (fun _ => hs.core s.bootStep_sameManager rfl (by rintro _ ⟨⟩)) ?setup
    (fun _ => hs.core s.publishReadyStep_sameManager rfl (by rintro _ ⟨⟩))
    (fun pc _ => hs.loopStep pc) (fun pc hpc => hs.noopStep hpc)
    (fun pc _ => hs.commandStep pc) ?accepted
    (fun _ => hs.core s.rejectedStep_mainFrame.toSameManager rfl
      (by rintro _ ⟨⟩))
    (fun _ => hs.core s.enterDummyStep_mainFrame.toSameManager rfl
      (by rintro _ ⟨⟩))
    (fun _ _ _ => hs.core s.takeFiq_sameManager rfl (by rintro _ ⟨⟩)) ?smc
    (fun regs fpregs faultAddress _ _ _ =>
      hs.core (s.abortStep_sameManager regs fpregs faultAddress) rfl
        (by rintro _ ⟨⟩))
  case fiqStep =>
    intro pc _
    have hsame := s.fiqStep_sameManager cpu pc
    simp only [System.fiqStep] at hsame ⊢
    split at hsame <;> exact hs.core hsame rfl (by rintro _ ⟨⟩)
  case setup =>
    intro pc _
    have hsame := s.setupStep_sameManager cpu pc
    simp only [System.setupStep] at hsame ⊢
    split at hsame <;> exact hs.core hsame rfl (by rintro _ ⟨⟩)
  case accepted =>
    intro pc _
    have hsame := (s.acceptedStep_mainFrame pc).toSameManager
    cases pc <;> exact hs.core hsame rfl (by rintro _ ⟨⟩)
  case smc =>
    intro c _
    have hframe := System.smcStep_frame cpu s c
    refine hs.core hframe.toSameManager (by rw [hframe.monitorLog]) ?_
    intro pc hpc
    rcases System.smcStep_monitor cpu s c with hmonitor | hmonitor <;>
      simp [hmonitor] at hpc

theorem paramInv_of_reachable {allowed : System → Action → Prop}
    (h : Reachable (System.step cpu) System.Initial allowed s) :
    ParamInv s :=
  h.invariant (fun _ hs => .initial hs) fun _ _ _ hreach hs _ ht =>
    hs.step (stateInv_of_reachable hreach) (commandInv_of_reachable hreach) ht

end Invariant

end Bmboot
