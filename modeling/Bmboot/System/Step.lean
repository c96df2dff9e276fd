import Bmboot.System.ManagerStep

/-!
# The monitor's program and the system

`main` (`monitor.cpp`) with `FIQInterrupt` and `setupInterrupts`, as one step
per access, the payload's monitor calls, and the steps of the whole system.
-/

namespace Bmboot

namespace System

def gotoMonitor (s : System) (pc : MonitorPc) : System :=
  { s with monitor := pc }

def setInbox (s : System) (inbox : ExecutorToManager) : System :=
  { s with ipc := { s.ipc with executorToManager := inbox } }

/-- A crash of the monitor is reported, and it hangs in the handler. -/
def crashMonitor (s : System) (ipc : IpcBlock) : System :=
  { s with ipc := ipc, irq := s.irq.maskAll, monitor := .crashed }

def fiqStep (cpu : DomainIndex) (s : System) (pc : FiqPc) : System :=
  match pc.step cpu s.irq with
  | (irq, .goto pc) => (s.setIrq irq).gotoMonitor (.fiq pc)
  | (irq, .ret .boot) => (s.setIrq irq).gotoMonitor .boot
  | (irq, .ret (.crash iar)) =>
      (s.setIrq (irq.writeEoir iar)).crashMonitor
        (s.ipc.reportCrash .monitor (cString "Monitor FIQInterrupt")
          (iar.zeroExtend 64))

/-- `_boot` clears `.bss` and calls `main`. -/
def bootStep (s : System) : System :=
  { s with
    irq := { s.irq with interruptRoutedToEl1 := fun _ => false }
    monitor := .setup .writeBpr }

def setupStep (cpu : DomainIndex) (s : System) (pc : SetupPc) : System :=
  match pc.step cpu s.irq with
  | (irq, .goto pc) => (s.setIrq irq).gotoMonitor (.setup pc)
  | (irq, .ret ()) => (s.setIrq irq).gotoMonitor .publishReady

def publishReadyStep (s : System) : System :=
  { s with
    ipc := s.ipc.setState .monitorReady
    monitor := .loop .readSeq
    monitorLog :=
      { s.monitorLog with ipiSentAtReady := s.managerLog.ipiSent } }

def loopStep (s : System) : LoopPc → System
  | .readSeq =>
      s.gotoMonitor (.loop (.readAck s.ipc.managerToExecutor.cmdSeq))
  | .readAck seq =>
      if seq ≠ s.ipc.executorToManager.cmdAck then s.gotoMonitor (.loop .readCmd)
      else s.gotoMonitor (.loop .readSeq)
  | .readCmd =>
      let cmd := s.ipc.managerToExecutor.cmd
      if cmd = Command.noop.code then s.gotoMonitor (.noop .readAck)
      else if cmd = Command.startPayload.code then
        s.gotoMonitor (.command .writeState)
      else s.gotoMonitor (.loop .readSeq)

def acknowledge (s : System) (ack : BitVec 32) (outcome : Outcome) : System :=
  { s.setInbox { s.ipc.executorToManager with cmdAck := ack } with
    monitorLog :=
      { s.monitorLog with outcomes := s.monitorLog.outcomes ++ [outcome] } }

def noopStep (s : System) : NoopPc → System
  | .readAck =>
      s.gotoMonitor (.noop (.writeAck (s.ipc.executorToManager.cmdAck + 1)))
  | .writeAck ack => (s.acknowledge ack .noop).gotoMonitor (.loop .readSeq)

def commandStep (s : System) : CommandPc → System
  | .writeState =>
      { s with ipc := s.ipc.setState .startingPayload }.gotoMonitor
        (.command .flushMask)
  | .flushMask =>
      { s with
        irq := { s.irq with daif := s.irq.daif ||| daifFMask ||| daifIMask }
      }.gotoMonitor (.command (.flushInvalidate s.irq.daif))
  | .flushInvalidate currmask => s.gotoMonitor (.command (.flushRestore currmask))
  | .flushRestore currmask =>
      { s with irq := { s.irq with daif := currmask } }.gotoMonitor
        (.command .checkEntryAddress)
  | .checkEntryAddress =>
      if s.ipc.managerToExecutor.payloadEntryAddress = dummyEntryAddress then
        s.gotoMonitor .enterDummy
      else s.gotoMonitor (.command .readEntryAddress)
  | .readEntryAddress =>
      let image := s.ipc.managerToExecutor.payloadEntryAddress
      { s with
        monitor := .command (.readSize image)
        monitorLog :=
          { s.monitorLog with
            validatedImage := image
            storesAtValidation := s.managerLog.memoryStores } }
  | .readSize image =>
      s.gotoMonitor
        (.command (.readCrc image s.ipc.managerToExecutor.payloadSize))
  | .readCrc image imageSize =>
      let call : ValidateCall :=
        { image := image, imageSize := imageSize
          crcExpected := s.ipc.managerToExecutor.payloadCrc }
      s.gotoMonitor (.command (.validate call call.start))
  | .validate call pc =>
      match pc.step call s.mem with
      | .goto pc => s.gotoMonitor (.command (.validate call pc))
      | .ret resp =>
          { s with
            monitor := .command (.writeResp resp)
            monitorLog :=
              { s.monitorLog with
                validations := s.monitorLog.validations ++
                  [(s.monitorLog.outcomes.length, resp)] } }
  | .writeResp resp =>
      (s.setInbox
        { s.ipc.executorToManager with cmdResp := resp.code }).gotoMonitor
          (.command (.readAck resp))
  | .readAck resp =>
      s.gotoMonitor
        (.command (.writeAck resp (s.ipc.executorToManager.cmdAck + 1)))
  | .writeAck resp ack =>
      (s.acknowledge ack (.verdict resp)).gotoMonitor
        (if resp = .crcOk then .accepted .readEntryAddress else .rejected)

/-- `enterEL1Payload`. -/
def enterEl1 (s : System) (code : El1Code) : System :=
  { s with irq := s.irq.unmaskAll, monitor := .el1 code }

def acceptedStep (s : System) : AcceptedPc → System
  | .readEntryAddress =>
      s.gotoMonitor
        (.accepted (.enterEl1 s.ipc.managerToExecutor.payloadEntryAddress))
  | .enterEl1 address =>
      { s.enterEl1 .payload with
        monitorLog :=
          { s.monitorLog with
            entered := s.monitorLog.entered ++
              [{ index := s.monitorLog.outcomes.length - 1, address := address
                 argument := s.ipc.managerToExecutor.payloadArgument }]
            reports := [] } }

def enterDummyStep (s : System) : System :=
  { s.enterEl1 .dummy with
    monitorLog :=
      { s.monitorLog with
        dummyEntered := s.monitorLog.dummyEntered ++ [s.monitorLog.outcomes.length] } }

def rejectedStep (s : System) : System :=
  { s with ipc := s.ipc.setState .monitorReady }.gotoMonitor (.loop .readSeq)

/-- One access of the monitor. -/
def monitorStep (cpu : DomainIndex) (s : System) : Option System :=
  match s.monitor with
  | .inReset => none
  | .fiq pc => some (s.fiqStep cpu pc)
  | .boot => some s.bootStep
  | .setup pc => some (s.setupStep cpu pc)
  | .publishReady => some s.publishReadyStep
  | .loop pc => some (s.loopStep pc)
  | .noop pc => some (s.noopStep pc)
  | .command pc => some (s.commandStep pc)
  | .accepted pc => some (s.acceptedStep pc)
  | .rejected => some s.rejectedStep
  | .enterDummy => some s.enterDummyStep
  | .el1 _ => none
  | .crashed => none

/-- The kill interrupt is taken, and exceptions are masked. -/
def takeFiq (s : System) : System :=
  { s with irq := s.irq.maskAll, monitor := .fiq .readIar }

def fiq (cpu : DomainIndex) (s : System) : Option System :=
  match s.monitor with
  | .inReset => none
  | _ =>
      if s.irq.fiqSignalled cpu ∧ ¬s.irq.fiqMasked then some s.takeFiq
      else none

/-- What a monitor call reports about the payload. -/
def SmcCall.report (c : SmcCall) : List Report :=
  if c.function = smcNotifyPayloadStarted then [.started]
  else if c.function = smcNotifyPayloadCrashed then [.crashed]
  else []

/-- The payload makes a monitor call, with pointers that EL3 can read.  A call that
never returns leaves the monitor hanging in its handler. -/
def smcStep (cpu : DomainIndex) (s : System) (c : SmcCall) : System :=
  let (core, saved) := handleSmc cpu c.mem ⟨s.ipc, s.irq⟩ c.regs
  { s with
    ipc := core.ipc
    irq := if saved.isSome then core.irq else core.irq.maskAll
    monitor := if saved.isSome then .el1 .payload else .crashed
    monitorLog :=
      { s.monitorLog with reports := s.monitorLog.reports ++ SmcCall.report c } }

def smc (cpu : DomainIndex) (s : System) (c : SmcCall) : Option System :=
  match s.monitor with
  | .el1 .payload => some (s.smcStep cpu c)
  | _ => none

/-- An abort while the monitor reads the image: `SynchronousInterrupt`. -/
def abortStep (s : System) (regs : Aarch64Regs) (fpregs : Aarch64FpRegs)
    (faultAddress : BitVec 64) : System :=
  let inbox := { s.ipc.executorToManager with fpregs := fpregs, regs := regs }
  let ipc := { s.ipc with executorToManager := inbox }
  s.crashMonitor
    (ipc.reportCrash .monitor (cString "Monitor SynchronousInterrupt")
      faultAddress)

def abort (s : System) (regs : Aarch64Regs) (fpregs : Aarch64FpRegs)
    (faultAddress : BitVec 64) : Option System :=
  match s.monitor with
  | .command (.validate _ _) => some (s.abortStep regs fpregs faultAddress)
  | _ => none

end System

inductive Action
  | call (c : Call)
  | manager
  | fail (e : ErrorCode)
  | timeout
  | monitor
  | fiq
  | smc (c : SmcCall)
  | abort (regs : Aarch64Regs) (fpregs : Aarch64FpRegs)
      (faultAddress : BitVec 64)

/-- Steps of the core, of the payload or of the hardware. -/
def Action.OfCore : Action → Prop
  | .monitor | .fiq | .smc _ | .abort _ _ _ => True
  | .call _ | .manager | .fail _ | .timeout => False

/-- One step of either side, of the payload, or of the hardware. -/
def System.step (cpu : DomainIndex) (s : System) : Action → Option System
  | .call c => s.callStep cpu c
  | .manager => s.managerStep
  | .fail e => s.failStep e
  | .timeout => s.timeoutStep
  | .monitor => s.monitorStep cpu
  | .fiq => s.fiq cpu
  | .smc c => s.smc cpu c
  | .abort regs fpregs faultAddress => s.abort regs fpregs faultAddress

/-- What a step can be: the program point it starts from, and the state it
leads to. -/
theorem System.step_cases
    {cpu : DomainIndex} {s t : System} {a : Action}
    {P : Action → System → Prop}
    (h : s.step cpu a = some t)
    (call : ∀ c, s.manager.pc = .idle → P (.call c) (s.beginCall cpu c))
    (startup : ∀ cntfrq pc, s.manager.pc = .startup cntfrq pc →
      P .manager (s.startupStep cntfrq pc))
    (ensure : ∀ cntfrq, s.manager.pc = .ensure cntfrq →
      P .manager (s.ensureStep cntfrq))
    (load : ∀ load pc, s.manager.pc = .load load pc →
      P .manager (s.loadStep load pc))
    (start : ∀ args pc, s.manager.pc = .start args pc →
      P .manager (s.startStep args pc))
    (poll : ∀ pc, s.manager.pc = .poll pc → P .manager (s.pollStep pc))
    (terminate : ∀ pc, s.manager.pc = .terminate pc →
      P .manager (s.terminateStep pc))
    (await : s.manager.pc = .await → P .manager s.awaitStep)
    (fail : ∀ e, e ∈ failures s.manager.pc → P (.fail e) (s.finish (some e)))
    (startTimeout : s.manager.pc = .poll .readAck →
      P .timeout (s.finish (some .payloadStartTimedOut)))
    (awaitTimeout : s.manager.pc = .await →
      P .timeout (s.finish (some .monitorStartTimedOut)))
    (fiqStep : ∀ pc, s.monitor = .fiq pc → P .monitor (s.fiqStep cpu pc))
    (bootStep : s.monitor = .boot → P .monitor s.bootStep)
    (setupStep : ∀ pc, s.monitor = .setup pc → P .monitor (s.setupStep cpu pc))
    (publishReady : s.monitor = .publishReady →
      P .monitor s.publishReadyStep)
    (loop : ∀ pc, s.monitor = .loop pc → P .monitor (s.loopStep pc))
    (noop : ∀ pc, s.monitor = .noop pc → P .monitor (s.noopStep pc))
    (command : ∀ pc, s.monitor = .command pc → P .monitor (s.commandStep pc))
    (accepted : ∀ pc, s.monitor = .accepted pc →
      P .monitor (s.acceptedStep pc))
    (rejected : s.monitor = .rejected → P .monitor s.rejectedStep)
    (enterDummy : s.monitor = .enterDummy → P .monitor s.enterDummyStep)
    (fiq : s.monitor ≠ .inReset → s.irq.fiqSignalled cpu = true →
      s.irq.fiqMasked = false → P .fiq s.takeFiq)
    (smc : ∀ c, s.monitor = .el1 .payload → P (.smc c) (s.smcStep cpu c))
    (abort : ∀ regs fpregs faultAddress call pc,
      s.monitor = .command (.validate call pc) →
      P (.abort regs fpregs faultAddress)
        (s.abortStep regs fpregs faultAddress)) :
    P a t := by
  cases a with
  | call c =>
      simp only [System.step, callStep] at h
      split at h
      next hpc =>
        cases h
        exact call c hpc
      · cases h
  | manager =>
      simp only [System.step, managerStep] at h
      split at h
      case h_1 => cases h
      all_goals
        next hpc =>
          cases h
          first
            | exact startup _ _ hpc
            | exact ensure _ hpc
            | exact load _ _ hpc
            | exact start _ _ hpc
            | exact poll _ hpc
            | exact terminate _ hpc
            | exact await hpc
  | fail e =>
      simp only [System.step, failStep] at h
      split at h
      next he =>
        cases h
        exact fail e he
      · cases h
  | timeout =>
      simp only [System.step, timeoutStep] at h
      split at h
      next hpc =>
        cases h
        exact startTimeout hpc
      next hpc =>
        cases h
        exact awaitTimeout hpc
      · cases h
  | monitor =>
      simp only [System.step, monitorStep] at h
      split at h
      all_goals
        next hpc =>
          cases h
          try first
            | exact fiqStep _ hpc
            | exact bootStep hpc
            | exact setupStep _ hpc
            | exact publishReady hpc
            | exact loop _ hpc
            | exact noop _ hpc
            | exact command _ hpc
            | exact accepted _ hpc
            | exact rejected hpc
            | exact enterDummy hpc
  | fiq =>
      simp only [System.step, System.fiq] at h
      split at h
      · cases h
      next hpc =>
        split at h
        next hsignal =>
          cases h
          refine fiq ?_ hsignal.1 (by simpa using hsignal.2)
          intro hreset
          exact hpc hreset
        · cases h
  | smc c =>
      simp only [System.step, System.smc] at h
      split at h
      next hpc =>
        cases h
        exact smc c hpc
      · cases h
  | abort regs fpregs faultAddress =>
      simp only [System.step, System.abort] at h
      split at h
      next hpc =>
        cases h
        exact abort regs fpregs faultAddress _ _ hpc
      · cases h

/-! ## Schedules -/

def managerSteps (n : ℕ) : List Action := List.replicate n .manager

def monitorSteps (n : ℕ) : List Action := List.replicate n .monitor

/-- A startup, until the monitor polls for commands. -/
def startupSchedule : List Action :=
  .call (.startup 0) :: managerSteps 5 ++ monitorSteps 17 ++ managerSteps 1

/-- A valid image header at the start of the payload area of `cpu1`. -/
def validElf : ElfImage where
  stores :=
    [(0x800100008, 0x42), (0x800100009, 0x6d), (0x80010000a, 0x62),
      (0x80010000b, 0x6f), (0x80010000c, 0x02)]
  error := false
  entryAddress := 0x800100000

/-- No header where one should be. -/
def blankElf : ElfImage where
  stores := []
  error := false
  entryAddress := 0x800100000

/-- A call of `loadElfPayload` until it has issued its command. -/
def loadElfSchedule (elf : ElfImage) (argument : BitVec 64) : List Action :=
  .call (.loadElfPayload elf argument) :: managerSteps (elf.stores.length + 15)

/-- From the head of its loop the monitor validates the image of an ELF load
and answers. -/
def validationSchedule : List Action := monitorSteps 48

/-- `validElf` is entered. -/
def entrySchedule : List Action := monitorSteps 2

/-- A payload is entered and makes monitor calls, and the manager looks at the
answer. -/
def startSchedule (calls : List SmcCall) : List Action :=
  startupSchedule ++ loadElfSchedule validElf 7 ++ validationSchedule ++
    entrySchedule ++ calls.map .smc ++ managerSteps 3

/-- A call of `terminatePayload` until it has sent its kill request. -/
def terminateSchedule : List Action :=
  .call .terminatePayload :: managerSteps 3

/-- The kill interrupt is taken, and the monitor restarts. -/
def restartSchedule : List Action := .fiq :: monitorSteps 212

end Bmboot
