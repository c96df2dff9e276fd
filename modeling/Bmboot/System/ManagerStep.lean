import Bmboot.System.State

/-!
# The manager's program

The calls of `domain.cpp` as one step per access.  A polling loop may go round
any number of times, and its time may be up after any round.
-/

namespace Bmboot

/-- `Domain::getState`. -/
def getState (generalState : DomainGeneralState) (ipc : IpcBlock) :
    DomainState :=
  match generalState with
  | .inReset => .inReset
  | .unavailable => .unavailable
  | .monitorStarted => .ofRaw ipc.executorToManager.state

namespace System

def getState (s : System) : DomainState :=
  Bmboot.getState s.manager.generalState s.ipc

def gotoManager (s : System) (pc : ManagerPc) : System :=
  { s with manager := { s.manager with pc := pc } }

/-- Return from the call in progress. -/
def finish (s : System) (r : MaybeError) : System :=
  { s with manager := { s.manager with pc := .idle, result := some r } }

def setOutbox (s : System) (outbox : ManagerToExecutor) : System :=
  { s with ipc := { s.ipc with managerToExecutor := outbox } }

/-- The interrupt hardware moves to `irq`.  Once the channel holds no kill
request, all that were sent have been consumed. -/
def setIrq (s : System) (irq : Interrupts) : System :=
  { s with
    irq := irq
    monitorLog :=
      { s.monitorLog with
        ipiConsumed :=
          if irq.killPending then s.monitorLog.ipiConsumed
          else s.managerLog.ipiSent } }

def startupStep (s : System) (cntfrq : BitVec 32) : StartupPc → System
  | .guard =>
      if s.manager.generalState ≠ .inReset then s.finish (some .badDomainState)
      else s.gotoManager (.startup cntfrq .clearIpc)
  | .clearIpc =>
      { s with
        ipc := .zero
        managerLog := { s.managerLog with cleared := true }
      }.gotoManager (.startup cntfrq .writeState)
  | .writeState =>
      { s with ipc := s.ipc.setState .invalidState }.gotoManager
        (.startup cntfrq .writeCntfrq)
  | .writeCntfrq =>
      (s.setOutbox { s.ipc.managerToExecutor with cntfrq := cntfrq }).gotoManager
        (.startup cntfrq .bootCore)
  | .bootCore =>
      match s.monitor with
      | .inReset =>
          { s with
            monitor := .boot
            irq := s.irq.maskAll
            manager :=
              { s.manager with generalState := .monitorStarted, pc := .await } }
      | _ => s.finish (some .hwResourceUnavailable)

def loadStep (s : System) (load : Load) : LoadPc → System
  | .checkState =>
      if s.getState ≠ .monitorReady then s.finish (some .badDomainState)
      else s.gotoManager (.load load .map)
  | .map =>
      match load.refusal with
      | some e => s.finish (some e)
      | none => s.gotoManager (.load load (.store load.stores))
  | .store ((address, b) :: rest) =>
      { s with
        mem := Function.update s.mem address b
        managerLog :=
          { s.managerLog with memoryStores := s.managerLog.memoryStores + 1 }
      }.gotoManager (.load load (.store rest))
  | .store [] =>
      match load.error with
      | some e => s.finish (some e)
      | none => s.gotoManager (.start load.args .checkState)

def startStep (s : System) (args : StartArgs) : StartPc → System
  | .checkState =>
      if s.getState ≠ .monitorReady then s.finish (some .badDomainState)
      else s.gotoManager (.start args .readAck)
  | .readAck =>
      s.gotoManager (.start args (.readSeq s.ipc.executorToManager.cmdAck))
  | .readSeq ack =>
      if ack ≠ s.ipc.managerToExecutor.cmdSeq then
        s.finish (some .badDomainState)
      else s.gotoManager (.start args .readWrpos)
  | .readWrpos =>
      s.gotoManager
        (.start args (.writeRdpos s.ipc.executorToManager.stdoutWrpos))
  | .writeRdpos wrpos =>
      (s.setOutbox
        { s.ipc.managerToExecutor with stdoutRdpos := wrpos }).gotoManager
          (.start args .writeEntryAddress)
  | .writeEntryAddress =>
      (s.setOutbox
        { s.ipc.managerToExecutor with
          payloadEntryAddress := args.entryAddress }).gotoManager
            (.start args .writeSize)
  | .writeSize =>
      (s.setOutbox
        { s.ipc.managerToExecutor with
          payloadSize := args.payloadSize }).gotoManager (.start args .writeCrc)
  | .writeCrc =>
      (s.setOutbox
        { s.ipc.managerToExecutor with
          payloadCrc := args.payloadCrc }).gotoManager
            (.start args .writeArgument)
  | .writeArgument =>
      (s.setOutbox
        { s.ipc.managerToExecutor with
          payloadArgument := args.payloadArgument }).gotoManager
            (.start args .writeCmd)
  | .writeCmd =>
      (s.setOutbox
        { s.ipc.managerToExecutor with
          cmd := Command.startPayload.code }).gotoManager
            (.start args .incrementSeq)
  | .incrementSeq =>
      s.gotoManager
        (.start args (.writeSeq (s.ipc.managerToExecutor.cmdSeq + 1)))
  | .writeSeq seq =>
      { s.setOutbox { s.ipc.managerToExecutor with cmdSeq := seq } with
        managerLog :=
          { s.managerLog with issued := s.managerLog.issued ++ [args] }
      }.gotoManager (.poll .readAck)

def pollStep (s : System) : PollPc → System
  | .readAck => s.gotoManager (.poll (.readSeq s.ipc.executorToManager.cmdAck))
  | .readSeq ack =>
      if ack = s.ipc.managerToExecutor.cmdSeq then s.gotoManager (.poll .readResp)
      else s.gotoManager (.poll .readState)
  | .readResp =>
      let resp := s.ipc.executorToManager.cmdResp
      if resp = Response.crcOk.code then s.gotoManager (.poll .readState)
      else if resp = Response.crcMismatched.code then
        s.finish (some .payloadChecksumMismatch)
      else if resp = Response.imageMalformed.code then
        s.finish (some .payloadImageMalformed)
      else if resp = Response.abiIncompatible.code then
        s.finish (some .payloadAbiIncompatible)
      else s.finish (some .unknownError)
  | .readState =>
      let state := s.getState
      if state = .runningPayload then s.finish none
      else if state = .crashedPayload then
        s.finish (some .payloadCrashedDuringStartup)
      else s.gotoManager (.poll .readAck)

def terminateStep (s : System) : TerminatePc → System
  | .guard =>
      if s.manager.generalState ≠ .monitorStarted then
        s.finish (some .badDomainState)
      else s.gotoManager (.terminate .writeCmd)
  | .writeCmd =>
      (s.setOutbox
        { s.ipc.managerToExecutor with cmd := Command.noop.code }).gotoManager
          (.terminate .sendIpi)
  | .sendIpi =>
      { s with
        irq := s.irq.raiseKill
        managerLog :=
          { s.managerLog with ipiSent := s.managerLog.ipiSent + 1 }
      }.gotoManager .await

def awaitStep (s : System) : System :=
  if s.getState = .monitorReady then s.finish none else s

def ensureStep (s : System) (cntfrq : BitVec 32) : System :=
  let state := s.getState
  if state = .inReset then s.gotoManager (.startup cntfrq .guard)
  else if state = .monitorReady then s.finish none
  else if state = .crashedPayload ∨ state = .runningPayload ∨
      state = .startingPayload then
    s.gotoManager (.terminate .guard)
  else s.finish (some .badDomainState)

/-- One access of the call in progress. -/
def managerStep (s : System) : Option System :=
  match s.manager.pc with
  | .idle => none
  | .startup cntfrq pc => some (s.startupStep cntfrq pc)
  | .ensure cntfrq => some (s.ensureStep cntfrq)
  | .load load pc => some (s.loadStep load pc)
  | .start args pc => some (s.startStep args pc)
  | .poll pc => some (s.pollStep pc)
  | .terminate pc => some (s.terminateStep pc)
  | .await => some s.awaitStep

/-- The first point of a call. -/
def Call.entryPc (cpu : DomainIndex) : Call → ManagerPc
  | .startup cntfrq => .startup cntfrq .guard
  | .ensureReadyToLoadPayload cntfrq => .ensure cntfrq
  | .loadAndStartPayload binary crc argument =>
      .load (flatLoad cpu binary crc argument) .checkState
  | .loadElfPayload elf argument => .load (elfLoad elf argument) .checkState
  | .startDummyPayload => .start dummyArgs .checkState
  | .terminatePayload => .terminate .guard

/-- The manager begins a call. -/
def beginCall (cpu : DomainIndex) (s : System) (c : Call) : System :=
  { s with
    manager :=
      { s.manager with
        pc := Call.entryPc cpu c, call := some c, result := none }
    managerLog :=
      { s.managerLog with
        memAtCall := s.mem
        outboxAtCall := s.ipc.managerToExecutor
        issuedAtCall := s.managerLog.issued.length } }

/-- Calls do not overlap. -/
def callStep (cpu : DomainIndex) (s : System) (c : Call) : Option System :=
  match s.manager.pc with
  | .idle => some (s.beginCall cpu c)
  | _ => none

/-- The errors of the operating system or the hardware that end a call at a
point. -/
def failures : ManagerPc → List ErrorCode
  | .startup _ .guard =>
      [.configurationFileError, .devMemAccessFailed, .mmapFailed,
        .programTooLarge]
  | .startup _ .bootCore => [.mmapFailed]
  | .load _ .map => [.devMemAccessFailed, .mmapFailed]
  | .terminate .guard => [.devMemAccessFailed]
  | _ => []

def failStep (s : System) (e : ErrorCode) : Option System :=
  if e ∈ failures s.manager.pc then some (s.finish (some e)) else none

/-- The time of a polling loop is up. -/
def timeoutStep (s : System) : Option System :=
  match s.manager.pc with
  | .poll .readAck => some (s.finish (some .payloadStartTimedOut))
  | .await => some (s.finish (some .monitorStartTimedOut))
  | _ => none

end System

end Bmboot
