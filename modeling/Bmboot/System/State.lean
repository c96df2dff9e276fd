import Bmboot.Gic.KillInterrupt
import Bmboot.Monitor.Killable
import Bmboot.Monitor.Validate

/-!
# The state of a domain and its manager

One manager process and the core of one domain.  Each side is a program whose
accesses to the shared block, to payload memory and to the interrupt hardware
are single steps; a program point carries the local variables that live across
it.  The two logs record what has happened, for the statements; no step
reads them.
-/

namespace Bmboot

/-! ## Calls of the manager -/

/-- The arguments of `startPayloadAt`. -/
structure StartArgs where
  entryAddress : BitVec 64
  payloadSize : BitVec 64
  payloadCrc : BitVec 32
  payloadArgument : BitVec 64
  deriving DecidableEq

/-- What the ELF loader makes of a file: the bytes it stores into the payload
area, whether it then reports an error, and the entry address. -/
structure ElfImage where
  stores : List (BitVec 64 × UInt8)
  error : Bool
  entryAddress : BitVec 64
  deriving DecidableEq

/-- Calls of the manager; `startup` takes the configured timer frequency. -/
inductive Call
  | startup (cntfrq : BitVec 32)
  | ensureReadyToLoadPayload (cntfrq : BitVec 32)
  | loadAndStartPayload (binary : List UInt8) (crc : BitVec 32)
      (argument : BitVec 64)
  | loadElfPayload (elf : ElfImage) (argument : BitVec 64)
  | startDummyPayload
  | terminatePayload
  deriving DecidableEq

/-- The entry address that asks for the dummy payload. -/
def dummyEntryAddress : BitVec 64 := 0xbaadf00d

/-- The payload area of a domain (`bmboot_memmap.hpp`). -/
def payloadAddress : DomainIndex → BitVec 64
  | .cpu1 => 0x800100000
  | .cpu2 => 0x802100000
  | .cpu3 => 0x804100000

def payloadAreaSize : ℕ := 0x02000000

/-- What is left of a load once the domain has been found ready: an early
error, the bytes to store, an error found while storing, and the arguments of
`startPayloadAt`. -/
structure Load where
  refusal : Option ErrorCode
  stores : List (BitVec 64 × UInt8)
  error : Option ErrorCode
  args : StartArgs
  deriving DecidableEq

/-- The stores of `memcpy` to `address`. -/
def imageStores (address : BitVec 64) (binary : List UInt8) :
    List (BitVec 64 × UInt8) :=
  binary.mapIdx fun i b => (address + BitVec.ofNat 64 i, b)

/-- `loadAndStartPayload`.  An empty mapping is refused by the system. -/
def flatLoad (cpu : DomainIndex) (binary : List UInt8) (crc : BitVec 32)
    (argument : BitVec 64) : Load where
  refusal :=
    if binary.length > payloadAreaSize then some .programTooLarge
    else if binary = [] then some .mmapFailed
    else none
  stores := imageStores (payloadAddress cpu) binary
  error := none
  args :=
    { entryAddress := payloadAddress cpu
      payloadSize := BitVec.ofNat 64 binary.length
      payloadCrc := crc
      payloadArgument := argument }

/-- `loadElfPayload`. -/
def elfLoad (elf : ElfImage) (argument : BitVec 64) : Load where
  refusal := none
  stores := elf.stores
  error := if elf.error then some .programTooLarge else none
  args :=
    { entryAddress := elf.entryAddress
      payloadSize := 0
      payloadCrc := 0
      payloadArgument := argument }

def dummyArgs : StartArgs where
  entryAddress := dummyEntryAddress
  payloadSize := 0
  payloadCrc := 0
  payloadArgument := 0

/-! ## The manager -/

inductive DomainGeneralState
  | inReset
  | unavailable
  | monitorStarted
  deriving DecidableEq, Repr

inductive StartupPc
  | guard
  | clearIpc
  | writeState
  | writeCntfrq
  | bootCore
  deriving DecidableEq

/-- The two loaders, up to their call of `startPayloadAt`. -/
inductive LoadPc
  | checkState
  | map
  | store (rest : List (BitVec 64 × UInt8))
  deriving DecidableEq

/-- `startPayloadAt`, up to its polling loop. -/
inductive StartPc
  | checkState
  | readAck
  | readSeq (ack : BitVec 32)
  | readWrpos
  | writeRdpos (wrpos : ℕ)
  | writeEntryAddress
  | writeSize
  | writeCrc
  | writeArgument
  | writeCmd
  | incrementSeq
  | writeSeq (seq : BitVec 32)
  deriving DecidableEq

/-- The polling loop of `startPayloadAt`. -/
inductive PollPc
  | readAck
  | readSeq (ack : BitVec 32)
  | readResp
  | readState
  deriving DecidableEq

inductive TerminatePc
  | guard
  | writeCmd
  | sendIpi
  deriving DecidableEq

inductive ManagerPc
  | idle
  | startup (cntfrq : BitVec 32) (pc : StartupPc)
  | ensure (cntfrq : BitVec 32)
  | load (load : Load) (pc : LoadPc)
  | start (args : StartArgs) (pc : StartPc)
  | poll (pc : PollPc)
  | terminate (pc : TerminatePc)
  | await
  deriving DecidableEq

/-- The manager, with its latest call and what that has returned, if it has. -/
structure Manager where
  generalState : DomainGeneralState
  pc : ManagerPc
  call : Option Call
  result : Option MaybeError

/-! ## The monitor -/

/-- The head of the loop of `main`. -/
inductive LoopPc
  | readSeq
  | readAck (seq : BitVec 32)
  | readCmd
  deriving DecidableEq

inductive NoopPc
  | readAck
  | writeAck (ack : BitVec 32)
  deriving DecidableEq

/-- A start command, up to its acknowledgement. -/
inductive CommandPc
  | writeState
  | flushMask
  | flushInvalidate (currmask : BitVec 64)
  | flushRestore (currmask : BitVec 64)
  | checkEntryAddress
  | readEntryAddress
  | readSize (image : BitVec 64)
  | readCrc (image imageSize : BitVec 64)
  | validate (call : ValidateCall) (pc : ValidatePc)
  | writeResp (resp : Response)
  | readAck (resp : Response)
  | writeAck (resp : Response) (ack : BitVec 32)
  deriving DecidableEq

/-- A start command acknowledged with `crc_ok`. -/
inductive AcceptedPc
  | readEntryAddress
  | enterEl1 (address : BitVec 64)
  deriving DecidableEq

/-- Code running in EL1. -/
inductive El1Code
  | dummy
  | payload
  deriving DecidableEq

inductive MonitorPc
  | inReset
  | fiq (pc : FiqPc)
  | boot
  | setup (pc : SetupPc)
  | publishReady
  | loop (pc : LoopPc)
  | noop (pc : NoopPc)
  | command (pc : CommandPc)
  | accepted (pc : AcceptedPc)
  | rejected
  | enterDummy
  | el1 (code : El1Code)
  | crashed
  deriving DecidableEq

/-! ## The system -/

/-- How the monitor has answered a command. -/
inductive Outcome
  | noop
  | verdict (resp : Response)
  deriving DecidableEq

/-- A payload entered after a `crc_ok` verdict: the index of the command, the
address, and the payload argument at that moment. -/
structure Entry where
  index : ℕ
  address : BitVec 64
  argument : BitVec 64
  deriving DecidableEq

/-- What a payload reports about itself. -/
inductive Report
  | started
  | crashed
  deriving DecidableEq

/-- What the manager has done.  Commands are numbered in the order of their
issue, from zero. -/
structure ManagerLog where
  /-- The shared block has been initialised. -/
  cleared : Bool
  issued : List StartArgs
  /-- Bytes stored to payload memory. -/
  memoryStores : ℕ
  /-- Kill requests. -/
  ipiSent : ℕ
  /-- Payload memory, the manager's half of the block and the number of
  commands issued, at the latest call. -/
  memAtCall : BitVec 64 → UInt8
  outboxAtCall : ManagerToExecutor
  issuedAtCall : ℕ

/-- What the core has done. -/
structure MonitorLog where
  outcomes : List Outcome
  /-- Responses `validatePayload` has returned, with the pending command. -/
  validations : List (ℕ × Response)
  entered : List Entry
  /-- Commands for which the dummy payload was entered. -/
  dummyEntered : List ℕ
  /-- The image validation last began with, and the bytes stored by then. -/
  validatedImage : BitVec 64
  storesAtValidation : ℕ
  /-- Reports of the payload last entered. -/
  reports : List Report
  /-- Kill requests sent when the channel was last seen empty. -/
  ipiConsumed : ℕ
  /-- Kill requests sent when `main` last published `monitor_ready` after
  setting up interrupts. -/
  ipiSentAtReady : ℕ

structure System where
  ipc : IpcBlock
  mem : BitVec 64 → UInt8
  irq : Interrupts
  monitor : MonitorPc
  manager : Manager
  managerLog : ManagerLog
  monitorLog : MonitorLog

/-- The manager finds the core in reset.  The shared block, payload memory and
the interrupt hardware hold anything, but no peer other than the manager has
triggered the core's IPI channel. -/
structure System.Initial (s : System) : Prop where
  monitor : s.monitor = .inReset
  generalState : s.manager.generalState = .inReset
  pc : s.manager.pc = .idle
  call : s.manager.call = none
  result : s.manager.result = none
  isr : s.irq.ipi.isr &&& ~~~Interrupts.killMask = 0
  cleared : s.managerLog.cleared = false
  issued : s.managerLog.issued = []
  outcomes : s.monitorLog.outcomes = []
  validations : s.monitorLog.validations = []
  entered : s.monitorLog.entered = []
  dummyEntered : s.monitorLog.dummyEntered = []
  reports : s.monitorLog.reports = []
  ipiSent : s.managerLog.ipiSent = 0
  ipiConsumed : s.monitorLog.ipiConsumed = 0

/-- A system at power-on, with all memory zero. -/
def System.powerOn : System where
  ipc := .zero
  mem := fun _ => 0
  irq := .reset
  monitor := .inReset
  manager :=
    { generalState := .inReset, pc := .idle, call := none, result := none }
  managerLog :=
    { cleared := false, issued := [], memoryStores := 0, ipiSent := 0
      memAtCall := fun _ => 0
      outboxAtCall := IpcBlock.zero.managerToExecutor, issuedAtCall := 0 }
  monitorLog :=
    { outcomes := [], validations := [], entered := [], dummyEntered := []
      validatedImage := 0, storesAtValidation := 0, reports := []
      ipiConsumed := 0, ipiSentAtReady := 0 }

theorem System.powerOn_initial : System.powerOn.Initial := by
  constructor <;> rfl

end Bmboot
