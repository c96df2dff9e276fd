import Mathlib.Algebra.Order.Ring.Nat
import Mathlib.Logic.Function.Basic

/-!
# The inter-process communication block

The shared memory block through which the manager and the monitor of one
domain talk (`bmboot_internal.hpp`), with the enumerations stored in it
(`bmboot.hpp`).  Enumerators that live in shared memory are kept as the raw
words the two sides load and store: what a word means is decided by the
reader.
-/

namespace Bmboot

/-! ## Enumerations -/

/-- State of a domain, as reported to users of the manager library. -/
inductive DomainState
  | inReset
  | monitorReady
  | startingPayload
  | runningPayload
  | crashedPayload
  | crashedMonitor
  | unavailable
  | invalidState
  deriving DecidableEq, Repr

/-- The word stored for an enumerator. -/
def DomainState.code : DomainState → BitVec 32
  | .inReset => 0
  | .monitorReady => 1
  | .startingPayload => 2
  | .runningPayload => 3
  | .crashedPayload => 4
  | .crashedMonitor => 5
  | .unavailable => 6
  | .invalidState => 7

/-- The conversion `(DomainState) state_raw` behind the range check of
`getState`. -/
def DomainState.ofRaw (raw : BitVec 32) : DomainState :=
  if raw = 0 then .inReset
  else if raw = 1 then .monitorReady
  else if raw = 2 then .startingPayload
  else if raw = 3 then .runningPayload
  else if raw = 4 then .crashedPayload
  else if raw = 5 then .crashedMonitor
  else if raw = 6 then .unavailable
  else .invalidState

@[simp] theorem DomainState.ofRaw_code (st : DomainState) :
    DomainState.ofRaw st.code = st := by
  cases st <;> rfl

/-- Errors of the manager library. -/
inductive ErrorCode
  | badDomainState
  | configurationFileError
  | hwResourceUnavailable
  | payloadStartTimedOut
  | payloadChecksumMismatch
  | payloadImageMalformed
  | payloadAbiIncompatible
  | payloadCrashedDuringStartup
  | programTooLarge
  | monitorStartTimedOut
  | unknownError
  | devMemAccessFailed
  | mmapFailed
  deriving DecidableEq, Repr

/-- Absence of an error is success. -/
abbrev MaybeError := Option ErrorCode

/-- Commands of the manager to the monitor. -/
inductive Command
  | noop
  | startPayload
  deriving DecidableEq, Repr

def Command.code : Command → BitVec 32
  | .noop => 0
  | .startPayload => 1

/-- Verdicts of the monitor on a payload image. -/
inductive Response
  | crcOk
  | crcMismatched
  | imageMalformed
  | abiIncompatible
  deriving DecidableEq, Repr

def Response.code : Response → BitVec 32
  | .crcOk => 0
  | .crcMismatched => 1
  | .imageMalformed => 2
  | .abiIncompatible => 3

/-- The executor domains. -/
inductive DomainIndex
  | cpu1
  | cpu2
  | cpu3
  deriving DecidableEq, Repr

/-! ## Saved CPU state -/

/-- An exception level with a vector table of its own. -/
inductive ExceptionLevel
  | el1
  | el3
  deriving DecidableEq

/-- General registers are named by literals. -/
instance neZeroRegisters : NeZero 31 := ⟨by decide⟩

/-- The general registers saved at a synchronous exception
(`cpu_state.hpp`). -/
structure Aarch64Regs where
  regs : Fin 31 → BitVec 64
  sp : BitVec 64
  pc : BitVec 64
  pstate : BitVec 64

structure Aarch64FpRegs where
  vregs : Fin 32 → BitVec 128
  fpsr : BitVec 32
  fpcr : BitVec 32

/-! ## The block -/

/-- Size of the standard output ring. -/
def stdoutBufSize : ℕ := 1024

/-- The half written by the manager. -/
structure ManagerToExecutor where
  cmd : BitVec 32
  cmdSeq : BitVec 32
  cntfrq : BitVec 32
  payloadEntryAddress : BitVec 64
  payloadSize : BitVec 64
  payloadCrc : BitVec 32
  payloadArgument : BitVec 64
  stdoutRdpos : ℕ

/-- The half written by the executor. -/
structure ExecutorToManager where
  state : BitVec 32
  cmdAck : BitVec 32
  cmdResp : BitVec 32
  faultEl : BitVec 32
  faultPc : BitVec 64
  faultDesc : List UInt8
  regs : Aarch64Regs
  fpregs : Aarch64FpRegs
  stdoutWrpos : ℕ
  stdoutBuf : ℕ → UInt8

structure IpcBlock where
  managerToExecutor : ManagerToExecutor
  executorToManager : ExecutorToManager

/-- The block as `memset` leaves it. -/
def IpcBlock.zero : IpcBlock where
  managerToExecutor :=
    { cmd := 0, cmdSeq := 0, cntfrq := 0, payloadEntryAddress := 0
      payloadSize := 0, payloadCrc := 0, payloadArgument := 0
      stdoutRdpos := 0 }
  executorToManager :=
    { state := 0, cmdAck := 0, cmdResp := 0, faultEl := 0, faultPc := 0
      faultDesc := List.replicate 32 0
      regs := { regs := fun _ => 0, sp := 0, pc := 0, pstate := 0 }
      fpregs := { vregs := fun _ => 0, fpsr := 0, fpcr := 0 }
      stdoutWrpos := 0, stdoutBuf := fun _ => 0 }

end Bmboot
