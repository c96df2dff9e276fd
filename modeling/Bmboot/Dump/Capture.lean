import Bmboot.Dump.DumpCore
import Bmboot.Lib.StepSystem
import Bmboot.System.Frame

/-!
# The crash that a core dump shows

`Domain::dumpCore` writes the registers it finds in the shared block.  Of the
handlers behind the two vector tables (`vectors_el1.cpp`, `vectors_el3.cpp`)
only those of synchronous exceptions store them there, and nothing clears them.
-/

namespace Bmboot

/-! ## Exceptions -/

inductive ExceptionKind
  | synchronous
  | irq
  | fiq
  | serror
  deriving DecidableEq

/-- An exception that its handler reports as a crash: the registers it
interrupts, and the address that the handler reports, which is the exception
link register or, for an interrupt, the word read from `GICC->IAR`. -/
structure CrashException where
  level : ExceptionLevel
  kind : ExceptionKind
  regs : Aarch64Regs
  fpregs : Aarch64FpRegs
  address : BitVec 64

/-- The stores of a handler. -/
inductive HandlerPc
  | saveFpuState
  | saveRegs
  | reportCrash
  deriving DecidableEq

namespace CrashException

def desc (e : CrashException) : String :=
  match e.level, e.kind with
  | .el1, .synchronous => "EL1 SynchronousInterrupt"
  | .el1, .irq => "EL1 IRQInterrupt"
  | .el1, .fiq => "EL1 FIQInterrupt"
  | .el1, .serror => "EL1 SErrorInterrupt"
  | .el3, .synchronous => "Monitor SynchronousInterrupt"
  | .el3, .irq => "Monitor IRQInterrupt"
  | .el3, .fiq => "Monitor FIQInterrupt"
  | .el3, .serror => "Monitor SErrorInterrupt"

/-- At EL1 the report is a monitor call, `notifyPayloadCrashed`. -/
def entity (e : CrashException) : CrashingEntity :=
  match e.level with
  | .el1 => .payload
  | .el3 => .monitor

/-- The first store of the handler. -/
def entry (e : CrashException) : HandlerPc :=
  match e.kind with
  | .synchronous => .saveFpuState
  | .irq | .fiq | .serror => .reportCrash

end CrashException

/-! ## The core -/

/-- A crash: an exception, or a monitor call that is reported as one. -/
inductive Crash
  | exception (e : CrashException)
  | smc (c : SmcCall)

/-- The call is `notifyPayloadCrashed`, or one the monitor does not know. -/
def SmcCall.Crashes (c : SmcCall) : Prop :=
  c.function = smcNotifyPayloadCrashed ∨ ¬c.Known

instance (c : SmcCall) : Decidable c.Crashes :=
  inferInstanceAs (Decidable (_ ∨ _))

/-- What the core executes: the monitor up to and in the loop of `main`, the
start of a payload, the payload with its interrupt handlers, the handler of
crash number `n`, or the endless loop behind a report. -/
inductive ExecutorPc
  | boot
  | idle
  | starting
  | payload
  | handler (e : CrashException) (n : ℕ) (pc : HandlerPc)
  | halted (level : ExceptionLevel)

/-- Exceptions to EL3 are taken everywhere but in a handler of EL3. -/
def ExecutorPc.interruptible : ExecutorPc → Bool
  | .boot | .idle | .starting | .payload => true
  | .handler e _ _ => decide (e.level = .el1)
  | .halted level => decide (level = .el1)

/-- The crashes so far, and the numbers of those that last stored each half of
the registers and were last reported. -/
structure CrashLog where
  crashes : List Crash
  fpregs : Option ℕ
  regs : Option ℕ
  reported : Option ℕ

structure Executor where
  core : Core
  pc : ExecutorPc
  log : CrashLog

/-- The steps of a core, of its payload and of the hardware. -/
inductive ExecutorAction
  | ready
  | start
  | refuse
  | enter
  | smc (c : SmcCall)
  | exception (e : CrashException)
  | handler
  | kill

namespace Executor

/-- A domain whose block has just been cleared, with the monitor booting. -/
def booted (irq : Interrupts) : Executor where
  core := { ipc := .zero, irq := irq }
  pc := .boot
  log := { crashes := [], fpregs := none, regs := none, reported := none }

def inbox (s : Executor) : ExecutorToManager := s.core.ipc.executorToManager

def setInbox (s : Executor) (inbox : ExecutorToManager) : Executor :=
  { s with
    core :=
      { s.core with ipc := { s.core.ipc with executorToManager := inbox } } }

def goto (s : Executor) (pc : ExecutorPc) : Executor := { s with pc := pc }

/-- `main` stores its state. -/
def enterState (s : Executor) (st : DomainState) (pc : ExecutorPc) : Executor :=
  (s.setInbox { s.inbox with state := st.code }).goto pc

/-- `handleSmc`. -/
def smcStep (cpu : DomainIndex) (s : Executor) (c : SmcCall) : Executor :=
  let (core, saved) := handleSmc cpu c.mem s.core c.regs
  { core := core
    pc := if saved.isSome then .payload else .halted .el3
    log :=
      if c.Crashes then
        { s.log with
          crashes := s.log.crashes ++ [.smc c]
          reported := some s.log.crashes.length }
      else s.log }

/-- An exception that ends in a crash is taken: at EL1 by the payload, at EL3
wherever exceptions are unmasked. -/
def takes (s : Executor) (e : CrashException) : Bool :=
  match e.level with
  | .el1 =>
      match s.pc with
      | .payload => true
      | _ => false
  | .el3 => s.pc.interruptible

def take (s : Executor) (e : CrashException) : Executor :=
  { s with
    pc := .handler e s.log.crashes.length e.entry
    log := { s.log with crashes := s.log.crashes ++ [.exception e] } }

/-- The next store of `SynchronousInterrupt`, or the only one of the other
handlers. -/
def handlerStep (s : Executor) (e : CrashException) (n : ℕ) :
    HandlerPc → Executor
  | .saveFpuState =>
      { s.setInbox { s.inbox with fpregs := e.fpregs } with
        pc := .handler e n .saveRegs
        log := { s.log with fpregs := some n } }
  | .saveRegs =>
      { s.setInbox { s.inbox with regs := e.regs } with
        pc := .handler e n .reportCrash
        log := { s.log with regs := some n } }
  | .reportCrash =>
      { core :=
          { s.core with
            ipc := s.core.ipc.reportCrash e.entity (cString e.desc) e.address }
        pc := .halted e.level
        log := { s.log with reported := some n } }

/-- The kill interrupt: the monitor tears down the payload's interrupts and
starts again. -/
def killStep (s : Executor) : Executor :=
  { s with
    core := { s.core with irq := s.core.irq.teardownEl1Interrupts }
    pc := .boot }

/-- `setupInterrupts`, and the store of `monitor_ready`. -/
def readyStep (cpu : DomainIndex) (s : Executor) : Executor :=
  let irq := Interrupts.setupInterrupts cpu s.core.irq
  { s with core := { s.core with irq := irq } }.enterState .monitorReady .idle

def step (cpu : DomainIndex) (s : Executor) : ExecutorAction → Option Executor
  | .ready =>
      match s.pc with
      | .boot => some (s.readyStep cpu)
      | _ => none
  | .start =>
      match s.pc with
      | .idle => some (s.enterState .startingPayload .starting)
      | _ => none
  | .refuse =>
      match s.pc with
      | .starting => some (s.enterState .monitorReady .idle)
      | _ => none
  | .enter =>
      match s.pc with
      | .starting => some (s.goto .payload)
      | _ => none
  | .smc c =>
      match s.pc with
      | .payload => some (s.smcStep cpu c)
      | _ => none
  | .exception e => if s.takes e then some (s.take e) else none
  | .handler =>
      match s.pc with
      | .handler e n pc => some (s.handlerStep e n pc)
      | _ => none
  | .kill => if s.pc.interruptible then some s.killStep else none

/-! ## What a dump shows -/

/-- The registers in the block are those of the crash that was last reported,
and were stored by its handler. -/
structure HoldsCrash (s : Executor) (n : ℕ) (e : CrashException) : Prop where
  reported : s.log.reported = some n
  crash : s.log.crashes[n]? = some (.exception e)
  fpregsFrom : s.log.fpregs = some n
  regsFrom : s.log.regs = some n
  fpregs : s.inbox.fpregs = e.fpregs
  regs : s.inbox.regs = e.regs

/-- Every dump that succeeds shows the crash that put the domain into the state
it is in. -/
def DumpsPresentCrash (s : Executor) : Prop :=
  ∀ segments (c : DumpCall), c.state = DomainState.ofRaw s.inbox.state →
    (dumpCore segments c).error = none → ∃ n e, s.HoldsCrash n e

/-- The state word says that the payload or the monitor has crashed. -/
def Crashed (s : Executor) : Prop :=
  s.inbox.state = DomainState.crashedPayload.code ∨
    s.inbox.state = DomainState.crashedMonitor.code

instance (s : Executor) : Decidable s.Crashed :=
  inferInstanceAs (Decidable (_ ∨ _))

/-- The step reports no crash but a synchronous exception, and does not begin
to save one while the state word shows an earlier crash. -/
def CrashesSynchronously (s : Executor) : ExecutorAction → Prop
  | .smc c => ¬c.Crashes
  | .handler =>
      match s.pc with
      | .handler _ _ .saveFpuState => ¬s.Crashed
      | .handler e _ .reportCrash => e.kind = .synchronous
      | _ => True
  | _ => True

end Executor

/-! ## Monitor calls leave the saved registers alone -/

/-- The saved registers are the same. -/
structure IpcBlock.SameSavedState (ipc ipc' : IpcBlock) : Prop where
  regs : ipc'.executorToManager.regs = ipc.executorToManager.regs
  fpregs : ipc'.executorToManager.fpregs = ipc.executorToManager.fpregs

theorem IpcBlock.SameSavedState.trans {a b c : IpcBlock}
    (h : a.SameSavedState b) (h' : b.SameSavedState c) : a.SameSavedState c :=
  ⟨h'.regs.trans h.regs, h'.fpregs.trans h.fpregs⟩

theorem writeToStdout_sameSavedState {depth : ℕ} {ipc ipc' : IpcBlock}
    {data : List UInt8} {count : BitVec 32}
    (h : writeToStdout depth ipc data = some (ipc', count)) :
    ipc.SameSavedState ipc' := by
  refine writeToStdout_relates ?_ ?_ ?_ ?_ h
  · exact fun _ => ⟨rfl, rfl⟩
  · exact fun _ _ _ => IpcBlock.SameSavedState.trans
  · exact fun _ _ _ _ => ⟨rfl, rfl⟩
  · exact fun _ => ⟨rfl, rfl⟩

theorem handleSmc_sameSavedState
    (cpu : DomainIndex) (mem : BitVec 64 → UInt8) (core : Core)
    (saved : Aarch64Regs) :
    core.ipc.SameSavedState (handleSmc cpu mem core saved).1.ipc := by
  simp only [handleSmc]
  split_ifs
  · exact ⟨rfl, rfl⟩
  · exact ⟨rfl, rfl⟩
  · exact ⟨rfl, rfl⟩
  · split
    next hwrite => exact writeToStdout_sameSavedState hwrite
    · exact ⟨rfl, rfl⟩
  · exact ⟨rfl, rfl⟩
  · exact ⟨rfl, rfl⟩
  · exact ⟨rfl, rfl⟩
  · exact ⟨rfl, rfl⟩

/-- A call that is a crash leaves the state word saying so. -/
theorem handleSmc_state_of_crashes
    (cpu : DomainIndex) (core : Core) {c : SmcCall} (hc : c.Crashes) :
    (handleSmc cpu c.mem core c.regs).1.ipc.executorToManager.state =
        DomainState.crashedPayload.code ∨
      (handleSmc cpu c.mem core c.regs).1.ipc.executorToManager.state =
        DomainState.crashedMonitor.code := by
  rcases hc with hcrashed | hunknown
  · left
    have hx0 : c.regs.regs 0 = smcNotifyPayloadCrashed := hcrashed
    simp only [handleSmc, hx0]
    rfl
  · right
    simp only [SmcCall.Known, SmcCall.function, SmcCall.interruptFunctions,
      List.mem_append, List.mem_cons, List.not_mem_nil, or_false, not_or]
      at hunknown
    obtain ⟨⟨habi, hstarted, hcrashed, hstdout⟩, hconfigure, henable, hdisable⟩ :=
      hunknown
    simp only [handleSmc, habi, hstarted, hcrashed, hstdout, hconfigure,
      henable, hdisable, if_false]
    rfl

/-- Any other call leaves the state word alone or says that the payload is
running. -/
theorem handleSmc_state_of_not_crashes
    (cpu : DomainIndex) (core : Core) {c : SmcCall} (hc : ¬c.Crashes) :
    (handleSmc cpu c.mem core c.regs).1.ipc.executorToManager.state =
        core.ipc.executorToManager.state ∨
      (handleSmc cpu c.mem core c.regs).1.ipc.executorToManager.state =
        DomainState.runningPayload.code := by
  refine SmcCall.handleSmc_cases cpu core c
    (P := fun r =>
      r.1.ipc.executorToManager.state = core.ipc.executorToManager.state ∨
        r.1.ipc.executorToManager.state = DomainState.runningPayload.code)
    ?started ?crashed ?stdout ?interrupt ?unknown
  case started => exact fun _ => .inr rfl
  case crashed => exact fun _ _ hcrashed => absurd (.inl hcrashed) hc
  case stdout => exact fun _ _ _ _ hsame => .inl hsame.state
  case interrupt => exact fun _ _ _ _ => .inl rfl
  case unknown => exact fun _ _ hunknown => absurd (.inr hunknown) hc

namespace Executor

variable {cpu : DomainIndex} {s t : Executor} {a : ExecutorAction} {n : ℕ}
  {e : CrashException}

theorem ofRaw_eq_crashed_iff (raw : BitVec 32) :
    (DomainState.ofRaw raw = .crashedPayload ∨
        DomainState.ofRaw raw = .crashedMonitor) ↔
      raw = DomainState.crashedPayload.code ∨
        raw = DomainState.crashedMonitor.code := by
  simp only [DomainState.ofRaw, DomainState.code]
  split_ifs <;> simp_all

/-- Dumps succeed in the crashed states. -/
theorem dumpsPresentCrash_iff :
    s.DumpsPresentCrash ↔ (s.Crashed → ∃ n e, s.HoldsCrash n e) := by
  constructor
  · intro hdumps hcrashed
    obtain hstate := (ofRaw_eq_crashed_iff _).mpr hcrashed
    have hsucceeds : ({ crashedDump .cpu1 0 with
        state := DomainState.ofRaw s.inbox.state } : DumpCall).Succeeds :=
      ⟨hstate, rfl, nofun⟩
    have hresult := dumpCore_of_succeeds none hsucceeds rfl
    exact hdumps none _ rfl (congrArg DumpResult.error hresult)
  · intro hholds segments c hstate herror
    have hsucceeds : c.Succeeds := by
      by_contra hnot
      exact (error_of_not_succeeds hnot).1 herror
    have hcrashed := hsucceeds.1
    rw [hstate] at hcrashed
    exact hholds ((ofRaw_eq_crashed_iff _).mp hcrashed)

theorem dumpsPresentCrash_of_not_crashed (h : ¬s.Crashed) :
    s.DumpsPresentCrash :=
  dumpsPresentCrash_iff.mpr fun hcrashed => absurd hcrashed h

/-! ## Where the saved registers come from -/

section Kill

variable (s : Executor)

@[simp] theorem killStep_ipc : s.killStep.core.ipc = s.core.ipc := by
  rw [killStep]

@[simp] theorem killStep_pc : s.killStep.pc = .boot := by
  rw [killStep]

@[simp] theorem killStep_log : s.killStep.log = s.log := by
  rw [killStep]

end Kill

/-- What a step can be. -/
theorem step_cases
    {P : ExecutorAction → Executor → Prop}
    (h : s.step cpu a = some t)
    (ready : s.pc = .boot → P .ready (s.readyStep cpu))
    (start : s.pc = .idle →
      P .start (s.enterState .startingPayload .starting))
    (refuse : s.pc = .starting → P .refuse (s.enterState .monitorReady .idle))
    (enter : s.pc = .starting → P .enter (s.goto .payload))
    (smc : ∀ c, s.pc = .payload → P (.smc c) (s.smcStep cpu c))
    (exception : ∀ e, s.takes e = true → P (.exception e) (s.take e))
    (handler : ∀ e n pc, s.pc = .handler e n pc →
      P .handler (s.handlerStep e n pc))
    (kill : s.pc.interruptible = true → P .kill s.killStep) :
    P a t := by
  cases a with
  | exception e =>
      simp only [step, Option.ite_none_right_eq_some, Option.some.injEq] at h
      obtain ⟨htakes, rfl⟩ := h
      exact exception e htakes
  | kill =>
      simp only [step, Option.ite_none_right_eq_some, Option.some.injEq] at h
      obtain ⟨hpc, rfl⟩ := h
      exact kill hpc
  | ready =>
      simp only [step] at h
      split at h
      next hpc =>
        cases h
        exact ready hpc
      · cases h
  | start =>
      simp only [step] at h
      split at h
      next hpc =>
        cases h
        exact start hpc
      · cases h
  | refuse =>
      simp only [step] at h
      split at h
      next hpc =>
        cases h
        exact refuse hpc
      · cases h
  | enter =>
      simp only [step] at h
      split at h
      next hpc =>
        cases h
        exact enter hpc
      · cases h
  | smc c =>
      simp only [step] at h
      split at h
      next hpc =>
        cases h
        exact smc c hpc
      · cases h
  | handler =>
      simp only [step] at h
      split at h
      next e n pc hpc =>
        cases h
        exact handler e n pc hpc
      · cases h

/-- What the log says about the handler of crash `n` at its point `pc`. -/
structure HandlerInv (s : Executor) (e : CrashException) (n : ℕ)
    (pc : HandlerPc) : Prop where
  crash : s.log.crashes[n]? = some (.exception e)
  unreported : s.log.reported ≠ some n
  saves : pc ≠ .reportCrash → e.kind = .synchronous
  fpregs : pc ≠ .saveFpuState → e.kind = .synchronous → s.log.fpregs = some n
  regs : pc = .reportCrash → e.kind = .synchronous → s.log.regs = some n

/-- The log tells the truth about the registers in the block. -/
structure LogInv (s : Executor) : Prop where
  fpregs : ∀ n, s.log.fpregs = some n →
    ∃ e, s.log.crashes[n]? = some (.exception e) ∧ e.kind = .synchronous ∧
      s.inbox.fpregs = e.fpregs
  regs : ∀ n, s.log.regs = some n →
    ∃ e, s.log.crashes[n]? = some (.exception e) ∧ e.kind = .synchronous ∧
      s.inbox.regs = e.regs
  reported : ∀ n, s.log.reported = some n → n < s.log.crashes.length
  handler : ∀ e n pc, s.pc = .handler e n pc → s.HandlerInv e n pc

theorem logInv_booted (irq : Interrupts) : (booted irq).LogInv where
  fpregs := nofun
  regs := nofun
  reported := nofun
  handler := nofun

/-- The registers in the block and what the log says about them are the same,
and the log has at most grown. -/
structure SameSaved (s t : Executor) : Prop where
  inbox : s.core.ipc.SameSavedState t.core.ipc
  logFpregs : t.log.fpregs = s.log.fpregs
  logRegs : t.log.regs = s.log.regs
  crashes : s.log.crashes <+: t.log.crashes

theorem SameSaved.of_sameLog
    (hinbox : s.core.ipc.SameSavedState t.core.ipc) (hlog : t.log = s.log) :
    s.SameSaved t where
  inbox := hinbox
  logFpregs := congrArg CrashLog.fpregs hlog
  logRegs := congrArg CrashLog.regs hlog
  crashes := hlog ▸ List.prefix_refl _

theorem getElem?_of_prefix {α : Type*} {xs ys : List α} {n : ℕ} {x : α}
    (h : xs <+: ys) (hx : xs[n]? = some x) : ys[n]? = some x := by
  obtain ⟨more, rfl⟩ := h
  obtain ⟨hlt, -⟩ := List.getElem?_eq_some_iff.mp hx
  rw [List.getElem?_append_left hlt, hx]

/-- A step that stores no registers needs to look at the report and at the
handler only. -/
theorem LogInv.of_sameSaved
    (hinv : s.LogInv) (hsame : s.SameSaved t)
    (hreported : ∀ n, t.log.reported = some n → n < t.log.crashes.length)
    (hhandler : ∀ e n pc, t.pc = .handler e n pc → t.HandlerInv e n pc) :
    t.LogInv where
  fpregs n hn := by
    rw [hsame.logFpregs] at hn
    obtain ⟨e, he, hkind, hfpregs⟩ := hinv.fpregs n hn
    exact ⟨e, getElem?_of_prefix hsame.crashes he, hkind,
      hsame.inbox.fpregs.trans hfpregs⟩
  regs n hn := by
    rw [hsame.logRegs] at hn
    obtain ⟨e, he, hkind, hregs⟩ := hinv.regs n hn
    exact ⟨e, getElem?_of_prefix hsame.crashes he, hkind,
      hsame.inbox.regs.trans hregs⟩
  reported := hreported
  handler := hhandler

/-- A step outside the handlers that leaves the log alone. -/
theorem LogInv.of_sameLog
    (hinv : s.LogInv) (hinbox : s.core.ipc.SameSavedState t.core.ipc)
    (hlog : t.log = s.log) (hpc : ∀ e n pc, t.pc ≠ .handler e n pc) :
    t.LogInv := by
  refine hinv.of_sameSaved (.of_sameLog hinbox hlog) ?_ ?_
  · rw [hlog]
    exact hinv.reported
  · intro e n pc h
    exact absurd h (hpc e n pc)

theorem logInv_handlerStep {pc : HandlerPc}
    (hinv : s.LogInv) (hpc : s.pc = .handler e n pc) :
    (s.handlerStep e n pc).LogInv := by
  have hhandler := hinv.handler e n pc hpc
  have hlt : n < s.log.crashes.length :=
    (List.getElem?_eq_some_iff.mp hhandler.crash).1
  cases pc with
  | saveFpuState =>
      have hkind := hhandler.saves nofun
      refine ⟨?_, hinv.regs, hinv.reported, ?_⟩
      · intro m hm
        cases hm
        exact ⟨e, hhandler.crash, hkind, rfl⟩
      · intro e' m pc' hpc'
        cases hpc'
        exact ⟨hhandler.crash, hhandler.unreported, fun _ => hkind,
          fun _ _ => rfl, nofun⟩
  | saveRegs =>
      have hkind := hhandler.saves nofun
      refine ⟨hinv.fpregs, ?_, hinv.reported, ?_⟩
      · intro m hm
        cases hm
        exact ⟨e, hhandler.crash, hkind, rfl⟩
      · intro e' m pc' hpc'
        cases hpc'
        exact ⟨hhandler.crash, hhandler.unreported, nofun,
          fun _ => hhandler.fpregs nofun, fun _ _ => rfl⟩
  | reportCrash =>
      refine hinv.of_sameSaved ⟨⟨rfl, rfl⟩, rfl, rfl, List.prefix_refl _⟩ ?_ nofun
      intro m hm
      cases hm
      exact hlt

theorem logInv_take (hinv : s.LogInv) (e : CrashException) :
    (s.take e).LogInv := by
  refine hinv.of_sameSaved
    ⟨⟨rfl, rfl⟩, rfl, rfl, List.prefix_append _ _⟩ ?_ ?_
  · intro n hn
    have hlt := hinv.reported n hn
    simp only [take, List.length_append]
    omega
  · intro e' n pc hpc
    cases hpc
    refine ⟨List.getElem?_concat_length, ?_, ?_, ?_, ?_⟩
    · intro hn
      exact absurd (hinv.reported _ hn) (Nat.lt_irrefl _)
    · intro hentry
      cases hkind : e.kind <;> simp [CrashException.entry, hkind] at hentry ⊢
    · intro hentry hkind
      simp [CrashException.entry, hkind] at hentry
    · intro hentry hkind
      simp [CrashException.entry, hkind] at hentry

theorem logInv_smcStep (hinv : s.LogInv) (c : SmcCall) :
    (s.smcStep cpu c).LogInv := by
  have hsame := handleSmc_sameSavedState cpu c.mem s.core c.regs
  have hpc : ∀ e n pc, (s.smcStep cpu c).pc ≠ .handler e n pc := by
    intro e n pc
    simp only [smcStep]
    split_ifs <;> exact nofun
  by_cases hc : c.Crashes
  · refine hinv.of_sameSaved ⟨hsame, ?_, ?_, ?_⟩ ?_
      fun e n pc h => absurd h (hpc e n pc)
    · simp only [smcStep, if_pos hc]
    · simp only [smcStep, if_pos hc]
    · simp only [smcStep, if_pos hc]
      exact List.prefix_append _ _
    · intro n hn
      simp only [smcStep, if_pos hc, Option.some.injEq] at hn
      simp only [smcStep, if_pos hc, List.length_append, List.length_singleton]
      omega
  · exact hinv.of_sameLog hsame (if_neg hc) hpc

theorem logInv_step (hinv : s.LogInv) (h : s.step cpu a = some t) :
    t.LogInv := by
  refine step_cases (P := fun _ t => t.LogInv) h ?_ ?_ ?_ ?_
    (fun c _ => logInv_smcStep hinv c) (fun e _ => logInv_take hinv e)
    (fun e n pc hpc => logInv_handlerStep hinv hpc) ?_
  · intro _
    exact hinv.of_sameLog ⟨rfl, rfl⟩ rfl nofun
  · intro _
    exact hinv.of_sameLog ⟨rfl, rfl⟩ rfl nofun
  · intro _
    exact hinv.of_sameLog ⟨rfl, rfl⟩ rfl nofun
  · intro _
    exact hinv.of_sameLog ⟨rfl, rfl⟩ rfl nofun
  · intro _
    refine hinv.of_sameLog ?_ s.killStep_log ?_
    · rw [killStep_ipc]
      exact ⟨rfl, rfl⟩
    · rw [killStep_pc]
      exact nofun

/-! ## Runs -/

section Exact

variable (hinv : s.LogInv)
include hinv

/-- A crash that was not a synchronous exception leaves other registers in the
block. -/
theorem not_holdsCrash_of_unsaved
    (hreported : s.log.reported = some n)
    (hcrash : ∀ e, s.log.crashes[n]? = some (.exception e) →
      e.kind ≠ .synchronous) (m : ℕ) (e : CrashException) :
    ¬s.HoldsCrash m e := by
  intro hholds
  have hm : n = m := Option.some.inj (hreported.symm.trans hholds.reported)
  subst hm
  obtain ⟨e', he', hkind, -⟩ := hinv.regs n hholds.regsFrom
  exact hcrash e' he' hkind

theorem HoldsCrash.mk_of_log
    (hreported : s.log.reported = some n)
    (hcrash : s.log.crashes[n]? = some (.exception e))
    (hfpregs : s.log.fpregs = some n) (hregs : s.log.regs = some n) :
    s.HoldsCrash n e := by
  obtain ⟨e₁, he₁, -, hfp⟩ := hinv.fpregs n hfpregs
  obtain ⟨e₂, he₂, -, hgp⟩ := hinv.regs n hregs
  have h₁ : e₁ = e := by
    rw [hcrash] at he₁
    cases he₁
    rfl
  have h₂ : e₂ = e := by
    rw [hcrash] at he₂
    cases he₂
    rfl
  subst h₁
  subst h₂
  exact ⟨hreported, hcrash, hfpregs, hregs, hfp, hgp⟩

end Exact

theorem HoldsCrash.of_sameSaved
    (hholds : s.HoldsCrash n e) (hsame : s.SameSaved t)
    (hreported : t.log.reported = s.log.reported) : t.HoldsCrash n e where
  reported := hreported.trans hholds.reported
  crash := getElem?_of_prefix hsame.crashes hholds.crash
  fpregsFrom := hsame.logFpregs.trans hholds.fpregsFrom
  regsFrom := hsame.logRegs.trans hholds.regsFrom
  fpregs := hsame.inbox.fpregs.trans hholds.fpregs
  regs := hsame.inbox.regs.trans hholds.regs

/-- A step that reports no crash and stores no registers keeps the dumps
right. -/
theorem DumpsPresentCrash.of_sameSaved
    (hdumps : s.DumpsPresentCrash) (hsame : s.SameSaved t)
    (hreported : t.log.reported = s.log.reported)
    (hcrashed : t.Crashed → s.Crashed) : t.DumpsPresentCrash := by
  rw [dumpsPresentCrash_iff] at hdumps ⊢
  intro ht
  obtain ⟨n, e, hholds⟩ := hdumps (hcrashed ht)
  exact ⟨n, e, hholds.of_sameSaved hsame hreported⟩

theorem crashed_handlerStep_report :
    (s.handlerStep e n .reportCrash).Crashed := by
  cases hlevel : e.level with
  | el1 =>
      left
      simp only [handlerStep, inbox, IpcBlock.reportCrash,
        CrashException.entity, hlevel]
  | el3 =>
      right
      simp only [handlerStep, inbox, IpcBlock.reportCrash,
        CrashException.entity, hlevel]

/-- Whether a store of a handler keeps the dumps right. -/
theorem dumpsPresentCrash_handlerStep_iff {pc : HandlerPc}
    (hinv : s.LogInv) (hdumps : s.DumpsPresentCrash)
    (hpc : s.pc = .handler e n pc) :
    (s.handlerStep e n pc).DumpsPresentCrash ↔
      s.CrashesSynchronously .handler := by
  have hhandler := hinv.handler e n pc hpc
  have hinv' := logInv_handlerStep hinv hpc
  cases pc with
  | saveFpuState =>
      simp only [CrashesSynchronously, hpc]
      constructor
      · intro hdumps' hcrashed
        obtain ⟨m, e', hholds⟩ := dumpsPresentCrash_iff.mp hdumps' hcrashed
        have hm : n = m := Option.some.inj hholds.fpregsFrom
        subst hm
        exact hhandler.unreported hholds.reported
      · intro hnot
        exact dumpsPresentCrash_of_not_crashed hnot
  | saveRegs =>
      simp only [CrashesSynchronously, hpc, iff_true]
      refine dumpsPresentCrash_of_not_crashed fun hcrashed => ?_
      obtain ⟨m, e', hholds⟩ := dumpsPresentCrash_iff.mp hdumps hcrashed
      have hfpregs := hhandler.fpregs nofun (hhandler.saves nofun)
      have hm : n = m := Option.some.inj (hfpregs.symm.trans hholds.fpregsFrom)
      subst hm
      exact hhandler.unreported hholds.reported
  | reportCrash =>
      simp only [CrashesSynchronously, hpc]
      constructor
      · intro hdumps'
        obtain ⟨m, e', hholds⟩ :=
          dumpsPresentCrash_iff.mp hdumps' crashed_handlerStep_report
        by_contra hkind
        refine not_holdsCrash_of_unsaved hinv' rfl ?_ m e' hholds
        intro e'' he''
        have heq := hhandler.crash.symm.trans he''
        cases heq
        exact hkind
      · intro hkind
        refine dumpsPresentCrash_iff.mpr fun _ => ⟨n, e, ?_⟩
        exact HoldsCrash.mk_of_log hinv' rfl hhandler.crash
          (hhandler.fpregs nofun hkind) (hhandler.regs rfl hkind)

/-- Whether a monitor call keeps the dumps right. -/
theorem dumpsPresentCrash_smcStep_iff
    (hinv : s.LogInv) (hdumps : s.DumpsPresentCrash) (c : SmcCall) :
    (s.smcStep cpu c).DumpsPresentCrash ↔ ¬c.Crashes := by
  have hsame := handleSmc_sameSavedState cpu c.mem s.core c.regs
  by_cases hc : c.Crashes
  · refine iff_of_false ?_ (not_not_intro hc)
    intro hdumps'
    obtain ⟨m, e, hholds⟩ := dumpsPresentCrash_iff.mp hdumps'
      (handleSmc_state_of_crashes cpu s.core hc)
    have hlog : (s.smcStep cpu c).log =
        { s.log with
          crashes := s.log.crashes ++ [.smc c]
          reported := some s.log.crashes.length } := if_pos hc
    refine not_holdsCrash_of_unsaved (logInv_smcStep hinv c)
      (congrArg CrashLog.reported hlog) ?_ m e hholds
    intro e' he'
    rw [hlog, List.getElem?_concat_length] at he'
    cases he'
  · refine iff_of_true ?_ hc
    have hlog : (s.smcStep cpu c).log = s.log := if_neg hc
    rcases handleSmc_state_of_not_crashes cpu s.core hc with hstate | hstate
    · refine hdumps.of_sameSaved (.of_sameLog hsame hlog) ?_ ?_
      · rw [hlog]
      · intro hcrashed
        rw [Crashed] at hcrashed ⊢
        exact hstate ▸ hcrashed
    · refine dumpsPresentCrash_of_not_crashed ?_
      rintro (hcrashed | hcrashed)
      · exact absurd (hstate.symm.trans hcrashed) (by decide)
      · exact absurd (hstate.symm.trans hcrashed) (by decide)

/-- Whether a step keeps the dumps right. -/
theorem dumpsPresentCrash_step_iff
    (hinv : s.LogInv) (hdumps : s.DumpsPresentCrash)
    (h : s.step cpu a = some t) :
    t.DumpsPresentCrash ↔ s.CrashesSynchronously a := by
  refine step_cases
    (P := fun a t => t.DumpsPresentCrash ↔ s.CrashesSynchronously a) h
    ?ready ?start ?refuse ?enter
    (fun c _ => dumpsPresentCrash_smcStep_iff hinv hdumps c) ?exception
    (fun e n pc hpc => dumpsPresentCrash_handlerStep_iff hinv hdumps hpc) ?kill
  case ready =>
    refine fun _ => iff_of_true (dumpsPresentCrash_of_not_crashed ?_) trivial
    exact fun hcrashed => hcrashed.elim nofun nofun
  case start =>
    refine fun _ => iff_of_true (dumpsPresentCrash_of_not_crashed ?_) trivial
    exact fun hcrashed => hcrashed.elim nofun nofun
  case refuse =>
    refine fun _ => iff_of_true (dumpsPresentCrash_of_not_crashed ?_) trivial
    exact fun hcrashed => hcrashed.elim nofun nofun
  case enter =>
    exact fun _ => iff_of_true
      (hdumps.of_sameSaved (.of_sameLog ⟨rfl, rfl⟩ rfl) rfl id)
      trivial
  case exception =>
    exact fun e _ => iff_of_true
      (hdumps.of_sameSaved ⟨⟨rfl, rfl⟩, rfl, rfl, List.prefix_append _ _⟩ rfl id)
      trivial
  case kill =>
    intro _
    have hinbox : s.core.ipc.SameSavedState s.killStep.core.ipc := by
      rw [killStep_ipc]
      exact ⟨rfl, rfl⟩
    have hsame := SameSaved.of_sameLog hinbox s.killStep_log
    refine iff_of_true (hdumps.of_sameSaved hsame ?_ ?_) trivial
    · rw [killStep_log]
    · intro hcrashed
      rwa [Crashed, inbox, killStep_ipc] at hcrashed

end Executor

open StepSystem

/-- Over a whole run every dump shows the crash that put the domain into its
state exactly when every crash that is reported is a synchronous exception, and
none is saved while the domain still shows an earlier one. -/
theorem dumpsPresentCrash_iff_crashesSynchronously
    (cpu : DomainIndex) (irq : Interrupts) (schedule : List ExecutorAction) :
    Throughout (Executor.step cpu) (.booted irq) schedule
        Executor.DumpsPresentCrash ↔
      EachStep (Executor.step cpu) (.booted irq) schedule
        Executor.CrashesSynchronously := by
  refine throughout_iff_eachStep
    (fun _ _ _ hinv h => Executor.logInv_step hinv h)
    (fun _ _ _ hinv hdumps h =>
      Executor.dumpsPresentCrash_step_iff hinv hdumps h)
    (Executor.logInv_booted irq)
    (Executor.dumpsPresentCrash_of_not_crashed ?_) schedule
  rintro (hcrashed | hcrashed)
  · exact absurd hcrashed (by decide : (0 : BitVec 32) ≠ 4)
  · exact absurd hcrashed (by decide : (0 : BitVec 32) ≠ 5)

/-- An exception that interrupts a payload at `pc`. -/
def payloadException (kind : ExceptionKind) (pc : BitVec 64) :
    CrashException where
  level := .el1
  kind := kind
  regs := { IpcBlock.zero.executorToManager.regs with pc := pc }
  fpregs := IpcBlock.zero.executorToManager.fpregs
  address := pc

/-- A payload is started and confirms its start. -/
def payloadStart : List ExecutorAction :=
  [.ready, .start, .enter, .smc (smcCall smcNotifyPayloadStarted 0 0)]

/-- A first payload is stopped by a synchronous exception and killed, a second
one by an interrupt that it has no handler for. -/
def crashAfterCrash : List ExecutorAction :=
  payloadStart ++
    [.exception (payloadException .synchronous 0x800100040), .handler, .handler,
      .handler, .kill] ++
    payloadStart ++ [.exception (payloadException .irq 0x800100080), .handler]

/-- The second dump would show the registers of the first payload. -/
theorem not_dumpsPresentCrash_crashAfterCrash :
    ¬∀ (cpu : DomainIndex) (irq : Interrupts) (schedule : List ExecutorAction),
      Throughout (Executor.step cpu) (.booted irq) schedule
        Executor.DumpsPresentCrash := by
  intro hright
  have hrun : (run (Executor.step .cpu1) (.booted .reset) crashAfterCrash).any
      (fun t => decide t.Crashed && decide (t.log.reported = some 1) &&
        decide (t.log.regs = some 0)) = true := by
    decide
  obtain ⟨t, ht, htest⟩ := (Option.any_eq_true _ _).mp hrun
  simp only [Bool.and_eq_true, decide_eq_true_eq] at htest
  obtain ⟨⟨hcrashed, hreported⟩, hregs⟩ := htest
  have hdumps := hright .cpu1 .reset crashAfterCrash crashAfterCrash t
    (List.prefix_refl _) ht
  obtain ⟨n, e, hholds⟩ :=
    Executor.dumpsPresentCrash_iff.mp hdumps hcrashed
  have hreportedBy := hreported.symm.trans hholds.reported
  have hstoredBy := hregs.symm.trans hholds.regsFrom
  exact absurd (hstoredBy.trans hreportedBy.symm) (by decide)

end Bmboot
