import Bmboot.Gic.KillInterrupt
import Bmboot.Lib.StepSystem
import Bmboot.Vectors.FpAccess

/-!
# Nested interrupts of the payload

Main and the interrupt handlers share one stack.  `IRQInterrupt`
(`vectors_el1.cpp`) unmasks interrupts around the call of the user's handler, so
that other interrupts nest in it, and floating point instructions of main and of
handlers trap at any time.  Both write `ELR_EL1` and `SPSR_EL1`.
-/

namespace Bmboot

open A64 ByteMemory StepSystem

/-! ## The state -/

/-- What `IRQInterrupt` does next, with its local variables. -/
inductive IrqPc
  | acknowledge
  | readSpsr (iar : BitVec 32)
  | readElr (iar : BitVec 32) (spsr : BitVec 64)
  | unmask (iar : BitVec 32) (spsr elr : BitVec 64)
  | userHandler (iar : BitVec 32) (spsr elr : BitVec 64)
  | writeSpsr (iar : BitVec 32) (spsr elr : BitVec 64)
  | writeElr (iar : BitVec 32) (elr : BitVec 64)
  | endOfInterrupt (iar : BitVec 32)
  | ret
  /-- `notifyPayloadCrashed`, before the end of the interrupt and the endless
  loop. -/
  | crash (iar : BitVec 32)
  | hang
  deriving DecidableEq

/-- An active interrupt. -/
structure Activation where
  /-- The context that the interrupt found, with `ELR_EL1` and `SPSR_EL1` as the
  exception wrote them. -/
  interrupted : IrqContext
  /-- The stack pointer and the registers with which `IRQInterrupt` was
  called. -/
  base : BitVec 64
  called : Fin 31 → BitVec 64
  pc : IrqPc

/-- An access to `IAR` or to `EOIR`. -/
inductive GicAccess
  | acknowledge (iar : BitVec 32)
  | endOfInterrupt (iar : BitVec 32)

/-- The payload, with its history: the accesses to the interrupt controller,
and for each return from an interrupt or from a trap the context that was found
and the one that `eret` resumes. -/
structure IrqState where
  cpu : Cpu
  pc : BitVec 64
  /-- `PSTATE` as `SPSR_EL1` shows it. -/
  pstate : BitVec 64
  /-- The data of the vectors. -/
  data : Memory 64
  /-- The active interrupts, innermost first. -/
  activations : List Activation
  gic : List GicAccess
  resumed : List (IrqContext × IrqContext)
  trapped : List (IrqContext × IrqContext)

/-- Compiled code executes, a floating point instruction traps, an interrupt is
taken, or the innermost `IRQInterrupt` takes its next step or returns.  The
interrupt controller and the table of user handlers give the parameters of a
step. -/
inductive IrqAction
  | code (cpu : Cpu) (pc pstate : BitVec 64)
  | fpTrap (esr : BitVec 64)
  | irq
  | irqInterrupt (iar : BitVec 32) (registered : Bool)
  | ret

/-! ## The interrupt controller -/

/-- The interrupts that are acknowledged and not ended, the last one first.  An
access that does not end the last one is refused. -/
def GicAccess.step : List (BitVec 32) → GicAccess → Option (List (BitVec 32))
  | active, .acknowledge iar => some (iar :: active)
  | [], .endOfInterrupt _ => none
  | last :: active, .endOfInterrupt iar =>
      if iar = last then some active else none

/-- The interrupt that the handler has acknowledged and not ended. -/
def IrqPc.active : IrqPc → Option (BitVec 32)
  | .acknowledge | .ret | .hang => none
  | .readSpsr iar | .readElr iar _ | .unmask iar _ _ | .userHandler iar _ _
  | .writeSpsr iar _ _ | .writeElr iar _ | .endOfInterrupt iar | .crash iar =>
      some iar

def activeInterrupts (activations : List Activation) : List (BitVec 32) :=
  activations.filterMap fun a => a.pc.active

/-! ## Steps -/

/-- Only in the user's handler is an interrupt unmasked. -/
def IrqPc.isUserHandler : IrqPc → Bool
  | .userHandler _ _ _ => true
  | _ => false

/-- The interrupt is one for which a handler is registered. -/
def isUserInterrupt (iar : BitVec 32) (registered : Bool) : Bool :=
  let interruptId : ℤ := (iar &&& Interrupts.iarInterruptIdMask).toNat
  decide (interruptId ≥ gicMinUserInterruptId) &&
    decide (interruptId ≤ gicMaxUserInterruptId) && registered

namespace IrqState

/-- Before the first interrupt. -/
def main (cpu : Cpu) (pc pstate : BitVec 64) (data : Memory 64) : IrqState where
  cpu := cpu
  pc := pc
  pstate := pstate
  data := data
  activations := []
  gic := []
  resumed := []
  trapped := []

/-- The registers that an exception to EL1 writes. -/
def takeException (s : IrqState) : Cpu :=
  { s.cpu with
    sys := Function.update (Function.update s.cpu.sys (.elr .el1) s.pc)
      (.spsr .el1) s.pstate }

/-- A trap writes the syndrome as well. -/
def takeTrap (s : IrqState) (esr : BitVec 64) : Cpu :=
  { s.takeException with
    sys := Function.update s.takeException.sys (.esr .el1) esr }

def eret (s : IrqState) (p : Cpu × Memory 64) : IrqState :=
  { s with
    cpu := p.1
    data := p.2
    pc := p.1.sys (.elr .el1)
    pstate := p.1.sys (.spsr .el1) }

/-- The stack of compiled code grows down from the innermost frame, and nothing
but the stub accesses a frame. -/
def RespectsFrames (s : IrqState) (after : Cpu) : Prop :=
  ∀ a ∈ s.activations, after.sp ≤ a.base ∧ ∀ i < irqFrameSize,
    after.mem (a.base + BitVec.ofNat 64 i) =
      s.cpu.mem (a.base + BitVec.ofNat 64 i)

instance (s : IrqState) (after : Cpu) : Decidable (s.RespectsFrames after) :=
  inferInstanceAs (Decidable (∀ a ∈ s.activations, _ ∧ _))

/-- Main and the user's handlers may mask and unmask interrupts. -/
def mayUnmask (s : IrqState) : Bool :=
  match s.activations with
  | [] => true
  | a :: _ => a.pc.isUserHandler

/-- `SynchronousInterruptHandler`.  A frame below address zero would be another
exception. -/
def fpTrap (sym : VectorSymbols) (s : IrqState) (esr : BitVec 64) :
    Option IrqState :=
  if s.cpu.sys .cpacr &&& fpen = 0 ∧ esr &&& (0x3f <<< 26) = fpAccessClass ∧
      0x110 ≤ s.cpu.sp.toNat then
    let p := sym.fpTrap (s.takeTrap esr, s.data)
    some
      { s.eret p with
        trapped := s.trapped ++ [(contextOf (s.takeTrap esr), contextOf p.1)] }
  else none

/-- `IRQInterruptHandler` up to the first instruction of `IRQInterrupt`. -/
def irqCall (sym : VectorSymbols) (s : IrqState) : Cpu :=
  (exec irqEntry s.takeException).setX 30 sym.irqReturn

def irq (sym : VectorSymbols) (s : IrqState) : Option IrqState :=
  if s.pstate &&& daifIMask = 0 ∧ irqFrameSize ≤ s.cpu.sp.toNat then
    some
      { s with
        cpu := s.irqCall sym
        pc := sym.irqInterrupt
        pstate := s.pstate ||| daifAllMasked
        activations :=
          { interrupted := contextOf s.takeException
            base := (s.irqCall sym).sp
            called := (s.irqCall sym).x
            pc := .acknowledge } :: s.activations }
  else none

/-- The next access of `IRQInterrupt` to a system register or to the interrupt
controller. -/
def irqInterrupt (s : IrqState) (iar : BitVec 32) (registered : Bool) :
    Option IrqState :=
  match s.activations with
  | [] => none
  | a :: rest =>
    let goto (pc : IrqPc) : IrqState :=
      { s with activations := { a with pc := pc } :: rest }
    let write (r : SysReg) (value : BitVec 64) : Cpu :=
      { s.cpu with sys := Function.update s.cpu.sys r value }
    match a.pc with
    | .acknowledge =>
        some
          { goto (if isUserInterrupt iar registered then .readSpsr iar
              else .crash iar) with
            gic := s.gic ++ [.acknowledge iar] }
    | .readSpsr iar => some (goto (.readElr iar (s.cpu.sys (.spsr .el1))))
    | .readElr iar spsr =>
        some (goto (.unmask iar spsr (s.cpu.sys (.elr .el1))))
    | .unmask iar spsr elr =>
        some
          { goto (.userHandler iar spsr elr) with
            pstate := s.pstate &&& ~~~daifIMask }
    | .userHandler iar spsr elr =>
        some
          { goto (.writeSpsr iar spsr elr) with
            pstate := s.pstate ||| daifIMask }
    | .writeSpsr iar spsr elr =>
        some { goto (.writeElr iar elr) with cpu := write (.spsr .el1) spsr }
    | .writeElr iar elr =>
        some { goto (.endOfInterrupt iar) with cpu := write (.elr .el1) elr }
    | .endOfInterrupt iar =>
        some { goto .ret with gic := s.gic ++ [.endOfInterrupt iar] }
    | .crash iar =>
        some { goto .hang with gic := s.gic ++ [.endOfInterrupt iar] }
    | .ret | .hang => none

/-- The return of `IRQInterrupt`, with the registers that a function has to
preserve, and `IRQInterruptHandler` behind the call. -/
def ret (sym : VectorSymbols) (s : IrqState) : Option IrqState :=
  match s.activations with
  | [] => none
  | a :: rest =>
    if a.pc = .ret ∧ s.cpu.sp = a.base ∧
        ∀ i : Fin 31, 19 ≤ i → i ≤ 29 → s.cpu.x i = a.called i then
      let p := sym.irqExit (s.cpu, s.data)
      some
        { s.eret p with
          activations := rest
          resumed := s.resumed ++ [(a.interrupted, contextOf p.1)] }
    else none

def step (sym : VectorSymbols) (s : IrqState) : IrqAction → Option IrqState
  | .code cpu pc pstate =>
      if s.RespectsFrames cpu ∧
          (s.mayUnmask ∨ pstate &&& daifIMask = s.pstate &&& daifIMask) then
        some { s with cpu := cpu, pc := pc, pstate := pstate }
      else none
  | .fpTrap esr => s.fpTrap sym esr
  | .irq => s.irq sym
  | .irqInterrupt iar registered => s.irqInterrupt iar registered
  | .ret => s.ret sym

/-- So far every interrupted context has resumed as it was, a trapped one with
the floating point access enabled, and the interrupts have been ended in the
reverse order of their acknowledgements: those that are not ended are the ones
of the active handlers. -/
structure Transparent (s : IrqState) : Prop where
  resumed : ∀ r ∈ s.resumed, r.2 = r.1
  trapped : ∀ r ∈ s.trapped, r.2 = { r.1 with cpacr := r.1.cpacr ||| fpen }
  nested : run GicAccess.step [] s.gic = some (activeInterrupts s.activations)

end IrqState

/-! ## The stack -/

/-- The frames of the active interrupts, given the stack pointer of the running
context: each holds the context that it interrupted, directly below the stack
of that context. -/
inductive FramesOpen (mem : Memory 64) : BitVec 64 → List Activation → Prop
  | main {sp : BitVec 64} : FramesOpen mem sp []
  | handler {sp : BitVec 64} {a : Activation} {rest : List Activation}
      (hsp : sp ≤ a.base)
      (hbase : a.base.toNat + irqFrameSize = a.interrupted.sp.toNat)
      (hframe : FrameHolds mem a.base a.interrupted)
      (hcalled : ∀ i : Fin 31, 19 ≤ i → i ≤ 29 →
        a.called i = a.interrupted.x i)
      (hrest : FramesOpen mem a.interrupted.sp rest) :
      FramesOpen mem sp (a :: rest)

namespace FramesOpen

variable {mem mem' : Memory 64} {sp sp' : BitVec 64}
  {activations : List Activation}

/-- Every frame lies between the stack pointer and the end of the memory. -/
theorem bounds (h : FramesOpen mem sp activations) :
    ∀ a ∈ activations, sp ≤ a.base ∧ a.base.toNat + irqFrameSize < 2 ^ 64 := by
  induction h with
  | main => nofun
  | @handler sp a rest hsp hbase hframe hcalled hrest ih =>
      have hlt := a.interrupted.sp.isLt
      intro b hb
      rcases List.mem_cons.mp hb with rfl | hb
      · exact ⟨hsp, hbase ▸ hlt⟩
      · obtain ⟨hle, hend⟩ := ih b hb
        refine ⟨?_, hend⟩
        rw [BitVec.le_def] at hsp hle ⊢
        omega

/-- Whoever leaves the frames alone keeps them. -/
theorem congr (h : FramesOpen mem sp activations)
    (hsame : ∀ a ∈ activations, ∀ i < irqFrameSize,
      mem' (a.base + BitVec.ofNat 64 i) = mem (a.base + BitVec.ofNat 64 i)) :
    FramesOpen mem' sp activations := by
  induction h with
  | main => exact .main
  | handler hsp hbase hframe hcalled hrest ih =>
      refine .handler hsp hbase (hframe.congr (hsame _ List.mem_cons_self))
        hcalled (ih ?_)
      intro a ha
      exact hsame a (List.mem_cons_of_mem _ ha)

/-- The stack of the running context may grow and shrink below the frames. -/
theorem of_sp (h : FramesOpen mem sp activations)
    (hsp : ∀ a ∈ activations, sp' ≤ a.base) :
    FramesOpen mem sp' activations := by
  cases h with
  | main => exact .main
  | handler _ hbase hframe hcalled hrest =>
      exact .handler (hsp _ List.mem_cons_self) hbase hframe hcalled hrest

/-- The bytes of a frame do not lie in what an exception stores below the stack
pointer. -/
theorem le_offset (h : FramesOpen mem sp activations) {n : ℕ}
    (hn : n ≤ sp.toNat) :
    ∀ a ∈ activations, ∀ i < irqFrameSize,
      n ≤ (a.base + BitVec.ofNat 64 i - (sp - BitVec.ofNat 64 n)).toNat := by
  intro a ha i hi
  obtain ⟨hsp, hend⟩ := h.bounds a ha
  rw [irqFrameSize] at hi hend
  rw [BitVec.le_def] at hsp
  bv_omega

/-- What is stored below the stack pointer leaves the frames alone. -/
theorem write_below (h : FramesOpen mem sp activations) {n : ℕ}
    {bytes : List UInt8} (hlength : bytes.length = n) (hn : n ≤ sp.toNat) :
    FramesOpen (write mem (sp - BitVec.ofNat 64 n) bytes) sp activations := by
  apply h.congr
  intro a ha i hi
  apply write_of_le
  rw [hlength]
  exact h.le_offset hn a ha i hi

/-- The frame of an interrupt that is taken. -/
theorem push {s : Cpu} (h : FramesOpen s.mem s.sp activations)
    (hroom : irqFrameSize ≤ s.sp.toNat) {a : Activation}
    (hbase : a.base = s.sp - 0xd0#64) (hinterrupted : a.interrupted = contextOf s)
    (hcalled : ∀ i : Fin 31, 19 ≤ i → i ≤ 29 → a.called i = s.x i) :
    FramesOpen (withIrqFrame s) (s.sp - 0xd0#64) (a :: activations) := by
  have hbelow : s.sp.toNat = (s.sp - 0xd0#64).toNat + irqFrameSize := by
    rw [irqFrameSize] at hroom ⊢
    bv_omega
  refine .handler (BitVec.le_of_eq hbase.symm) ?_ ?_ ?_ ?_
  · rw [hbase, hinterrupted]
    exact hbelow.symm
  · rw [hbase, hinterrupted]
    exact frameHolds_withIrqFrame s
  · rw [hinterrupted]
    exact hcalled
  · rw [hinterrupted]
    apply h.congr
    intro b hb i hi
    exact withIrqFrame_of_le (h.le_offset hroom b hb i hi)

end FramesOpen

/-! ## What the steps do -/

theorem FramesOpen.setPc {mem : Memory 64} {sp : BitVec 64} {a : Activation}
    {rest : List Activation} (pc : IrqPc)
    (h : FramesOpen mem sp (a :: rest)) :
    FramesOpen mem sp ({ a with pc := pc } :: rest) := by
  cases h with
  | handler hsp hbase hframe hcalled hrest =>
      exact .handler hsp hbase hframe hcalled hrest

namespace IrqState

variable {sym : VectorSymbols} {s t : IrqState}

/-- A step of `IRQInterrupt` leaves the stack alone, and its accesses to the
interrupt controller are those of the innermost handler. -/
theorem irqInterrupt_cases {iar : BitVec 32} {registered : Bool}
    (h : s.irqInterrupt iar registered = some t) :
    ∃ a rest pc, s.activations = a :: rest ∧
      t.activations = { a with pc := pc } :: rest ∧ t.cpu.sp = s.cpu.sp ∧
      t.cpu.mem = s.cpu.mem ∧ t.resumed = s.resumed ∧
      t.trapped = s.trapped ∧
      ((pc.active = a.pc.active ∧ t.gic = s.gic) ∨
        (a.pc.active = none ∧ pc.active = some iar ∧
          t.gic = s.gic ++ [.acknowledge iar]) ∨
        ∃ iar', a.pc.active = some iar' ∧ pc.active = none ∧
          t.gic = s.gic ++ [.endOfInterrupt iar']) := by
  cases hactivations : s.activations with
  | nil =>
      simp only [irqInterrupt, hactivations] at h
      cases h
  | cons a rest =>
      refine ⟨a, rest, ?_⟩
      cases hpc : a.pc with
      | acknowledge =>
          simp only [irqInterrupt, hactivations, hpc] at h
          cases h
          refine ⟨_, rfl, rfl, rfl, rfl, rfl, rfl, .inr (.inl ⟨rfl, ?_, rfl⟩)⟩
          split <;> rfl
      | readSpsr | readElr | unmask | userHandler | writeSpsr | writeElr =>
          simp only [irqInterrupt, hactivations, hpc] at h
          cases h
          exact ⟨_, rfl, rfl, rfl, rfl, rfl, rfl, .inl ⟨rfl, rfl⟩⟩
      | endOfInterrupt iar' | crash iar' =>
          simp only [irqInterrupt, hactivations, hpc] at h
          cases h
          exact ⟨_, rfl, rfl, rfl, rfl, rfl, rfl,
            .inr (.inr ⟨iar', rfl, rfl, rfl⟩)⟩
      | ret | hang =>
          simp only [irqInterrupt, hactivations, hpc] at h
          cases h

/-- A trap is transparent, and happens where there is room for its frame. -/
theorem fpTrap_cases {esr : BitVec 64} (h : s.fpTrap sym esr = some t) :
    0x110 ≤ s.cpu.sp.toNat ∧ FpEnabled (s.takeTrap esr) t.cpu ∧
      t =
        { s.eret (t.cpu, t.data) with
          trapped := s.trapped ++
            [(contextOf (s.takeTrap esr), contextOf t.cpu)] } := by
  rw [fpTrap] at h
  split at h
  next hguard =>
    obtain ⟨-, hclass, hroom⟩ := hguard
    cases h
    have hesr : (s.takeTrap esr).sys (.esr .el1) = esr := by
      simp only [takeTrap, Function.update_self]
    have henabled := fpEnabled_fpTrap sym (s.takeTrap esr, s.data)
      (hesr.symm ▸ hclass)
    exact ⟨hroom, henabled, rfl⟩
  · cases h

/-- The exception return of a trap restores `PSTATE`. -/
theorem pstate_fpTrap {esr : BitVec 64} (h : s.fpTrap sym esr = some t) :
    t.pstate = s.pstate := by
  obtain ⟨-, henabled, heret⟩ := fpTrap_cases h
  have hspsr : (s.takeTrap esr).sys (.spsr .el1) = s.pstate := by
    simp [takeTrap, takeException]
  have hpstate : t.pstate = t.cpu.sys (.spsr .el1) := by
    rw [heret]
    rfl
  rw [hpstate, henabled.sys _ (by decide), hspsr]

/-- An interrupt is taken where it is not masked and there is room for its
frame. -/
theorem irq_cases (h : s.irq sym = some t) :
    s.pstate &&& daifIMask = 0 ∧ irqFrameSize ≤ s.cpu.sp.toNat ∧
      t.cpu = s.irqCall sym ∧ t.pstate = s.pstate ||| daifAllMasked ∧
      t.gic = s.gic ∧ t.resumed = s.resumed ∧ t.trapped = s.trapped ∧
      t.activations =
        { interrupted := contextOf s.takeException
          base := (s.irqCall sym).sp
          called := (s.irqCall sym).x
          pc := .acknowledge } :: s.activations := by
  rw [irq] at h
  split at h
  next hguard =>
    cases h
    exact ⟨hguard.1, hguard.2, rfl, rfl, rfl, rfl, rfl, rfl⟩
  · cases h

/-- A return finds the frame at the stack pointer. -/
theorem ret_cases (h : s.ret sym = some t) :
    ∃ a rest, s.activations = a :: rest ∧ a.pc = .ret ∧
      s.cpu.sp = a.base ∧
      (∀ i : Fin 31, 19 ≤ i → i ≤ 29 → s.cpu.x i = a.called i) ∧
      t.cpu = (sym.irqExit (s.cpu, s.data)).1 ∧
      t.pc = (contextOf t.cpu).elr ∧ t.pstate = (contextOf t.cpu).spsr ∧
      t.activations = rest ∧ t.gic = s.gic ∧ t.trapped = s.trapped ∧
      t.resumed = s.resumed ++ [(a.interrupted, contextOf t.cpu)] := by
  cases hactivations : s.activations with
  | nil =>
      simp only [ret, hactivations] at h
      cases h
  | cons a rest =>
      simp only [ret, hactivations] at h
      split at h
      next hret =>
        obtain ⟨hpc, hsp, hcalled⟩ := hret
        cases h
        exact ⟨a, rest, rfl, hpc, hsp, hcalled, rfl, rfl, rfl, rfl, rfl, rfl,
          rfl⟩
      · cases h

/-! ## The invariant -/

structure Inv (s : IrqState) : Prop extends Transparent s where
  frames : FramesOpen s.cpu.mem s.cpu.sp s.activations

theorem inv_main (cpu : Cpu) (pc pstate : BitVec 64) (data : Memory 64) :
    (main cpu pc pstate data).Inv where
  resumed := nofun
  trapped := nofun
  nested := rfl
  frames := .main

/-- A further context of a history meets what the earlier ones meet. -/
theorem forall_mem_concat {history : List (IrqContext × IrqContext)}
    {P : IrqContext × IrqContext → Prop} {last : IrqContext × IrqContext}
    (hhistory : ∀ r ∈ history, P r) (hlast : P last) :
    ∀ r ∈ history ++ [last], P r := by
  intro r hr
  rcases List.mem_append.mp hr with hold | hnew
  · exact hhistory r hold
  · rw [List.mem_singleton.mp hnew]
    exact hlast

/-- The trap leaves its frame below the stack pointer. -/
theorem inv_fpTrap (hinv : s.Inv) {esr : BitVec 64}
    (h : s.fpTrap sym esr = some t) : t.Inv := by
  obtain ⟨hroom, henabled, heret⟩ := fpTrap_cases h
  have hframes : FramesOpen (s.takeTrap esr).mem (s.takeTrap esr).sp
    s.activations := hinv.frames
  have hbelow : FramesOpen t.cpu.mem t.cpu.sp s.activations := by
    rw [henabled.mem, henabled.sp]
    exact hframes.write_below (length_regs _) hroom
  rw [heret]
  refine ⟨⟨hinv.resumed, ?_, hinv.nested⟩, hbelow⟩
  apply forall_mem_concat hinv.trapped
  exact henabled.contextOf_eq

theorem sp_irqCall (sym : VectorSymbols) (s : IrqState) :
    (s.irqCall sym).sp = s.takeException.sp - 0xd0#64 := by
  rw [irqCall, exec_irqEntry]
  rfl

theorem mem_irqCall (sym : VectorSymbols) (s : IrqState) :
    (s.irqCall sym).mem = withIrqFrame s.takeException := by
  rw [irqCall, exec_irqEntry]
  rfl

/-- The registers that a function preserves are those of the interrupted
context. -/
theorem x_irqCall (sym : VectorSymbols) (s : IrqState) {i : Fin 31}
    (hlow : 19 ≤ i) (hhigh : i ≤ 29) : (s.irqCall sym).x i = s.cpu.x i := by
  have h30 : i ≠ 30 := Fin.ne_of_lt (Fin.lt_of_le_of_lt hhigh (by decide))
  have h3 : 3 ≤ i := Fin.le_trans (by decide) hlow
  rw [irqCall, exec_irqEntry]
  exact (Function.update_of_ne h30 _ _).trans (irqEntryRegs_of_le _ h3)

theorem inv_irq (hinv : s.Inv) (h : s.irq sym = some t) : t.Inv := by
  obtain ⟨-, hroom, hcpu, -, hgic, hresumed, htrapped, hactivations⟩ :=
    irq_cases h
  have hframes : FramesOpen s.takeException.mem s.takeException.sp
    s.activations := hinv.frames
  refine ⟨⟨?_, ?_, ?_⟩, ?_⟩
  · rw [hresumed]
    exact hinv.resumed
  · rw [htrapped]
    exact hinv.trapped
  · rw [hgic, hactivations]
    exact hinv.nested
  · rw [hcpu, hactivations, mem_irqCall, sp_irqCall]
    apply hframes.push hroom
    · rfl
    · rfl
    · intro i hlow hhigh
      exact x_irqCall sym s hlow hhigh

/-- The interrupt controller's side of a step of `IRQInterrupt`. -/
theorem inv_irqInterrupt (hinv : s.Inv) {iar : BitVec 32} {registered : Bool}
    (h : s.irqInterrupt iar registered = some t) : t.Inv := by
  obtain ⟨a, rest, pc, hbefore, hafter, hsp, hmem, hresumed, htrapped, hgic⟩ :=
    irqInterrupt_cases h
  have hframes := hinv.frames
  have hnested := hinv.nested
  rw [hbefore] at hframes hnested
  refine ⟨⟨?_, ?_, ?_⟩, ?_⟩
  · rw [hresumed]
    exact hinv.resumed
  · rw [htrapped]
    exact hinv.trapped
  · rw [hafter]
    rcases hgic with ⟨hsame, hgic⟩ | ⟨hnone, hsome, hgic⟩ |
      ⟨iar', hsome, hnone, hgic⟩
    · rw [hgic, hnested]
      simp only [activeInterrupts, List.filterMap_cons, hsame]
    · rw [hgic, run_concat_eq_some]
      refine ⟨_, hnested, ?_⟩
      simp only [activeInterrupts, List.filterMap_cons, hnone, hsome,
        GicAccess.step]
    · rw [hgic, run_concat_eq_some]
      refine ⟨_, hnested, ?_⟩
      simp only [activeInterrupts, List.filterMap_cons, hnone, hsome,
        GicAccess.step, if_true]
  · rw [hafter, hsp, hmem]
    exact hframes.setPc pc

/-- `eret` resumes the context in the frame: the stub has restored what compiled
code may change, and compiled code has preserved the rest. -/
theorem contextOf_ret (sym : VectorSymbols) {a : Activation} {rest : List Activation}
    (hframes : FramesOpen s.cpu.mem s.cpu.sp (a :: rest))
    (hsp : s.cpu.sp = a.base)
    (hcalled : ∀ i : Fin 31, 19 ≤ i → i ≤ 29 → s.cpu.x i = a.called i) :
    contextOf (sym.irqExit (s.cpu, s.data)).1 = a.interrupted ∧
      FramesOpen (sym.irqExit (s.cpu, s.data)).1.mem a.interrupted.sp rest := by
  cases hframes with
  | handler _ hbase hframe hpreserved hrest =>
      rw [← hsp] at hframe
      obtain ⟨hcontext, hmem⟩ :=
        contextOf_irqExit sym (p := (s.cpu, s.data)) hframe
      have htop : s.cpu.sp + 0xd0#64 = a.interrupted.sp := by
        rw [irqFrameSize] at hbase
        rw [hsp]
        have hlt := a.interrupted.sp.isLt
        bv_omega
      have hx : (fun i => if i ∈ named irqRestorePairs then a.interrupted.x i
          else s.cpu.x i) = a.interrupted.x := by
        have hrange : ∀ i : Fin 31, i ∉ named irqRestorePairs →
            19 ≤ i ∧ i ≤ 29 := by decide
        funext i
        split
        · rfl
        next hi =>
          obtain ⟨hlow, hhigh⟩ := hrange i hi
          rw [hcalled i hlow hhigh, hpreserved i hlow hhigh]
      constructor
      · rw [hcontext, hx, htop]
      · rw [hmem]
        exact hrest

theorem inv_ret (hinv : s.Inv) (h : s.ret sym = some t) : t.Inv := by
  obtain ⟨a, rest, hbefore, hpc, hsp, hcalled, hcpu, -, -, hafter, hgic,
    htrapped, hresumed⟩ := ret_cases h
  have hframes := hinv.frames
  have hnested := hinv.nested
  rw [hbefore] at hframes hnested
  obtain ⟨hcontext, hrest⟩ := contextOf_ret sym hframes hsp hcalled
  rw [← hcpu] at hcontext hrest
  refine ⟨⟨?_, ?_, ?_⟩, ?_⟩
  · rw [hresumed, hcontext]
    apply forall_mem_concat hinv.resumed
    rfl
  · rw [htrapped]
    exact hinv.trapped
  · simp only [activeInterrupts, List.filterMap_cons, hpc, IrqPc.active]
      at hnested
    rw [hgic, hafter]
    exact hnested
  · rw [← hcontext] at hrest
    rw [hafter]
    exact hrest

theorem inv_step (s : IrqState) (a : IrqAction) (t : IrqState) (hinv : s.Inv)
    (h : step sym s a = some t) : t.Inv := by
  cases a with
  | code cpu pc pstate =>
      rw [step] at h
      split at h
      next hguard =>
        cases h
        have hframes := hinv.frames.congr fun a ha => (hguard.1 a ha).2
        exact ⟨⟨hinv.resumed, hinv.trapped, hinv.nested⟩,
          hframes.of_sp fun a ha => (hguard.1 a ha).1⟩
      · cases h
  | fpTrap esr => exact inv_fpTrap hinv h
  | irq => exact inv_irq hinv h
  | irqInterrupt iar registered => exact inv_irqInterrupt hinv h
  | ret => exact inv_ret hinv h

end IrqState

/-! ## Where interrupts nest -/

namespace IrqState

variable {sym : VectorSymbols} {s t : IrqState}

/-- Only user handlers are interrupted: elsewhere in `IRQInterrupt` interrupts
are masked. -/
structure NestsInHandlers (s : IrqState) : Prop where
  masked : s.mayUnmask = false → s.pstate &&& daifIMask ≠ 0
  outer : ∀ a ∈ s.activations.tail, a.pc.isUserHandler = true

theorem nestsInHandlers_main
    (cpu : Cpu) (pc pstate : BitVec 64) (data : Memory 64) :
    (main cpu pc pstate data).NestsInHandlers where
  masked := by
    intro hno
    cases hno
  outer := by
    intro a ha
    cases ha

theorem or_mask_ne (pstate : BitVec 64) {mask : BitVec 64}
    (h : mask &&& daifIMask = daifIMask) :
    (pstate ||| mask) &&& daifIMask ≠ 0 := by
  have hbit : daifIMask ≠ 0 := by decide
  intro hzero
  rw [BitVec.and_or_distrib_right, h] at hzero
  exact hbit (BitVec.or_eq_zero_iff.mp hzero).2

/-- `IRQInterrupt` unmasks interrupts for the user's handler only. -/
theorem irqInterrupt_masked {iar : BitVec 32} {registered : Bool}
    (hmasked : s.mayUnmask = false → s.pstate &&& daifIMask ≠ 0)
    (h : s.irqInterrupt iar registered = some t) :
    (t.mayUnmask = false → t.pstate &&& daifIMask ≠ 0) ∧
      t.activations.tail = s.activations.tail := by
  cases hactivations : s.activations with
  | nil =>
      simp only [irqInterrupt, hactivations] at h
      cases h
  | cons a rest =>
      cases hpc : a.pc with
      | unmask =>
          simp only [irqInterrupt, hactivations, hpc] at h
          cases h
          exact ⟨nofun, rfl⟩
      | userHandler =>
          simp only [irqInterrupt, hactivations, hpc] at h
          cases h
          exact ⟨fun _ => or_mask_ne s.pstate (by decide), rfl⟩
      | acknowledge | readSpsr | readElr | writeSpsr | writeElr
      | endOfInterrupt | crash =>
          simp only [irqInterrupt, hactivations, hpc] at h
          cases h
          have hbefore : s.mayUnmask = false := by
            rw [mayUnmask, hactivations]
            simp only [hpc, IrqPc.isUserHandler]
          exact ⟨fun _ => hmasked hbefore, rfl⟩
      | ret | hang =>
          simp only [irqInterrupt, hactivations, hpc] at h
          cases h

/-- Where interrupts are not masked, every handler is a user handler. -/
theorem innermost_isUserHandler (hs : s.NestsInHandlers)
    (hunmasked : s.pstate &&& daifIMask = 0) :
    ∀ a ∈ s.activations, a.pc.isUserHandler = true := by
  have hmay : s.mayUnmask = true := by
    cases hno : s.mayUnmask with
    | false => exact absurd hunmasked (hs.masked hno)
    | true => rfl
  have houter := hs.outer
  rw [mayUnmask] at hmay
  cases hactivations : s.activations with
  | nil => nofun
  | cons a rest =>
      rw [hactivations] at hmay houter
      intro b hb
      rcases List.mem_cons.mp hb with rfl | hb
      · exact hmay
      · exact houter b hb

/-- Main and user handlers may unmask interrupts. -/
theorem mayUnmask_of_outer {a : Activation} {rest : List Activation}
    (hs : s.activations = rest)
    (h : ∀ b ∈ (a :: rest).tail, b.pc.isUserHandler = true) :
    s.mayUnmask = true := by
  rw [mayUnmask, hs]
  cases rest with
  | nil => rfl
  | cons b rest => exact h b List.mem_cons_self

theorem nestsInHandlers_step (s : IrqState) (a : IrqAction) (t : IrqState)
    (hs : s.NestsInHandlers) (h : step sym s a = some t) :
    t.NestsInHandlers := by
  cases a with
  | code cpu pc pstate =>
      rw [step] at h
      split at h
      next hguard =>
        cases h
        refine ⟨?_, hs.outer⟩
        intro hno
        rcases hguard.2 with hmay | hsame
        · exact absurd (hmay.symm.trans hno) (by decide)
        · exact hsame ▸ hs.masked hno
      · cases h
  | fpTrap esr =>
      have hpstate := pstate_fpTrap h
      obtain ⟨-, -, heret⟩ := fpTrap_cases h
      have hactivations : t.activations = s.activations := by rw [heret]; rfl
      refine ⟨?_, hactivations ▸ hs.outer⟩
      rw [mayUnmask, hactivations, hpstate]
      exact hs.masked
  | irq =>
      obtain ⟨hunmasked, -, -, hpstate, -, -, -, hactivations⟩ := irq_cases h
      refine ⟨fun _ => hpstate ▸ or_mask_ne s.pstate (by decide), ?_⟩
      rw [hactivations]
      exact innermost_isUserHandler hs hunmasked
  | irqInterrupt iar registered =>
      obtain ⟨hmasked, htail⟩ := irqInterrupt_masked hs.masked h
      refine ⟨hmasked, ?_⟩
      rw [htail]
      exact hs.outer
  | ret =>
      obtain ⟨a, rest, hbefore, -, -, -, -, -, -, hafter, -, -, -⟩ := ret_cases h
      have houter := hs.outer
      rw [hbefore] at houter
      refine ⟨?_, ?_⟩
      · intro hno
        rw [mayUnmask_of_outer hafter houter] at hno
        cases hno
      · rw [hafter]
        intro b hb
        exact houter b (List.mem_of_mem_tail hb)

end IrqState

/-! ## An interrupt that is handled -/

namespace IrqState

variable {sym : VectorSymbols} {s : IrqState} {iar : BitVec 32}

/-- Nothing but the steps of `IRQInterrupt`. -/
def handleInterrupt (iar : BitVec 32) : List IrqAction :=
  .irq :: (List.replicate 8 (.irqInterrupt iar true) ++ [.ret])

/-- `IRQInterrupt` from its first access up to its return. -/
theorem run_irqInterrupt {a : Activation} {rest : List Activation}
    (huser : isUserInterrupt iar true = true)
    (hactivations : s.activations = a :: rest) (hpc : a.pc = .acknowledge) :
    ∃ t, run (step sym) s (List.replicate 8 (.irqInterrupt iar true)) = some t ∧
      t.activations = { a with pc := .ret } :: rest ∧ t.cpu.sp = s.cpu.sp ∧
      t.cpu.x = s.cpu.x ∧ t.resumed = s.resumed := by
  have hread : s.irqInterrupt iar true = some
      { s with
        activations := { a with pc := .readSpsr iar } :: rest
        gic := s.gic ++ [.acknowledge iar] } := by
    simp only [irqInterrupt, hactivations, hpc, huser, if_true]
  rw [List.replicate_succ, run, step, hread]
  exact ⟨_, rfl, rfl, rfl, rfl, rfl⟩

/-- Wherever interrupts are not masked and there is room for a frame, an
interrupt with a handler can be taken and the interrupted code resumes. -/
theorem exists_run_handleInterrupt (hinv : s.Inv)
    (huser : isUserInterrupt iar true = true)
    (hunmasked : s.pstate &&& daifIMask = 0)
    (hroom : irqFrameSize ≤ s.cpu.sp.toNat) :
    ∃ t, run (step sym) s (handleInterrupt iar) = some t ∧
      t.activations = s.activations ∧ t.pc = s.pc ∧
      t.resumed = s.resumed ++
        [(contextOf s.takeException, contextOf s.takeException)] := by
  obtain ⟨u, hu⟩ : ∃ u, s.irq sym = some u :=
    ⟨_, if_pos ⟨hunmasked, hroom⟩⟩
  obtain ⟨-, -, hcpu, -, -, hresumed, -, hactivations⟩ := irq_cases hu
  obtain ⟨v, hv, hinner, hsp, hx, hresumed'⟩ :=
    run_irqInterrupt huser hactivations rfl
  rw [hcpu] at hsp hx
  obtain ⟨w, hw⟩ : ∃ w, v.ret sym = some w := by
    simp only [ret, hinner]
    exact ⟨_, if_pos ⟨trivial, hsp, fun i _ _ => congrFun hx i⟩⟩
  have hvinv : v.Inv := run_preserves inv_step (inv_irq hinv hu) hv
  have hrun : run (step sym) s (handleInterrupt iar) = some w := by
    rw [handleInterrupt, run_cons_eq_some]
    refine ⟨u, hu, ?_⟩
    rw [run_concat_eq_some]
    exact ⟨v, hv, hw⟩
  obtain ⟨a, rest, hbefore, -, hbase, hcalled, hexit, hpc, -, hafter, -, -,
    hlast⟩ := ret_cases hw
  have hframes := hvinv.frames
  rw [hbefore] at hframes
  obtain ⟨hcontext, -⟩ := contextOf_ret sym hframes hbase hcalled
  obtain ⟨rfl, rfl⟩ := List.cons_eq_cons.mp (hbefore.symm.trans hinner)
  rw [← hexit] at hcontext
  have helr : (contextOf s.takeException).elr = s.pc := by
    simp [contextOf, takeException]
  refine ⟨w, hrun, hafter, ?_, ?_⟩
  · rw [hpc, hcontext]
    exact helr
  · rw [hlast, hcontext, hresumed', hresumed]

end IrqState

/-- Whatever is interrupted is main or a user handler. -/
theorem interrupts_nestInHandlers
    (sym : VectorSymbols) (cpu : Cpu) (pc pstate : BitVec 64)
    (data : Memory 64) (actions : List IrqAction) :
    Throughout (IrqState.step sym) (IrqState.main cpu pc pstate data) actions
      IrqState.NestsInHandlers := by
  intro before t _ hrun
  exact run_preserves IrqState.nestsInHandlers_step
    (IrqState.nestsInHandlers_main cpu pc pstate data) hrun

end Bmboot
