import Bmboot.Vectors.IrqFrame
import Bmboot.Vectors.SavedRegisters

/-!
# Floating point access in the vectors

What `asm_vectors.S` (EL1 build) does about a trapped floating point
instruction, and about the floating point registers when an interrupt handler
has returned.  `FPUStatus`, `FPUContextBase` and `FPUContext` lie in the section
of the vectors, which is a memory of its own here: no stack lies in it.
-/

namespace Bmboot

open A64 ByteCodec ByteMemory

/-! ## The code -/

/-- The symbols that the vectors use. -/
structure VectorSymbols where
  fpuContext : BitVec 64
  fpuContextBase : BitVec 64
  fpuStatus : BitVec 64
  /-- The compiled function. -/
  synchronousInterrupt : Cpu → Cpu
  /-- The address of `IRQInterrupt`, and where it is to return to. -/
  irqInterrupt : BitVec 64
  irqReturn : BitVec 64

/-- Execute code that accesses the data of the vectors. -/
def execData (code : List (Instr SysReg)) (p : Cpu × Memory 64) :
    Cpu × Memory 64 :=
  let t := exec code { p.1 with mem := p.2 }
  ({ t with mem := p.1.mem }, t.mem)

/-- Enable the floating point access. -/
def enableFpAccess : List (Instr SysReg) :=
  [.mrs 1 .cpacr, .orrImm 1 1 fpen, .msr .cpacr 1]

namespace VectorSymbols

variable (sym : VectorSymbols)

def loadFpuStatus : List (Instr SysReg) :=
  [.movImm 0 sym.fpuStatus, .ldrb 1 (.offset (.x 0) 0)]

/-- Set `FPUStatus`, and let `FPUContextBase` be the start of the array. -/
def storeFpuStatus : List (Instr SysReg) :=
  [.movImm 1 1, .strb 1 (.offset (.x 0) 0), .movImm 0 sym.fpuContext,
    .movImm 1 sym.fpuContextBase, .str 0 (.offset (.x 1) 0)]

def savefloatregister : List (Instr SysReg) :=
  [.movImm 1 sym.fpuContextBase, .ldr 0 (.offset (.x 1) 0)] ++
    storesQ 0 vectorPairs ++
    [.mrs 2 .fpcr, .mrs 3 .fpsr, .stp 2 3 (.post (.x 0) 0x10),
      .str 0 (.offset (.x 1) 0)]

def restorefloatregister : List (Instr SysReg) :=
  [.movImm 1 sym.fpuContextBase, .ldr 0 (.offset (.x 1) 0),
      .ldp 2 3 (.pre (.x 0) (-0x10)), .msr .fpcr 2, .msr .fpsr 3] ++
    loadsQ 0 vectorPairs.reverse ++ [.str 0 (.offset (.x 1) 0)]

/-- What is done about a trapped floating point instruction between saving and
restoring the other registers. -/
def fpAccess (p : Cpu × Memory 64) : Cpu × Memory 64 :=
  let p := execData (enableFpAccess ++ sym.loadFpuStatus) p
  if (p.1.x 1).setWidth 32 ≠ 0#32 then execData sym.savefloatregister p
  else execData sym.storeFpuStatus p

/-- `SynchronousInterruptHandler`, with the data of the vectors. -/
def fpTrap (p : Cpu × Memory 64) : Cpu × Memory 64 :=
  (synchronousInterruptHandler .el1 (fun s => (sym.fpAccess (s, p.2)).1)
      sym.synchronousInterrupt p.1,
    (sym.fpAccess
      (exec (saveregisterFull .el1 ++ testFpAccess .el1) p.1, p.2)).2)

/-- `IRQInterruptHandler` behind `bl IRQInterrupt`, up to `eret`. -/
def irqExit (p : Cpu × Memory 64) : Cpu × Memory 64 :=
  let s := exec [.mrs 0 .cpacr, .andImm 0 0 fpen] p.1
  let p :=
    if s.x 0 = 0 then (s, p.2)
    else execData sym.restorefloatregister (s, p.2)
  (exec restorePrevState p.1, p.2)

end VectorSymbols

/-! ## What is kept -/

/-- The same stack and the same system registers but for some. -/
structure KeepsStack (changed : List SysReg) (s t : Cpu) : Prop where
  sp : t.sp = s.sp
  mem : t.mem = s.mem
  sys : ∀ r, r ∉ changed → t.sys r = s.sys r
  /-- The code uses four registers at most. -/
  x : ∀ i : Fin 31, 4 ≤ i → t.x i = s.x i

theorem KeepsStack.trans
    {changed : List SysReg} {s t u : Cpu}
    (hst : KeepsStack changed s t) (htu : KeepsStack changed t u) :
    KeepsStack changed s u where
  sp := htu.sp.trans hst.sp
  mem := htu.mem.trans hst.mem
  sys r hr := (htu.sys r hr).trans (hst.sys r hr)
  x i hi := (htu.x i hi).trans (hst.x i hi)

/-- Code for the data of the vectors that writes none of the other registers. -/
theorem keepsStack_execData
    {code : List (Instr SysReg)} {changed : List SysReg}
    (p : Cpu × Memory 64)
    (hwritten : ∀ i ∈ code, i.written ⊆ [.x 0, .x 1, .x 2, .x 3])
    (hsys : ∀ i ∈ code, i.writtenSys ⊆ changed) :
    KeepsStack changed p.1 (execData code p).1 := by
  constructor
  · refine base_exec (b := .sp) { p.1 with mem := p.2 } ?_
    intro i hi hmem
    exact absurd (hwritten i hi hmem) (by decide)
  · rfl
  · intro r hr
    refine sys_exec { p.1 with mem := p.2 } ?_
    intro i hi hmem
    exact hr (hsys i hi hmem)
  · intro j hj
    refine base_exec (b := .x j) { p.1 with mem := p.2 } ?_
    intro i hi hmem
    have hlow : ∀ j : Fin 31, 4 ≤ j → Base.x j ∉ [.x 0, .x 1, .x 2, .x 3] := by
      decide
    exact hlow j hj (hwritten i hi hmem)

namespace VectorSymbols

variable (sym : VectorSymbols) (p : Cpu × Memory 64)

theorem keepsStack_restorefloatregister :
    KeepsStack [.fpcr, .fpsr] p.1 (execData sym.restorefloatregister p).1 := by
  apply keepsStack_execData
  · rw [restorefloatregister, List.forall_mem_append, List.forall_mem_append]
    refine ⟨⟨?_, ?_⟩, ?_⟩
    · simp [Instr.written, Address.written]
    · intro i hi
      simp [(written_of_mem_loadsQ hi).1]
    · simp [Instr.written, Address.written]
  · rw [restorefloatregister, List.forall_mem_append, List.forall_mem_append]
    refine ⟨⟨?_, ?_⟩, ?_⟩
    · simp [Instr.writtenSys]
    · intro i hi
      simp [(written_of_mem_loadsQ hi).2]
    · simp [Instr.writtenSys]

theorem keepsStack_savefloatregister :
    KeepsStack [] p.1 (execData sym.savefloatregister p).1 := by
  apply keepsStack_execData
  · rw [savefloatregister, List.forall_mem_append, List.forall_mem_append]
    refine ⟨⟨?_, ?_⟩, ?_⟩
    · simp [Instr.written, Address.written]
    · intro i hi
      simp [(written_of_mem_storesQ hi).1]
    · simp [Instr.written, Address.written]
  · rw [savefloatregister, List.forall_mem_append, List.forall_mem_append]
    refine ⟨⟨?_, ?_⟩, ?_⟩
    · simp [Instr.writtenSys]
    · intro i hi
      simp [(written_of_mem_storesQ hi).2]
    · simp [Instr.writtenSys]

theorem keepsStack_storeFpuStatus :
    KeepsStack [] p.1 (execData sym.storeFpuStatus p).1 := by
  apply keepsStack_execData
  · simp [storeFpuStatus, Instr.written, Address.written]
  · simp [storeFpuStatus, Instr.writtenSys]

theorem keepsStack_enableFpAccess :
    KeepsStack [.cpacr] p.1
      (execData (enableFpAccess ++ sym.loadFpuStatus) p).1 := by
  apply keepsStack_execData
  · simp [enableFpAccess, loadFpuStatus, Instr.written, Address.written]
  · simp [enableFpAccess, loadFpuStatus, Instr.writtenSys]

/-- Whether or not the registers are saved, nothing else than the enable bit is
changed behind the test. -/
theorem keepsStack_fpAccess_enabled :
    KeepsStack [] (execData (enableFpAccess ++ sym.loadFpuStatus) p).1
      (sym.fpAccess p).1 := by
  rw [fpAccess]
  split
  · exact sym.keepsStack_savefloatregister _
  · exact sym.keepsStack_storeFpuStatus _

theorem keepsStack_fpAccess : KeepsStack [.cpacr] p.1 (sym.fpAccess p).1 := by
  have henabled := sym.keepsStack_fpAccess_enabled p
  refine (sym.keepsStack_enableFpAccess p).trans
    ⟨henabled.sp, henabled.mem, ?_, henabled.x⟩
  intro r _
  exact henabled.sys r List.not_mem_nil

/-- The access is enabled. -/
theorem cpacr_fpAccess :
    (sym.fpAccess p).1.sys .cpacr = p.1.sys .cpacr ||| fpen := by
  rw [(sym.keepsStack_fpAccess_enabled p).sys _ List.not_mem_nil]
  simp only [execData, enableFpAccess, loadFpuStatus, List.cons_append,
    List.nil_append, exec, List.foldl_cons, List.foldl_nil, Instr.exec,
    Processor.setX, Processor.writeBack, Processor.address, Function.update_self]

end VectorSymbols

/-! ## The trap -/

/-- What a trapped instruction finds when it is executed again: the same
registers, and the access enabled.  The frame of the trap remains below the
stack pointer. -/
structure FpEnabled (s t : Cpu) : Prop where
  sp : t.sp = s.sp
  x : t.x = s.x
  cpacr : t.sys .cpacr = s.sys .cpacr ||| fpen
  sys : ∀ r, r ≠ .cpacr → t.sys r = s.sys r
  mem : t.mem = write s.mem (s.sp - 0x110#64) (fullFrame .el1 s).bytes

theorem fpEnabled_fpTrap
    (sym : VectorSymbols) (p : Cpu × Memory 64)
    (hesr : p.1.sys (.esr .el1) &&& (0x3f <<< 26) = fpAccessClass) :
    FpEnabled p.1 (sym.fpTrap p).1 := by
  obtain ⟨s, data⟩ := p
  generalize hsaved : exec (saveregisterFull .el1 ++ testFpAccess .el1) s = saved
  have hframe := regsAt_saveregisterFull .el1 s
  rw [exec_saveregisterFull] at hframe
  rw [exec_append, exec_testFpAccess, exec_saveregisterFull] at hsaved
  have hclass : saved.x 0 = saved.x 1 := by
    have h01 : (0 : Fin 31) ≠ 1 := by decide
    rw [← hsaved]
    simp only [Function.update_self, Function.update_of_ne h01]
    exact hesr
  have htrap : (sym.fpTrap (s, data)).1 =
      exec restoreregisterFull (sym.fpAccess (saved, data)).1 := by
    rw [VectorSymbols.fpTrap, synchronousInterruptHandler, exec_append,
      exec_testFpAccess, exec_saveregisterFull, hsaved,
      if_neg (not_not_intro hclass)]
  have hsp : saved.sp = s.sp - 0x110#64 := by rw [← hsaved]
  have hsys : saved.sys = s.sys := by rw [← hsaved]
  have hmem : saved.mem =
      write s.mem (s.sp - 0x110#64) (fullFrame .el1 s).bytes := by
    rw [← hsaved]
  have hkeeps := sym.keepsStack_fpAccess (saved, data)
  have hcpacr := sym.cpacr_fpAccess (saved, data)
  generalize (sym.fpAccess (saved, data)).1 = t at htrap hkeeps hcpacr
  rw [exec_restoreregisterFull_regsAt, hkeeps.mem, hkeeps.sp] at htrap
  constructor
  · rw [htrap]
    change saved.sp + 0x110#64 = s.sp
    rw [hsp]
    exact BitVec.sub_add_cancel _ _
  · rw [htrap]
    change (regsAt saved.mem saved.sp).regs = s.x
    rw [hsp, hmem, hframe]
    rfl
  · rw [htrap]
    change t.sys .cpacr = _
    rw [hcpacr, hsys]
  · intro r hr
    rw [htrap]
    change t.sys r = _
    rw [hkeeps.sys r (mt List.mem_singleton.mp hr), hsys]
  · rw [htrap]
    exact hmem

theorem FpEnabled.contextOf_eq {s t : Cpu} (h : FpEnabled s t) :
    contextOf t =
      { contextOf s with cpacr := (contextOf s).cpacr ||| fpen } := by
  have helr : SysReg.elr .el1 ≠ .cpacr := by decide
  have hspsr : SysReg.spsr .el1 ≠ .cpacr := by decide
  simp only [contextOf, h.sp, h.x, h.cpacr, h.sys _ helr, h.sys _ hspsr]

/-! ## The exit from an interrupt -/

/-- Whether or not floating point registers are restored, the stack is as the
handler has left it. -/
theorem exists_irqExit
    (sym : VectorSymbols) (p : Cpu × Memory 64) :
    ∃ u, (sym.irqExit p).1 = exec restorePrevState u ∧
      KeepsStack [.fpcr, .fpsr] p.1 u := by
  have htest : KeepsStack [.fpcr, .fpsr] p.1
      (exec [.mrs 0 .cpacr, .andImm 0 0 fpen] p.1) := by
    refine ⟨rfl, rfl, fun _ _ => rfl, ?_⟩
    intro i hi
    refine base_exec (b := .x i) p.1 ?_
    have hne : i ≠ 0 := Fin.ne_of_gt (Fin.lt_of_lt_of_le (by decide) hi)
    simp [Instr.written, hne]
  rw [VectorSymbols.irqExit]
  generalize exec [.mrs 0 .cpacr, .andImm 0 0 fpen] p.1 = t at htest ⊢
  split
  · exact ⟨_, rfl, htest⟩
  · have hrestored := sym.keepsStack_restorefloatregister (t, p.2)
    exact ⟨_, rfl, htest.trans hrestored⟩

/-- The context in the frame is what `eret` resumes, with the registers that
the stub does not save. -/
theorem contextOf_irqExit
    (sym : VectorSymbols) {p : Cpu × Memory 64} {c : IrqContext}
    (h : FrameHolds p.1.mem p.1.sp c) :
    contextOf (sym.irqExit p).1 =
      { c with
        sp := p.1.sp + 0xd0#64
        x := fun i => if i ∈ named irqRestorePairs then c.x i else p.1.x i } ∧
      (sym.irqExit p).1.mem = p.1.mem := by
  obtain ⟨u, hexit, hkeeps⟩ := exists_irqExit sym p
  rw [← hkeeps.mem, ← hkeeps.sp] at h
  have hx : (fun i => if i ∈ named irqRestorePairs then c.x i else u.x i) =
      fun i => if i ∈ named irqRestorePairs then c.x i else p.1.x i := by
    have hhigh : ∀ i : Fin 31, i ∉ named irqRestorePairs → 4 ≤ i := by decide
    funext i
    split
    · rfl
    next hi => exact hkeeps.x i (hhigh i hi)
  have helr : SysReg.elr .el1 ≠ .spsr .el1 := by decide
  have hcpacr : SysReg.cpacr ≠ .elr .el1 ∧ SysReg.cpacr ≠ .spsr .el1 := by
    decide
  rw [hexit, exec_restorePrevState h, hx, ← hkeeps.mem]
  refine ⟨?_, rfl⟩
  simp only [contextOf, Function.update_self, Function.update_of_ne helr,
    Function.update_of_ne hcpacr.1, Function.update_of_ne hcpacr.2, hkeeps.sp]

end Bmboot
