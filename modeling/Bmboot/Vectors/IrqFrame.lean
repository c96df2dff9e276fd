import Bmboot.Vectors.Instructions

/-!
# The frame of an interrupt

`IRQInterruptHandler` (`asm_vectors.S`, EL1 build) before the call of the C++
handler and behind it.
-/

namespace Bmboot

open A64 ByteCodec ByteMemory

/-! ## The stub -/

/-- The pairs that `saveregister` pushes. -/
def irqPairs : List (Fin 31 × Fin 31) :=
  [(0, 1), (2, 3), (4, 5), (6, 7), (8, 9), (10, 11), (12, 13), (14, 15),
    (16, 17), (18, 19), (29, 30)]

/-- The pairs that `restoreregister` pops. -/
def irqRestorePairs : List (Fin 31 × Fin 31) :=
  [(29, 30), (18, 19), (16, 17), (14, 15), (12, 13), (10, 11), (8, 9), (6, 7),
    (4, 5), (2, 3), (0, 1)]

def saveregister : List (Instr SysReg) := pushes irqPairs

def restoreregister : List (Instr SysReg) := pops irqRestorePairs

/-- The enable bit of `CPACR_EL1`. -/
def fpen : BitVec 64 := 1 <<< 20

/-- Save the status of SPSR, ELR and CPACR. -/
def saveStatus : List (Instr SysReg) :=
  [.mrs 0 .cpacr, .mrs 1 (.elr .el1), .mrs 2 (.spsr .el1),
    .stp 0 1 (.pre .sp (-0x10)), .str 2 (.pre .sp (-0x10))]

/-- Trap floating point access. -/
def trapFpAccess : List (Instr SysReg) :=
  [.mrs 1 .cpacr, .bicImm 1 1 fpen, .msr .cpacr 1]

/-- `IRQInterruptHandler` up to `bl IRQInterrupt`. -/
def irqEntry : List (Instr SysReg) := saveregister ++ saveStatus ++ trapFpAccess

/-- `RestorePrevState` up to `eret`. -/
def restorePrevState : List (Instr SysReg) :=
  [.ldr 2 (.post .sp 0x10), .ldp 0 1 (.post .sp 0x10), .msr .cpacr 0,
    .msr (.elr .el1) 1, .msr (.spsr .el1) 2] ++ restoreregister

/-! ## The frame -/

def irqFrameSize : ℕ := 0xd0

/-- What the frame shows. -/
structure IrqContext where
  x : Fin 31 → BitVec 64
  sp : BitVec 64
  elr : BitVec 64
  spsr : BitVec 64
  cpacr : BitVec 64

/-- The context that an exception return resumes. -/
def contextOf (s : Cpu) : IrqContext where
  x := s.x
  sp := s.sp
  elr := s.sys (.elr .el1)
  spsr := s.sys (.spsr .el1)
  cpacr := s.sys .cpacr

/-- The upper part of the frame: two status registers, and the pairs. -/
def irqFrameTop (c : IrqContext) : List UInt8 :=
  wordBytes 8 c.cpacr ++ wordBytes 8 c.elr ++
    irqRestorePairs.flatMap (pairBytes c.x)

/-- The frame at `base` holds the context.  Eight bytes of it are not used. -/
structure FrameHolds (m : Memory 64) (base : BitVec 64) (c : IrqContext) :
    Prop where
  spsr : read m base 8 = wordBytes 8 c.spsr
  top : read m (base + 0x10#64) 0xc0 = irqFrameTop c

theorem length_irqFrameTop (c : IrqContext) : (irqFrameTop c).length = 0xc0 := by
  simp only [irqFrameTop, List.length_append, length_wordBytes,
    length_flatMap_pairBytes]
  rfl

/-- The frame is not affected by what is stored elsewhere. -/
theorem FrameHolds.congr
    {m m' : Memory 64} {base : BitVec 64} {c : IrqContext}
    (h : FrameHolds m base c)
    (hsame : ∀ i < irqFrameSize,
      m' (base + BitVec.ofNat 64 i) = m (base + BitVec.ofNat 64 i)) :
    FrameHolds m' base c := by
  constructor
  · rw [← h.spsr]
    apply read_congr
    intro i hi
    exact hsame i (Nat.lt_trans hi (by decide))
  · rw [← h.top]
    apply read_congr
    intro i hi
    rw [add_ofNat_add]
    exact hsame (0x10 + i) (by rw [irqFrameSize]; omega)

/-! ## Entry -/

/-- The memory with the frame. -/
def withIrqFrame (s : Cpu) : Memory 64 :=
  write (write s.mem (s.sp - 0xc0#64) (irqFrameTop (contextOf s)))
    (s.sp - 0xd0#64) (wordBytes 8 (s.sys (.spsr .el1)))

/-- The registers with which the handler is called. -/
def irqEntryRegs (s : Cpu) : Fin 31 → BitVec 64 :=
  Function.update
    (Function.update
      (Function.update (Function.update s.x 0 (s.sys .cpacr))
        1 (s.sys (.elr .el1)))
      2 (s.sys (.spsr .el1)))
    1 (s.sys .cpacr &&& ~~~fpen)

theorem irqEntryRegs_of_le (s : Cpu) {i : Fin 31} (h : 3 ≤ i) :
    irqEntryRegs s i = s.x i := by
  have h0 : i ≠ 0 := Fin.ne_of_gt (Fin.lt_of_lt_of_le (by decide) h)
  have h1 : i ≠ 1 := Fin.ne_of_gt (Fin.lt_of_lt_of_le (by decide) h)
  have h2 : i ≠ 2 := Fin.ne_of_gt (Fin.lt_of_lt_of_le (by decide) h)
  rw [irqEntryRegs, Function.update_of_ne h1, Function.update_of_ne h2,
    Function.update_of_ne h1, Function.update_of_ne h0]

theorem exec_saveStatus (s : Cpu) :
    exec saveStatus s =
      { s with
        sp := s.sp - 0x20#64
        x := Function.update
          (Function.update (Function.update s.x 0 (s.sys .cpacr))
            1 (s.sys (.elr .el1)))
          2 (s.sys (.spsr .el1))
        mem := write
          (write s.mem (s.sp - 0x10#64)
            (wordBytes 8 (s.sys .cpacr) ++ wordBytes 8 (s.sys (.elr .el1))))
          (s.sp - 0x20#64) (wordBytes 8 (s.sys (.spsr .el1))) } := by
  have h10 : s.sp + BitVec.ofInt 64 (-0x10) = s.sp - 0x10#64 :=
    add_ofInt_neg _ 0x10
  have h20 : s.sp - 0x10#64 + BitVec.ofInt 64 (-0x10) = s.sp - 0x20#64 :=
    (add_ofInt_neg _ 0x10).trans (sub_ofNat_sub _ 0x10 0x10)
  simp only [exec, saveStatus, List.foldl_cons, List.foldl_nil, Instr.exec,
    Processor.writeBack, Processor.store, Processor.address, Processor.base,
    Processor.setX, Processor.setBase, h10, h20]
  rfl

/-- What the stub does before it calls the handler. -/
theorem exec_irqEntry (s : Cpu) :
    exec irqEntry s =
      { s with
        sp := s.sp - 0xd0#64
        x := irqEntryRegs s
        sys := Function.update s.sys .cpacr (s.sys .cpacr &&& ~~~fpen)
        mem := withIrqFrame s } := by
  have hpushed : s.sp - BitVec.ofNat 64 (16 * irqPairs.length) =
      s.sp - 0xb0#64 := rfl
  have hreverse : irqPairs.reverse = irqRestorePairs := rfl
  have hc0 : s.sp - 0xb0#64 - 0x10#64 = s.sp - 0xc0#64 :=
    sub_ofNat_sub _ 0xb0 0x10
  have hd0 : s.sp - 0xb0#64 - 0x20#64 = s.sp - 0xd0#64 :=
    sub_ofNat_sub _ 0xb0 0x20
  have hlength : (wordBytes 8 (s.sys .cpacr) ++
      wordBytes 8 (s.sys (.elr .el1))).length = 0x10 := by simp
  have hb0 : s.sp - 0xc0#64 + 0x10#64 = s.sp - 0xb0#64 :=
    sub_ofNat_add _ 0xb0 0x10
  have htop := write_write_prepend s.mem (s.sp - 0xc0#64)
    (wordBytes 8 (s.sys .cpacr) ++ wordBytes 8 (s.sys (.elr .el1)))
    (irqRestorePairs.flatMap (pairBytes s.x)) (by
      rw [hlength, length_flatMap_pairBytes]
      decide)
  rw [hlength, hb0] at htop
  rw [irqEntry, exec_append, exec_append, saveregister,
    exec_pushes _ _ (by decide), exec_saveStatus, hpushed, hreverse, hc0, hd0,
    htop]
  simp only [exec, trapFpAccess, List.foldl_cons, List.foldl_nil, Instr.exec,
    Processor.setX, Function.update_self, Function.update_idem]
  rfl

theorem irqFrame_top_address (sp : BitVec 64) :
    sp - 0xd0#64 + BitVec.ofNat 64 0x10 = sp - 0xc0#64 :=
  sub_ofNat_add _ 0xc0 0x10

/-- The frame holds the interrupted context. -/
theorem frameHolds_withIrqFrame (s : Cpu) :
    FrameHolds (withIrqFrame s) (s.sp - 0xd0#64) (contextOf s) := by
  have hspsr : (wordBytes 8 (s.sys (.spsr .el1))).length ≤ 2 ^ 64 := by
    rw [length_wordBytes]
    decide
  have htop : (irqFrameTop (contextOf s)).length ≤ 2 ^ 64 := by
    rw [length_irqFrameTop]
    decide
  constructor
  · have h := read_write (write s.mem (s.sp - 0xc0#64)
      (irqFrameTop (contextOf s))) (s.sp - 0xd0#64) hspsr
    rw [length_wordBytes] at h
    exact h
  · have h := read_write s.mem (s.sp - 0xc0#64) htop
    rw [length_irqFrameTop] at h
    rw [withIrqFrame, read_write_of_le, irqFrame_top_address, h]
    intro i hi
    rw [add_ofNat_add, toNat_add_sub, length_wordBytes]
    · omega
    · omega

/-- Nothing outside the frame is written. -/
theorem withIrqFrame_of_le
    {s : Cpu} {a : BitVec 64}
    (h : irqFrameSize ≤ (a - (s.sp - 0xd0#64)).toNat) :
    withIrqFrame s a = s.mem a := by
  rw [irqFrameSize] at h
  rw [withIrqFrame, write_of_le, write_of_le]
  · rw [length_irqFrameTop, ← irqFrame_top_address, toNat_sub_add _ _ (by decide),
      if_pos (by omega)]
    omega
  · rw [length_wordBytes]
    omega

/-! ## Exit -/

/-- Where the frame holds the context, what the stub loads. -/
theorem FrameHolds.loads
    {s : Cpu} {c : IrqContext} (h : FrameHolds s.mem s.sp c) :
    s.load s.sp = c.spsr ∧ s.load (s.sp + 0x10#64) = c.cpacr ∧
      s.load (s.sp + 0x10#64 + 8) = c.elr ∧
        read s.mem (s.sp + 0x20#64) 0xb0 =
          irqRestorePairs.flatMap (pairBytes c.x) := by
  have haddress : s.sp + 0x10#64 + 0x10#64 = s.sp + 0x20#64 :=
    add_ofNat_add _ 0x10 0x10
  have htop := (read_add s.mem (s.sp + 0x10#64) 0x10 0xb0).symm.trans h.top
  obtain ⟨hstatus, hpairs⟩ := List.append_inj htop (by simp)
  obtain ⟨hcpacr, helr⟩ := List.append_inj
    ((read_add s.mem (s.sp + 0x10#64) 8 8).symm.trans hstatus) (by simp)
  refine ⟨?_, ?_, ?_, ?_⟩
  · rw [Processor.load, h.spsr, ofNat_leNat_wordBytes (by decide)]
  · rw [Processor.load, hcpacr, ofNat_leNat_wordBytes (by decide)]
  · have hload : s.load (s.sp + 0x10#64 + 8) =
        BitVec.ofNat 64 (leNat (wordBytes 8 c.elr)) :=
      congrArg (fun bytes => BitVec.ofNat 64 (leNat bytes)) helr
    rw [hload, ofNat_leNat_wordBytes (by decide)]
  · rw [← haddress]
    exact hpairs

/-- The part of `RestorePrevState` that restores the status. -/
theorem exec_restoreStatus
    {s : Cpu} {c : IrqContext} (h : FrameHolds s.mem s.sp c) :
    exec [.ldr 2 (.post .sp 0x10), .ldp 0 1 (.post .sp 0x10), .msr .cpacr 0,
        .msr (.elr .el1) 1, .msr (.spsr .el1) 2] s =
      { s with
        sp := s.sp + 0x20#64
        x := Function.update
          (Function.update (Function.update s.x 2 c.spsr) 0 c.cpacr) 1 c.elr
        sys := Function.update
          (Function.update
            (Function.update s.sys .cpacr c.cpacr) (.elr .el1) c.elr)
          (.spsr .el1) c.spsr } := by
  obtain ⟨hspsr, hcpacr, helr, -⟩ := h.loads
  have hfirst : s.sp + BitVec.ofInt 64 0x10 = s.sp + 0x10#64 := rfl
  have hsecond : s.sp + 0x10#64 + BitVec.ofInt 64 0x10 = s.sp + 0x20#64 :=
    add_ofNat_add _ 0x10 0x10
  rw [Processor.load] at hspsr hcpacr helr
  have h01 : (0 : Fin 31) ≠ 1 := by decide
  have h20 : (2 : Fin 31) ≠ 0 := by decide
  have h21 : (2 : Fin 31) ≠ 1 := by decide
  simp only [exec, List.foldl_cons, List.foldl_nil, Instr.exec,
    Processor.writeBack, Processor.address, Processor.base, Processor.setX,
    Processor.setBase, Processor.load, hfirst, hsecond, hspsr, hcpacr, helr,
    Function.update_self, Function.update_of_ne h01, Function.update_of_ne h20,
    Function.update_of_ne h21]

/-- The context in the frame is resumed, with the registers that the stub does
not save. -/
theorem exec_restorePrevState
    {s : Cpu} {c : IrqContext} (h : FrameHolds s.mem s.sp c) :
    exec restorePrevState s =
      { s with
        sp := s.sp + 0xd0#64
        x := fun i => if i ∈ named irqRestorePairs then c.x i else s.x i
        sys := Function.update
          (Function.update
            (Function.update s.sys .cpacr c.cpacr) (.elr .el1) c.elr)
          (.spsr .el1) c.spsr } := by
  have hpairs := h.loads.2.2.2
  have hsp : s.sp + 0x20#64 + BitVec.ofNat 64 (16 * irqRestorePairs.length) =
      s.sp + 0xd0#64 := add_ofNat_add _ _ _
  -- `x0`, `x1` and `x2` are used for the status, and are loaded afterwards.
  have hx : (fun i => if i ∈ named irqRestorePairs then c.x i
      else Function.update
        (Function.update (Function.update s.x 2 c.spsr) 0 c.cpacr)
          1 c.elr i) =
        fun i => if i ∈ named irqRestorePairs then c.x i else s.x i := by
    have hused : ∀ i : Fin 31, i ∉ named irqRestorePairs →
        i ≠ 0 ∧ i ≠ 1 ∧ i ≠ 2 := by decide
    funext i
    split
    · rfl
    next hi =>
      obtain ⟨h0, h1, h2⟩ := hused i hi
      rw [Function.update_of_ne h1, Function.update_of_ne h0,
        Function.update_of_ne h2]
  rw [restorePrevState, exec_append, exec_restoreStatus h, restoreregister,
    exec_pops _ hpairs, hsp, hx]

end Bmboot
