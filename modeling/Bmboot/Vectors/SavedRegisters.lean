import Bmboot.Vectors.Instructions

/-!
# The frame of a synchronous exception

`SynchronousInterruptHandler` (`asm_vectors.S`) gives the C++ handler the frame
of `saveregister_full` as an `Aarch64_Regs` and then restores the registers from
it, so that a monitor call changes what `handleSmc` changes in the frame.
-/

namespace Bmboot

open A64 ByteCodec ByteMemory

/-! ## The handler -/

/-- The word at an offset from an address. -/
def wordAt (m : Memory 64) (a : BitVec 64) (offset : ℕ) : BitVec 64 :=
  BitVec.ofNat 64 (leNat (read m (a + BitVec.ofNat 64 offset) 8))

/-- The memory at an address, read as an `Aarch64_Regs`. -/
def regsAt (m : Memory 64) (a : BitVec 64) : Aarch64Regs where
  regs := fun i => wordAt m a (8 * i)
  sp := wordAt m a 0xf8
  pc := wordAt m a 0x100
  pstate := wordAt m a 0x108

/-- The exception class of a trapped floating point access, as `ESR` has it. -/
def fpAccessClass : BitVec 64 := 0x7 <<< 26

/-- The exception class, and the constant it is compared with. -/
def testFpAccess (el : ExceptionLevel) : List (Instr SysReg) :=
  [.mrs 0 (.esr el), .andImm 0 0 (0x3f <<< 26), .movImm 1 fpAccessClass]

/-- `SynchronousInterruptHandler` up to `eret`.  The parameters are what it does
about a trapped floating point access, and the compiled function
`SynchronousInterrupt`. -/
def synchronousInterruptHandler (el : ExceptionLevel)
    (fpAccess synchronousInterrupt : Cpu → Cpu) (s : Cpu) : Cpu :=
  let s := exec (saveregisterFull el ++ testFpAccess el) s
  let s :=
    if s.x 0 ≠ s.x 1 then synchronousInterrupt (exec [.mov 0 .sp] s)
    else fpAccess s
  exec restoreregisterFull s

/-! ## Monitor calls -/

/-- The exception class of a monitor call, as `ESR_EL3` has it. -/
def smcClass : BitVec 64 := 0x17 <<< 26

/-- What the compiled `SynchronousInterrupt` of the monitor does between its
call and its return, for a monitor call that `handleSmc` returns from: the
registers that the procedure call standard protects are kept, the frame holds
what `handleSmc` makes of it, and nobody writes the stack pointer of EL1. -/
structure HandlesSmc (cpu : DomainIndex) (core : Core) (before after : Cpu) :
    Prop where
  sp : after.sp = before.sp
  callee : ∀ i : Fin 31, 19 ≤ i → i ≤ 29 → after.x i = before.x i
  frame : (handleSmc cpu before.mem core
    (regsAt before.mem (before.x 0))).2 = some (regsAt after.mem (before.x 0))
  spEl1 : after.sys .spEl1 = before.sys .spEl1

/-- The processor when `SynchronousInterrupt` is called in EL3. -/
def atCall (s : Cpu) : Cpu :=
  exec [.mov 0 .sp] (exec (saveregisterFull .el3 ++ testFpAccess .el3) s)

/-- A monitor call that `handleSmc` returns from. -/
structure SmcException where
  cpu : DomainIndex
  core : Core
  entry : Cpu
  fpAccess : Cpu → Cpu
  synchronousInterrupt : Cpu → Cpu
  smc : entry.sys (.esr .el3) &&& (0x3f <<< 26) = smcClass
  handles : HandlesSmc cpu core (atCall entry)
    (synchronousInterrupt (atCall entry))

namespace SmcException

variable (c : SmcException)

/-- The registers with which the payload goes on. -/
def resumed : Cpu :=
  synchronousInterruptHandler .el3 c.fpAccess c.synchronousInterrupt c.entry

/-- The frame when `handleSmc` returns. -/
def handled : Aarch64Regs :=
  regsAt (c.synchronousInterrupt (atCall c.entry)).mem ((atCall c.entry).x 0)

end SmcException

/-! ## Frames and structures -/

/-- Reading a structure and reading its bytes is the same. -/
theorem bytes_regsAt (m : Memory 64) (a : BitVec 64) :
    (regsAt m a).bytes = read m a 0x110 := by
  have hword : ∀ offset, wordBytes 8 (wordAt m a offset) =
      read m (a + BitVec.ofNat 64 offset) 8 := by
    intro offset
    exact wordBytes_ofNat_leNat (length_read _ _ _) (by decide)
  have hregs : (List.ofFn (regsAt m a).regs).flatMap (wordBytes 8) =
      read m a 0xf8 := by
    rw [List.ofFn_eq_map, List.flatMap_map, read_mul m a 8 31,
      ← List.map_coe_finRange_eq_range, List.flatMap_map]
    apply List.flatMap_congr
    intro i _
    exact hword _
  have hsplit : read m a 0x110 = read m a 0xf8 ++
      (read m (a + 0xf8#64) 8 ++ (read m (a + 0x100#64) 8 ++
        read m (a + 0x108#64) 8)) := by
    have h100 : a + 0xf8#64 + 8#64 = a + 0x100#64 :=
      add_ofNat_add _ 0xf8 8
    have h108 : a + 0x100#64 + 8#64 = a + 0x108#64 :=
      add_ofNat_add _ 0x100 8
    rw [read_add m a 0xf8 0x18, read_add m (a + 0xf8#64) 8 0x10, h100,
      read_add m (a + 0x100#64) 8 8, h108]
  rw [Aarch64Regs.bytes, hregs, hsplit]
  simp only [regsAt, hword]

theorem regsAt_eq_of_bytes
    {m : Memory 64} {a : BitVec 64} {r : Aarch64Regs}
    (h : read m a 0x110 = r.bytes) : regsAt m a = r := by
  have hbytes := bytes_regsAt m a
  rw [h] at hbytes
  have hleft := takeRegs_append (regsAt m a) []
  rw [hbytes, takeRegs_append] at hleft
  exact (Prod.mk.inj (Option.some.inj hleft)).1.symm

/-! ## Saving and restoring -/

/-- The frame that `saveregister_full` leaves shows the registers. -/
theorem regsAt_saveregisterFull (el : ExceptionLevel) (s : Cpu) :
    regsAt (exec (saveregisterFull el) s).mem (s.sp - 0x110#64) =
      fullFrame el s := by
  have hframe := read_write s.mem (s.sp - 0x110#64)
    (show (fullFrame el s).bytes.length ≤ 2 ^ 64 by
      rw [length_regs]
      decide)
  rw [length_regs] at hframe
  apply regsAt_eq_of_bytes
  rw [exec_saveregisterFull]
  exact hframe

/-- Whatever has become of the frame, the registers are restored from it. -/
theorem exec_restoreregisterFull_regsAt (s : Cpu) :
    exec restoreregisterFull s =
      { s with sp := s.sp + 0x110#64, x := (regsAt s.mem s.sp).regs } :=
  exec_restoreregisterFull (bytes_regsAt s.mem s.sp).symm

/-- The frame is an `Aarch64_Regs` with the registers at the exception, and
whatever its registers are changed to is restored, with the stack pointer at the
exception. -/
structure FrameFaithful (el : ExceptionLevel) (s : Cpu) : Prop where
  sp : (exec (saveregisterFull el) s).sp = s.sp - 0x110#64
  shown : regsAt (exec (saveregisterFull el) s).mem
    (exec (saveregisterFull el) s).sp = fullFrame el s
  restored : ∀ t : Cpu, t.sp = (exec (saveregisterFull el) s).sp →
    (exec restoreregisterFull t).x = (regsAt t.mem t.sp).regs ∧
      (exec restoreregisterFull t).sp = s.sp

theorem frameFaithful (el : ExceptionLevel) (s : Cpu) : FrameFaithful el s := by
  have hsp : (exec (saveregisterFull el) s).sp = s.sp - 0x110#64 := by
    rw [exec_saveregisterFull]
  constructor
  · exact hsp
  · rw [hsp]
    exact regsAt_saveregisterFull el s
  · intro t ht
    rw [exec_restoreregisterFull_regsAt]
    refine ⟨rfl, ?_⟩
    rw [ht, hsp]
    exact BitVec.sub_add_cancel _ _

/-! ## What the payload sees of a monitor call -/

/-- `handleSmc` stores into the first register or leaves the frame alone. -/
theorem handleSmc_regs
    {cpu : DomainIndex} {mem : Memory 64} {core : Core}
    {saved r : Aarch64Regs}
    (h : (handleSmc cpu mem core saved).2 = some r) :
    r = saved ∨ ∃ x, r = saved.setX0 x := by
  simp only [handleSmc] at h
  split_ifs at h
  · exact Or.inr ⟨_, (Option.some.inj h).symm⟩
  · exact Or.inl (Option.some.inj h).symm
  · exact Or.inl (Option.some.inj h).symm
  · split at h
    · exact Or.inr ⟨_, (Option.some.inj h).symm⟩
    · cases h
  · exact Or.inl (Option.some.inj h).symm
  · exact Or.inl (Option.some.inj h).symm
  · exact Or.inl (Option.some.inj h).symm

/-- The test of the exception class uses two registers that are saved. -/
theorem exec_testFpAccess (el : ExceptionLevel) (s : Cpu) :
    exec (testFpAccess el) s =
      { s with
        x := Function.update
          (Function.update s.x 0 (s.sys (.esr el) &&& (0x3f <<< 26)))
          1 fpAccessClass } := by
  simp only [exec, testFpAccess, List.foldl_cons, List.foldl_nil, Instr.exec,
    Processor.setX, Function.update_self, Function.update_idem]

theorem atCall_eq (s : Cpu) :
    atCall s =
      (exec (testFpAccess .el3) (exec (saveregisterFull .el3) s)).setX 0
        (s.sp - 0x110#64) := by
  rw [atCall, exec_append, exec_saveregisterFull, exec_testFpAccess]
  rfl

theorem atCall_sp (s : Cpu) : (atCall s).sp = s.sp - 0x110#64 := by
  rw [atCall_eq, exec_testFpAccess, exec_saveregisterFull]
  rfl

theorem atCall_x0 (s : Cpu) : (atCall s).x 0 = (atCall s).sp := by
  rw [atCall_sp, atCall_eq]
  simp only [Processor.setX, Function.update_self]

theorem atCall_sys (s : Cpu) : (atCall s).sys = s.sys := by
  rw [atCall_eq, exec_testFpAccess, exec_saveregisterFull]
  rfl

/-- `SynchronousInterrupt` is given the frame. -/
theorem regsAt_atCall (s : Cpu) :
    regsAt (atCall s).mem ((atCall s).x 0) = fullFrame .el3 s := by
  have hmem : (atCall s).mem = (exec (saveregisterFull .el3) s).mem := by
    rw [atCall_eq, exec_testFpAccess]
    rfl
  rw [atCall_x0, atCall_sp, hmem, regsAt_saveregisterFull]

namespace SmcException

variable (c : SmcException)

/-- The call is not taken for a floating point access. -/
theorem resumed_eq :
    c.resumed = exec restoreregisterFull
      (c.synchronousInterrupt (atCall c.entry)) := by
  have hother : (exec (saveregisterFull .el3 ++ testFpAccess .el3) c.entry).x 0 ≠
      (exec (saveregisterFull .el3 ++ testFpAccess .el3) c.entry).x 1 := by
    have h01 : (0 : Fin 31) ≠ 1 := by decide
    rw [exec_append, exec_testFpAccess, exec_saveregisterFull]
    simp only [Function.update_self, Function.update_of_ne h01]
    rw [c.smc]
    decide
  rw [resumed, synchronousInterruptHandler, if_pos hother, atCall]

/-- Nothing but the first register changes, and that to what `handleSmc` has
stored. -/
structure Transparent : Prop where
  sp : c.resumed.sp = c.entry.sp
  spEl1 : c.resumed.sys .spEl1 = c.entry.sys .spEl1
  others : ∀ i, i ≠ 0 → c.resumed.x i = c.entry.x i
  first : c.resumed.x 0 = c.handled.regs 0
  stored : c.handled = fullFrame .el3 c.entry ∨
    ∃ x, c.handled = (fullFrame .el3 c.entry).setX0 x

theorem handled_cases :
    c.handled = fullFrame .el3 c.entry ∨
      ∃ x, c.handled = (fullFrame .el3 c.entry).setX0 x := by
  have hframe := c.handles.frame
  rw [regsAt_atCall] at hframe
  exact handleSmc_regs hframe

theorem resumed_x : c.resumed.x = c.handled.regs := by
  have hsp : (c.synchronousInterrupt (atCall c.entry)).sp =
      (atCall c.entry).x 0 := c.handles.sp
  rw [resumed_eq, exec_restoreregisterFull_regsAt, handled, ← hsp]

theorem handled_others {i : Fin 31} (hi : i ≠ 0) :
    c.handled.regs i = c.entry.x i := by
  rcases c.handled_cases with h | ⟨x, h⟩
  · rw [h]
    rfl
  · rw [h]
    exact Function.update_of_ne hi _ _

theorem transparent : c.Transparent := by
  constructor
  · rw [resumed_eq, exec_restoreregisterFull_regsAt]
    change (c.synchronousInterrupt (atCall c.entry)).sp + 0x110#64 = _
    rw [c.handles.sp, atCall_sp]
    exact BitVec.sub_add_cancel _ _
  · rw [resumed_eq, exec_restoreregisterFull_regsAt]
    change (c.synchronousInterrupt (atCall c.entry)).sys .spEl1 = _
    rw [c.handles.spEl1, atCall_sys]
  · intro i hi
    rw [resumed_x]
    exact c.handled_others hi
  · rw [resumed_x]
  · exact c.handled_cases

end SmcException

/-- The frame of every synchronous exception is faithful, and no monitor call
changes any other register than the first one. -/
theorem exceptionFrame_faithful :
    (∀ el s, FrameFaithful el s) ∧ ∀ c : SmcException, c.Transparent := by
  constructor
  · exact frameFaithful
  · exact SmcException.transparent

/-- The function that does nothing but what `handleSmc` does. -/
def plainHandler (cpu : DomainIndex) (core : Core) (s : Cpu) : Cpu :=
  match (handleSmc cpu s.mem core (regsAt s.mem (s.x 0))).2 with
  | none => s
  | some r => { s with mem := write s.mem (s.x 0) r.bytes }

/-- It handles every monitor call that `handleSmc` returns from. -/
theorem handlesSmc_plainHandler
    {cpu : DomainIndex} {core : Core} {s : Cpu} {r : Aarch64Regs}
    (h : (handleSmc cpu s.mem core (regsAt s.mem (s.x 0))).2 = some r) :
    HandlesSmc cpu core s (plainHandler cpu core s) := by
  have hframe := read_write s.mem (s.x 0)
    (show r.bytes.length ≤ 2 ^ 64 by
      rw [length_regs]
      decide)
  rw [length_regs] at hframe
  have hafter : plainHandler cpu core s =
      { s with mem := write s.mem (s.x 0) r.bytes } := by
    rw [plainHandler, h]
  rw [hafter]
  constructor
  · rfl
  · intro i _ _
    rfl
  · rw [h]
    exact congrArg some (regsAt_eq_of_bytes hframe).symm
  · rfl

/-- A payload asks for the version of the interface. -/
def abiVersionEntry : Cpu where
  x := fun i => if i = 0 then smcGetAbiVersion else 0
  sp := 0x780010000
  v := fun _ => 0
  mem := fun _ => 0
  sys := fun r => if r = .esr .el3 then smcClass else 0

/-- The call, with the function that does nothing but what `handleSmc` does. -/
def abiVersionCall : SmcException where
  cpu := .cpu1
  core := ⟨.zero, .reset⟩
  entry := abiVersionEntry
  fpAccess := id
  synchronousInterrupt := plainHandler .cpu1 ⟨.zero, .reset⟩
  smc := by decide
  handles := by
    have hreturns : (handleSmc .cpu1 (atCall abiVersionEntry).mem
        ⟨.zero, .reset⟩ (fullFrame .el3 abiVersionEntry)).2 =
          some ((fullFrame .el3 abiVersionEntry).setX0 0x200) := rfl
    rw [← regsAt_atCall] at hreturns
    exact handlesSmc_plainHandler hreturns

/-- The payload finds the version in its first register, and all others as they
were. -/
theorem exceptionFrame_faithful_abiVersion :
    abiVersionCall.Transparent ∧
      (synchronousInterruptHandler .el3 id (plainHandler .cpu1 ⟨.zero, .reset⟩)
        abiVersionEntry).x 30 = 0 := by
  have htransparent := exceptionFrame_faithful.2 abiVersionCall
  exact ⟨htransparent, htransparent.others 30 (by decide)⟩

end Bmboot
