import Bmboot.Dump.RoundTrip
import Bmboot.Lib.A64
import Mathlib.Data.List.FinRange

/-!
# Saving and restoring registers in the exception vectors

The macros of `asm_vectors.S` and the function `saveFpuState`
(`executor_asm.S`), instruction by instruction, and what each of them does.
-/

namespace Bmboot

open A64 ByteCodec ByteMemory

/-! ## Registers -/

/-- The system registers that the vectors access, and the stack pointer of
EL1. -/
inductive SysReg
  | elr (el : ExceptionLevel)
  | spsr (el : ExceptionLevel)
  | esr (el : ExceptionLevel)
  | cpacr
  | cptr
  | spEl1
  | fpsr
  | fpcr
  deriving DecidableEq

abbrev Cpu := Processor SysReg

/-! ## The macros -/

/-- The pairs that `saveregister_full` pushes. -/
def fullPairs : List (Fin 31 × Fin 31) :=
  [(24, 25), (22, 23), (20, 21), (18, 19), (16, 17), (14, 15), (12, 13),
    (10, 11), (8, 9), (6, 7), (4, 5), (2, 3), (0, 1)]

/-- Up to the adjustment of the stack pointer. -/
def saveregisterFullTop (el : ExceptionLevel) : List (Instr SysReg) :=
  [.stp 26 27 (.offset .sp (-0x40)), .stp 28 29 (.offset .sp (-0x30)),
    .mov 26 (.x 30), .mov 27 .sp, .mrs 28 (.elr el), .mrs 29 (.spsr el),
    .stp 26 27 (.offset .sp (-0x20)), .stp 28 29 (.offset .sp (-0x10)),
    .subImm .sp .sp 0x40]

def saveregisterFull (el : ExceptionLevel) : List (Instr SysReg) :=
  saveregisterFullTop el ++ pushes fullPairs

/-- The pairs that `restoreregister_full` pops. -/
def fullRestorePairs : List (Fin 31 × Fin 31) :=
  [(0, 1), (2, 3), (4, 5), (6, 7), (8, 9), (10, 11), (12, 13), (14, 15),
    (16, 17), (18, 19), (20, 21), (22, 23), (24, 25), (26, 27), (28, 29)]

def restoreregisterFull : List (Instr SysReg) :=
  pops fullRestorePairs ++ [.ldr 30 (.offset .sp 0), .addImm .sp .sp 0x20]

/-- The vector registers that `saveFpuState` stores, in pairs. -/
def vectorPairs : List (Fin 32 × Fin 32) :=
  [(0, 1), (2, 3), (4, 5), (6, 7), (8, 9), (10, 11), (12, 13), (14, 15),
    (16, 17), (18, 19), (20, 21), (22, 23), (24, 25), (26, 27), (28, 29),
    (30, 31)]

def saveFpuState : List (Instr SysReg) :=
  storesQ 0 vectorPairs ++
    [.mrs 2 .fpsr, .mrs 3 .fpcr, .stp 2 3 (.post (.x 0) 0x10)]

/-! ## The full frame -/

/-- What the frame shows. -/
def fullFrame (el : ExceptionLevel) (s : Cpu) : Aarch64Regs where
  regs := s.x
  sp := s.sp
  pc := s.sys (.elr el)
  pstate := s.sys (.spsr el)

/-- The registers that `saveregister_full` leaves: four of them have been used
on the way. -/
def afterSave (el : ExceptionLevel) (s : Cpu) : Fin 31 → BitVec 64 :=
  Function.update
    (Function.update
      (Function.update (Function.update s.x 26 (s.x 30)) 27 s.sp)
      28 (s.sys (.elr el)))
    29 (s.sys (.spsr el))

/-- The part of the frame that is stored before the stack pointer is moved. -/
def frameTop (el : ExceptionLevel) (s : Cpu) : List UInt8 :=
  pairBytes s.x (26, 27) ++ pairBytes s.x (28, 29) ++
    (wordBytes 8 (s.x 30) ++ wordBytes 8 s.sp) ++
    (wordBytes 8 (s.sys (.elr el)) ++ wordBytes 8 (s.sys (.spsr el)))

theorem length_frameTop (el : ExceptionLevel) (s : Cpu) :
    (frameTop el s).length = 0x40 := by
  simp [frameTop, length_pairBytes]

/-- The four stores before the stack pointer is moved fill the top of the
frame. -/
theorem write_frameTop (el : ExceptionLevel) (s : Cpu) (a : BitVec 64) :
    write (write (write (write s.mem a (pairBytes s.x (26, 27)))
          (a + 0x10#64) (pairBytes s.x (28, 29)))
        (a + 0x20#64) (pairBytes (afterSave el s) (26, 27)))
      (a + 0x30#64) (pairBytes (afterSave el s) (28, 29)) =
        write s.mem a (frameTop el s) := by
  have hsecond := write_write_append s.mem a (pairBytes s.x (26, 27))
    (pairBytes s.x (28, 29)) (by simp [length_pairBytes])
  have hthird := write_write_append s.mem a
    (pairBytes s.x (26, 27) ++ pairBytes s.x (28, 29))
    (pairBytes (afterSave el s) (26, 27)) (by simp [length_pairBytes])
  have hfourth := write_write_append s.mem a
    (pairBytes s.x (26, 27) ++ pairBytes s.x (28, 29) ++
      pairBytes (afterSave el s) (26, 27))
    (pairBytes (afterSave el s) (28, 29)) (by simp [length_pairBytes])
  rw [List.length_append, List.length_append, length_pairBytes,
    length_pairBytes, length_pairBytes] at hfourth
  rw [List.length_append, length_pairBytes, length_pairBytes] at hthird
  rw [length_pairBytes] at hsecond
  rw [hsecond, hthird, hfourth]
  rfl

/-- The instructions of `saveregister_full` before the pushes. -/
theorem exec_saveTop (el : ExceptionLevel) (s : Cpu) :
    exec (saveregisterFullTop el) s =
      { s with
        sp := s.sp - 0x40#64
        x := afterSave el s
        mem := write s.mem (s.sp - 0x40#64) (frameTop el s) } := by
  have h40 : s.sp + BitVec.ofInt 64 (-0x40) = s.sp - 0x40#64 :=
    add_ofInt_neg _ 0x40
  have h30 : s.sp + BitVec.ofInt 64 (-0x30) = s.sp - 0x40#64 + 0x10#64 :=
    (add_ofInt_neg _ 0x30).trans (sub_ofNat_add _ 0x30 0x10).symm
  have h20 : s.sp + BitVec.ofInt 64 (-0x20) = s.sp - 0x40#64 + 0x20#64 :=
    (add_ofInt_neg _ 0x20).trans (sub_ofNat_add _ 0x20 0x20).symm
  have h10 : s.sp + BitVec.ofInt 64 (-0x10) = s.sp - 0x40#64 + 0x30#64 :=
    (add_ofInt_neg _ 0x10).trans (sub_ofNat_add _ 0x10 0x30).symm
  have hsub : s.sp - BitVec.ofInt 64 0x40 = s.sp - 0x40#64 := rfl
  simp only [exec, saveregisterFullTop, List.foldl_cons, List.foldl_nil,
    Instr.exec, Processor.writeBack, Processor.store, Processor.address,
    Processor.base, Processor.setX, Processor.setBase, h40, h30, h20, h10, hsub]
  rw [← write_frameTop]
  rfl

theorem afterSave_of_lt
    (el : ExceptionLevel) (s : Cpu) {i : Fin 31} (h : i < 26) :
    afterSave el s i = s.x i := by
  have h26 : i ≠ 26 := Fin.ne_of_lt h
  have h27 : i ≠ 27 := Fin.ne_of_lt (Fin.lt_trans h (by decide))
  have h28 : i ≠ 28 := Fin.ne_of_lt (Fin.lt_trans h (by decide))
  have h29 : i ≠ 29 := Fin.ne_of_lt (Fin.lt_trans h (by decide))
  rw [afterSave, Function.update_of_ne h29, Function.update_of_ne h28,
    Function.update_of_ne h27, Function.update_of_ne h26]

/-- The frame from its lowest address on. -/
theorem fullFrame_bytes (el : ExceptionLevel) (s : Cpu) :
    fullPairs.reverse.flatMap (pairBytes (afterSave el s)) ++ frameTop el s =
      (fullFrame el s).bytes := by
  have hall : fullPairs.reverse.all
      (fun p => decide (p.1 < 26 ∧ p.2 < 26)) = true := by decide
  have hlow : ∀ p ∈ fullPairs.reverse, p.1 < 26 ∧ p.2 < 26 := by
    intro p hp
    exact of_decide_eq_true (List.all_eq_true.mp hall p hp)
  have hpushed : fullPairs.reverse.flatMap (pairBytes (afterSave el s)) =
      fullPairs.reverse.flatMap (pairBytes s.x) := by
    apply List.flatMap_congr
    intro p hp
    rw [pairBytes, pairBytes, afterSave_of_lt el s (hlow p hp).1,
      afterSave_of_lt el s (hlow p hp).2]
  have hnames : List.finRange 31 =
      named fullPairs.reverse ++ [26, 27, 28, 29, 30] := by decide
  have hregs : (List.ofFn s.x).flatMap (wordBytes 8) =
      fullPairs.reverse.flatMap (pairBytes s.x) ++
        (pairBytes s.x (26, 27) ++ pairBytes s.x (28, 29) ++
          wordBytes 8 (s.x 30)) := by
    rw [List.ofFn_eq_map, List.flatMap_map, hnames, List.flatMap_append,
      flatMap_pairBytes]
    simp [pairBytes]
  rw [hpushed, Aarch64Regs.bytes, fullFrame, hregs, frameTop]
  simp only [List.append_assoc]

/-- `saveregister_full` leaves a frame that shows the registers. -/
theorem exec_saveregisterFull (el : ExceptionLevel) (s : Cpu) :
    exec (saveregisterFull el) s =
      { s with
        sp := s.sp - 0x110#64
        x := afterSave el s
        mem := write s.mem (s.sp - 0x110#64) (fullFrame el s).bytes } := by
  have hsp : s.sp - 0x40#64 - BitVec.ofNat 64 (16 * fullPairs.length) =
      s.sp - 0x110#64 := sub_ofNat_sub _ _ _
  have hlength : (fullPairs.reverse.flatMap (pairBytes (afterSave el s))).length
      = 0xd0 := by
    rw [length_flatMap_pairBytes]
    rfl
  have hback : s.sp - 0x110#64 + 0xd0#64 = s.sp - 0x40#64 :=
    sub_ofNat_add _ 0x40 0xd0
  have hframe := write_write_prepend s.mem (s.sp - 0x110#64)
    (fullPairs.reverse.flatMap (pairBytes (afterSave el s))) (frameTop el s)
    (by rw [hlength, length_frameTop]; decide)
  rw [hlength, hback, fullFrame_bytes] at hframe
  rw [saveregisterFull, exec_append, exec_saveTop, exec_pushes _ _ (by decide),
    hsp, hframe]

/-- `restoreregister_full` loads the registers that the frame shows. -/
theorem exec_restoreregisterFull
    {s : Cpu} {r : Aarch64Regs} (h : read s.mem s.sp 0x110 = r.bytes) :
    exec restoreregisterFull s =
      { s with sp := s.sp + 0x110#64, x := r.regs } := by
  have hnames : List.finRange 31 = named fullRestorePairs ++ [30] := by decide
  have hbytes : r.bytes = fullRestorePairs.flatMap (pairBytes r.regs) ++
      (wordBytes 8 (r.regs 30) ++
        (wordBytes 8 r.sp ++ (wordBytes 8 r.pc ++ wordBytes 8 r.pstate))) := by
    rw [Aarch64Regs.bytes, List.ofFn_eq_map, List.flatMap_map, hnames,
      List.flatMap_append, flatMap_pairBytes]
    simp
  rw [hbytes] at h
  obtain ⟨hpairs, hrest⟩ := List.append_inj
    ((read_add s.mem s.sp 0xf0 0x20).symm.trans h) (by
      rw [length_read, length_flatMap_pairBytes]
      rfl)
  have hlast := (List.append_inj
    ((read_add s.mem (s.sp + 0xf0#64) 8 0x18).symm.trans hrest) (by simp)).1
  have hload : BitVec.ofNat 64 (leNat (read s.mem (s.sp + 0xf0#64) 8)) =
      r.regs 30 := by
    rw [hlast, ofNat_leNat_wordBytes (by decide)]
  have hx : Function.update
      (fun i => if i ∈ named fullRestorePairs then r.regs i else s.x i) 30
        (r.regs 30) = r.regs := by
    have hnamed : ∀ i : Fin 31, i ≠ 30 → i ∈ named fullRestorePairs := by decide
    funext i
    by_cases hi : i = 30
    · rw [hi, Function.update_self]
    · rw [Function.update_of_ne hi, if_pos (hnamed i hi)]
  have hpopped : BitVec.ofNat 64 (16 * fullRestorePairs.length) = 0xf0#64 := rfl
  have hoffset : s.sp + 0xf0#64 + BitVec.ofInt 64 0 = s.sp + 0xf0#64 :=
    BitVec.add_zero _
  have hsp : s.sp + 0xf0#64 + BitVec.ofInt 64 0x20 = s.sp + 0x110#64 :=
    add_ofNat_add _ 0xf0 0x20
  rw [restoreregisterFull, exec_append, exec_pops _ hpairs]
  simp only [exec, List.foldl_cons, List.foldl_nil, Instr.exec,
    Processor.writeBack, Processor.address, Processor.base, Processor.setX,
    Processor.setBase, Processor.load, hpopped, hoffset, hload, hx, hsp]

/-! ## Floating point registers -/

/-- The bytes that `saveFpuState` stores. -/
def fpuBytes (s : Cpu) : List UInt8 :=
  (List.ofFn s.v).flatMap (wordBytes 16) ++
    (wordBytes 8 (s.sys .fpsr) ++ wordBytes 8 (s.sys .fpcr))

/-- `saveFpuState` stores everything from the address in `x0` on. -/
theorem mem_saveFpuState (s : Cpu) :
    (exec saveFpuState s).mem = write s.mem (s.x 0) (fpuBytes s) := by
  have hnames : List.finRange 32 =
      vectorPairs.flatMap fun p => [p.1, p.2] := by decide
  have hvectors : (List.ofFn s.v).flatMap (wordBytes 16) =
      vectorPairs.flatMap (pairBytesQ s.v) := by
    rw [List.ofFn_eq_map, List.flatMap_map, hnames, List.flatMap_assoc]
    simp only [List.flatMap_cons, List.flatMap_nil, List.append_nil]
    rfl
  have hlength : (vectorPairs.flatMap (pairBytesQ s.v)).length = 0x200 := by
    rw [length_flatMap_pairBytesQ]
    rfl
  have hstatus := write_write_append s.mem (s.x 0)
    (vectorPairs.flatMap (pairBytesQ s.v))
    (wordBytes 8 (s.sys .fpsr) ++ wordBytes 8 (s.sys .fpcr)) (by simp [hlength])
  rw [hlength] at hstatus
  rw [saveFpuState, exec_append, exec_storesQ _ _ _ (by decide), fpuBytes,
    hvectors, ← hstatus]
  rfl

end Bmboot
