import Bmboot.Vectors.Instructions

/-!
# The layout of saved floating point state

`saveFpuState` stores the status and control registers as two words of 64 bits,
where `Aarch64_FpRegs` has two of 32 bits.
-/

namespace Bmboot

open A64 ByteCodec ByteMemory Elf64

/-- A call of `saveFpuState`, with the upper halves of `FPSR` and `FPCR` read as
zero. -/
structure SaveFpuCall where
  cpu : Cpu
  fpsr : BitVec 32
  fpcr : BitVec 32
  fpsr_eq : cpu.sys .fpsr = fpsr.zeroExtend 64
  fpcr_eq : cpu.sys .fpcr = fpcr.zeroExtend 64

namespace SaveFpuCall

variable (c : SaveFpuCall)

/-- The address that the call is given. -/
def destination : BitVec 64 := c.cpu.x 0

/-- The memory after the call. -/
def saved : Memory 64 := (exec saveFpuState c.cpu).mem

/-- The bytes at the address show the registers, and no others are written. -/
structure Layout : Prop where
  shown : fpRegsOfFpregset (read c.saved c.destination sizeofFpRegs) =
    some { vregs := c.cpu.v, fpsr := c.fpsr, fpcr := c.fpcr }
  outside : ∀ a, sizeofFpRegs ≤ (a - c.destination).toNat →
    c.saved a = c.cpu.mem a

theorem length_fpuBytes : (fpuBytes c.cpu).length = sizeofFpRegs := by
  have hregs := length_flatMap_of_const (length_wordBytes 16)
    (List.ofFn c.cpu.v)
  rw [List.length_ofFn] at hregs
  simp only [fpuBytes, List.length_append, length_wordBytes, hregs]
  rfl

theorem saved_eq : c.saved = write c.cpu.mem c.destination (fpuBytes c.cpu) :=
  mem_saveFpuState c.cpu

theorem read_saved :
    read c.saved c.destination sizeofFpRegs = fpuBytes c.cpu := by
  rw [saved_eq, ← length_fpuBytes]
  exact read_write _ _ (by rw [length_fpuBytes]; decide)

theorem outside_saved
    (a : BitVec 64) (h : sizeofFpRegs ≤ (a - c.destination).toNat) :
    c.saved a = c.cpu.mem a := by
  rw [saved_eq]
  exact write_of_le (by rw [length_fpuBytes]; exact h)

/-- A word of 64 bits with an upper half of zero is two words of 32 bits. -/
theorem wordBytes_zeroExtend (x : BitVec 32) :
    wordBytes 8 (x.zeroExtend 64) =
      wordBytes 4 x ++ wordBytes 4 (0 : BitVec 32) := by
  have hx : (x.zeroExtend 64).toNat = x.toNat :=
    BitVec.toNat_setWidth_of_le (by decide)
  have hhigh : x.toNat / 256 ^ 4 = 0 := Nat.div_eq_of_lt x.isLt
  rw [wordBytes, hx, leBytes_add 4 4, hhigh]
  rfl

/-- The upper half of `FPSR` is taken for `FPCR`. -/
theorem shown_saved :
    fpRegsOfFpregset (read c.saved c.destination sizeofFpRegs) =
      some { vregs := c.cpu.v, fpsr := c.fpsr, fpcr := 0 } := by
  have hregs := takeMany_ofFn (fun x rest => takeWord_128 x rest) c.cpu.v
  rw [read_saved, fpuBytes, c.fpsr_eq, wordBytes_zeroExtend]
  simp only [fpRegsOfFpregset, hregs, Option.bind_eq_bind, Option.bind_some,
    List.append_assoc, takeWord_word, getD_ofFn]

/-- The layout is right exactly if `FPCR` is zero. -/
theorem layout_iff : c.Layout ↔ c.fpcr = 0 := by
  constructor
  · intro h
    have hshown := c.shown_saved.symm.trans h.shown
    exact (congrArg Aarch64FpRegs.fpcr (Option.some.inj hshown)).symm
  · intro h
    constructor
    · rw [shown_saved, h]
    · exact c.outside_saved

end SaveFpuCall

/-- `FPCR` asks for rounding towards zero. -/
def roundingCall : SaveFpuCall where
  cpu :=
    { x := fun _ => 0
      sp := 0
      v := fun _ => 0
      sys := fun r => if r = .fpcr then 0xc00000 else 0
      mem := fun _ => 0 }
  fpsr := 0
  fpcr := 0xc00000
  fpsr_eq := rfl
  fpcr_eq := rfl

/-- The rounding mode is not shown. -/
theorem not_layout_roundingCall : ¬roundingCall.Layout := by
  intro h
  have hshown := roundingCall.shown_saved.symm.trans h.shown
  have hfpcr := congrArg Aarch64FpRegs.fpcr (Option.some.inj hshown)
  exact absurd hfpcr (by decide)

end Bmboot
