import Bmboot.Lib.Routine
import Bmboot.Monitor.Crc32
import Bmboot.Monitor.Smc
import Mathlib.Data.List.Range

/-!
# Validation of a payload image

`validatePayload` (`monitor.cpp`) as a function of the memory, and as the
routine that reads the memory one byte at a time while others may write it.
-/

namespace Bmboot

/-! ## The function -/

def abiMagicNumber : BitVec 32 := 0x6f626d42

def payloadImageHeaderSize : ℕ := 32

/-- A little-endian word of a byte string. -/
def readWord32 (bytes : List UInt8) (offset : ℕ) : BitVec 32 :=
  (bytes.getD (offset + 3) 0).toBitVec ++ (bytes.getD (offset + 2) 0).toBitVec ++
    (bytes.getD (offset + 1) 0).toBitVec ++ (bytes.getD offset 0).toBitVec

/-- The checks on the copied `PayloadImageHeader`: `magic` at offset 8,
`abi_major` at 12, `abi_minor` at 13. -/
def checkHeader (hdr : List UInt8) : Response :=
  if readWord32 hdr 8 ≠ abiMagicNumber then .imageMalformed
  else if (hdr.getD 12 0).toNat ≠ abiMajor ∨ (hdr.getD 13 0).toNat > abiMinor
    then .abiIncompatible
  else .crcOk

def validatePayload (mem : BitVec 64 → UInt8) (image imageSize : BitVec 64)
    (crcExpected : BitVec 32) : Response :=
  if crc32 0 (readBytes mem image imageSize.toNat) ≠ crcExpected then
    .crcMismatched
  else checkHeader (readBytes mem image payloadImageHeaderSize)

/-! ## The routine -/

/-- The arguments of `validatePayload`. -/
structure ValidateCall where
  image : BitVec 64
  imageSize : BitVec 64
  crcExpected : BitVec 32
  deriving DecidableEq

/-- Where `validatePayload` stands: in the loop of `crc32`, with the bytes to
go, or in the `memcpy` of the header, with the bytes copied. -/
inductive ValidatePc
  | crcLoop (p : BitVec 64) (size : ℕ) (crc : BitVec 32)
  | copyHeader (copied : List UInt8)
  deriving DecidableEq

def ValidateCall.start (call : ValidateCall) : ValidatePc :=
  .crcLoop call.image call.imageSize.toNat (0 ^^^ ~~~0)

/-- Read one byte, or return. -/
def ValidatePc.step (call : ValidateCall) (mem : BitVec 64 → UInt8) :
    ValidatePc → Routine.Next ValidatePc Response
  | .crcLoop p (size + 1) crc => .goto (.crcLoop (p + 1) size (crc32Step crc (mem p)))
  | .crcLoop _ 0 crc =>
      if crc ^^^ ~~~0 ≠ call.crcExpected then .ret .crcMismatched
      else .goto (.copyHeader [])
  | .copyHeader copied =>
      if copied.length < payloadImageHeaderSize then
        .goto (.copyHeader
          (copied ++ [mem (call.image + BitVec.ofNat 64 copied.length)]))
      else .ret (checkHeader copied)

/-! ## The routine computes the function -/

theorem readBytes_succ
    (mem : BitVec 64 → UInt8) (p : BitVec 64) (n : ℕ) :
    readBytes mem p (n + 1) = mem p :: readBytes mem (p + 1) n := by
  have htail : ∀ i, p + BitVec.ofNat 64 (i + 1) =
      p + 1 + BitVec.ofNat 64 i := by
    intro i
    rw [BitVec.ofNat_add, BitVec.add_assoc, BitVec.add_comm (BitVec.ofNat 64 i)]
    rfl
  simp only [readBytes, List.range_succ_eq_map, List.map_cons, List.map_map]
  congr 1
  · simp
  · exact List.map_congr_left fun i _ => congrArg mem (htail i)

/-- What the rest of the routine returns if the memory stays as it is. -/
def ValidatePc.verdict (call : ValidateCall) (mem : BitVec 64 → UInt8) :
    ValidatePc → Response
  | .crcLoop p size crc =>
      if (readBytes mem p size).foldl crc32Step crc ^^^ ~~~0 ≠
          call.crcExpected then
        .crcMismatched
      else checkHeader (readBytes mem call.image payloadImageHeaderSize)
  | .copyHeader copied =>
      checkHeader (copied ++
        readBytes mem (call.image + BitVec.ofNat 64 copied.length)
          (payloadImageHeaderSize - copied.length))

variable (call : ValidateCall) (mem : BitVec 64 → UInt8)

theorem verdict_step_goto
    {pc pc' : ValidatePc} (h : pc.step call mem = .goto pc') :
    pc'.verdict call mem = pc.verdict call mem := by
  match pc with
  | .crcLoop p (size + 1) crc =>
      cases h
      simp [ValidatePc.verdict, readBytes_succ]
  | .crcLoop p 0 crc =>
      simp only [ValidatePc.step] at h
      split at h
      · cases h
      next heq =>
        cases h
        have hcrc : crc ^^^ ~~~0 = call.crcExpected := not_not.mp heq
        simp [ValidatePc.verdict, readBytes, ← hcrc]
  | .copyHeader copied =>
      simp only [ValidatePc.step] at h
      split at h
      next hlt =>
        cases h
        have hcount : payloadImageHeaderSize - copied.length =
            payloadImageHeaderSize - (copied.length + 1) + 1 := by omega
        have haddress : call.image + BitVec.ofNat 64 (copied.length + 1) =
            call.image + BitVec.ofNat 64 copied.length + 1 := by
          rw [BitVec.ofNat_add, ← BitVec.add_assoc]
          rfl
        simp only [ValidatePc.verdict, List.length_append, List.length_singleton]
        rw [hcount, readBytes_succ, haddress]
        simp
      · cases h

theorem verdict_step_ret
    {pc : ValidatePc} {r : Response} (h : pc.step call mem = .ret r) :
    pc.verdict call mem = r := by
  match pc with
  | .crcLoop p (size + 1) crc => cases h
  | .crcLoop p 0 crc =>
      simp only [ValidatePc.step] at h
      split at h
      next hne =>
        cases h
        simp only [ValidatePc.verdict, readBytes, List.range_zero, List.map_nil,
          List.foldl_nil]
        exact if_pos hne
      · cases h
  | .copyHeader copied =>
      simp only [ValidatePc.step] at h
      split at h
      · cases h
      next hge =>
        cases h
        have hcount : payloadImageHeaderSize - copied.length = 0 := by omega
        simp [ValidatePc.verdict, hcount, readBytes]

/-- The bytes the routine still has to read, and its phase. -/
def ValidatePc.measure : ValidatePc → ℕ
  | .crcLoop _ size _ => size + payloadImageHeaderSize + 2
  | .copyHeader copied => payloadImageHeaderSize - copied.length

theorem measure_step_goto
    {pc pc' : ValidatePc} (h : pc.step call mem = .goto pc') :
    pc'.measure < pc.measure := by
  match pc with
  | .crcLoop p (size + 1) crc =>
      cases h
      simp only [ValidatePc.measure]
      omega
  | .crcLoop p 0 crc =>
      simp only [ValidatePc.step] at h
      split at h
      · cases h
      · cases h
        simp only [ValidatePc.measure, List.length_nil]
        omega
  | .copyHeader copied =>
      simp only [ValidatePc.step] at h
      split at h
      next hlt =>
        cases h
        simp only [ValidatePc.measure, List.length_append, List.length_singleton]
        omega
      · cases h

/-- Without interference the routine returns, and what `validatePayload`
says. -/
theorem validate_completes :
    Routine.Completes (fun mem (pc : ValidatePc) => (mem, pc.step call mem))
      mem call.start mem
      (validatePayload mem call.image call.imageSize call.crcExpected) := by
  have hpredicts : Routine.Predicts
      (fun mem (pc : ValidatePc) => (mem, pc.step call mem))
      fun mem pc => (mem, pc.verdict call mem) := by
    intro mem pc
    constructor
    · intro mem' pc' h
      obtain ⟨rfl, hgoto⟩ := Prod.mk.inj h
      exact congrArg (Prod.mk mem) (verdict_step_goto call mem hgoto).symm
    · intro mem' r h
      obtain ⟨rfl, hret⟩ := Prod.mk.inj h
      exact congrArg (Prod.mk mem) (verdict_step_ret call mem hret)
  refine hpredicts.completes (fun _ pc => pc.measure) ?_ mem call.start
  intro mem pc mem' pc' h
  obtain ⟨rfl, hgoto⟩ := Prod.mk.inj h
  exact measure_step_goto call mem hgoto

end Bmboot
