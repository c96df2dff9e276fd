import Bmboot.Monitor.Validate
import Bmboot.System.State

/-!
# Corrupted images

The manager computes the CRC of a flat image from the file, and the monitor
checks it against the bytes it finds in memory.
-/

namespace Bmboot

/-! ## The checksum of a file -/

/-- `crc32(0, program.data(), program.size())`. -/
def programCrc (program : List UInt8) : BitVec 32 := crc32 0 program

/-- `loadPayloadFromFileOrThrow`: the call it makes with what is in the file, if
the file can be opened. -/
def loadPayloadFromFileOrThrow (elfImage : List UInt8 → ElfImage)
    (path extension : String) (file : Option (List UInt8)) :
    Except String Call :=
  match file with
  | none => .error ("failed to open " ++ path)
  | some program =>
      if extension = ".elf" then .ok (.loadElfPayload (elfImage program) 1234)
      else .ok (.loadAndStartPayload program (programCrc program) 123)

/-! ## Images that differ in memory -/

/-- The file of a flat image, and a memory that holds the image except that
something is different within four consecutive bytes. -/
structure CorruptedImage where
  path : String
  extension : String
  image : List UInt8
  address : BitVec 64
  mem : BitVec 64 → UInt8
  first : ℕ
  flat : extension ≠ ".elf"
  length_lt : image.length < 2 ^ 64
  outside : ∀ (i : ℕ) (_ : i < image.length), i < first ∨ first + 4 ≤ i →
    mem (address + BitVec.ofNat 64 i) = image[i]
  differs : ∃ (i : ℕ) (_ : i < image.length),
    mem (address + BitVec.ofNat 64 i) ≠ image[i]

namespace CorruptedImage

variable (c : CorruptedImage)

/-- What the monitor finds. -/
def found : List UInt8 := readBytes c.mem c.address c.image.length

/-- The monitor's answer when it is told to expect that checksum. -/
def verdict (crc : BitVec 32) : Response :=
  validatePayload c.mem c.address (BitVec.ofNat 64 c.image.length) crc

@[simp] theorem length_found : c.found.length = c.image.length := by
  simp [found, readBytes]

theorem getElem_found (i : ℕ) (h : i < c.found.length) :
    c.found[i] = c.mem (c.address + BitVec.ofNat 64 i) := by
  simp [found, readBytes]

theorem found_ne : c.found ≠ c.image := by
  intro h
  obtain ⟨i, hi, hdiffers⟩ := c.differs
  apply hdiffers
  rw [← c.getElem_found i (by rw [length_found]; exact hi)]
  simp [h]

theorem take_found : c.found.take c.first = c.image.take c.first := by
  apply List.ext_getElem
  · simp
  · intro i hi _
    rw [List.length_take, length_found] at hi
    rw [List.getElem_take, List.getElem_take, getElem_found]
    exact c.outside i (by omega) (Or.inl (by omega))

theorem drop_found : c.found.drop (c.first + 4) = c.image.drop (c.first + 4) := by
  apply List.ext_getElem
  · simp
  · intro i hi _
    rw [List.length_drop, length_found] at hi
    rw [List.getElem_drop, List.getElem_drop, getElem_found]
    exact c.outside _ (by omega) (Or.inr (by omega))

theorem crc_found_ne : Crc.crc32 c.found ≠ Crc.crc32 c.image := by
  intro h
  have hremainder := (BitVec.xor_left_inj _).mp h
  exact Crc.remainder_ne_of_agree 0xedb88320 (by decide) (BitVec.allOnes 32)
    c.length_found (le_refl (8 * 4)) c.take_found c.drop_found c.found_ne
    hremainder

theorem verdict_programCrc : c.verdict (programCrc c.image) = .crcMismatched := by
  have hsize : (BitVec.ofNat 64 c.image.length).toNat = c.image.length := by
    rw [BitVec.toNat_ofNat]
    exact Nat.mod_eq_of_lt c.length_lt
  rw [verdict, validatePayload, hsize, programCrc, crc32_eq, crc32_eq]
  exact if_pos c.crc_found_ne

/-- With the checksum that goes with the image, a corruption within four
consecutive bytes is caught wherever it is. -/
theorem corruption_is_caught (elfImage : List UInt8 → ElfImage) :
    ∃ crc argument,
      loadPayloadFromFileOrThrow elfImage c.path c.extension (some c.image) =
        .ok (.loadAndStartPayload c.image crc argument) ∧
      c.verdict crc = .crcMismatched := by
  refine ⟨programCrc c.image, 123, ?_, c.verdict_programCrc⟩
  exact if_neg c.flat

end CorruptedImage

/-- An image of one byte, zero, in a memory of ones. -/
def oneByteImage : CorruptedImage where
  path := "payload.bin"
  extension := ".bin"
  image := [0]
  address := 0
  mem := fun _ => 1
  first := 0
  flat := by decide
  length_lt := by decide
  outside := by
    intro i hi hout
    have hzero : i = 0 := Nat.lt_one_iff.mp hi
    omega
  differs := ⟨0, by decide, by decide⟩

theorem corruption_is_caught_oneByte :
    ∃ crc argument,
      loadPayloadFromFileOrThrow (fun _ => ⟨[], false, 0⟩) "payload.bin" ".bin"
          (some [0]) = .ok (.loadAndStartPayload [0] crc argument) ∧
        oneByteImage.verdict crc = .crcMismatched :=
  oneByteImage.corruption_is_caught fun _ => ⟨[], false, 0⟩

example : validatePayload (fun _ => 1) 0 1 (programCrc [0]) = .crcMismatched := by
  decide

end Bmboot
