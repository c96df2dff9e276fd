import Bmboot.Lib.ByteCodec

/-!
# ELF64 core files

The file header, the program headers and the notes of a 64-bit little-endian
ELF core file, and a reader for them that follows the format: program headers
are found through the file header, and the contents of a segment and the notes
of a note segment through their program header.  This module is independent of
any particular writer.
-/

namespace Elf64

open ByteCodec

/-! ## Words -/

@[simp] theorem takeWord_word (x : BitVec 32) (rest : List UInt8) :
    takeWord 32 4 (wordBytes 4 x ++ rest) = some (x, rest) :=
  takeWord_append (by decide) x rest

@[simp] theorem takeWord_xword (x : BitVec 64) (rest : List UInt8) :
    takeWord 64 8 (wordBytes 8 x ++ rest) = some (x, rest) :=
  takeWord_append (by decide) x rest

/-! ## Headers -/

/-- `Elf64_Ehdr`. -/
structure FileHeader where
  ident : List UInt8
  ident_length : ident.length = 16
  type : BitVec 16
  machine : BitVec 16
  version : BitVec 32
  entry : BitVec 64
  phoff : BitVec 64
  shoff : BitVec 64
  flags : BitVec 32
  ehsize : BitVec 16
  phentsize : BitVec 16
  phnum : BitVec 16
  shentsize : BitVec 16
  shnum : BitVec 16
  shstrndx : BitVec 16

def FileHeader.bytes (h : FileHeader) : List UInt8 :=
  h.ident ++ (wordBytes 2 h.type ++ (wordBytes 2 h.machine ++
    (wordBytes 4 h.version ++ (wordBytes 8 h.entry ++ (wordBytes 8 h.phoff ++
      (wordBytes 8 h.shoff ++ (wordBytes 4 h.flags ++ (wordBytes 2 h.ehsize ++
        (wordBytes 2 h.phentsize ++ (wordBytes 2 h.phnum ++
          (wordBytes 2 h.shentsize ++ (wordBytes 2 h.shnum ++
            wordBytes 2 h.shstrndx))))))))))))

def takeFileHeader : Reader FileHeader := fun bytes => do
  let (ident, bytes) ← takeBytes 16 bytes
  let (type, bytes) ← takeWord 16 2 bytes
  let (machine, bytes) ← takeWord 16 2 bytes
  let (version, bytes) ← takeWord 32 4 bytes
  let (entry, bytes) ← takeWord 64 8 bytes
  let (phoff, bytes) ← takeWord 64 8 bytes
  let (shoff, bytes) ← takeWord 64 8 bytes
  let (flags, bytes) ← takeWord 32 4 bytes
  let (ehsize, bytes) ← takeWord 16 2 bytes
  let (phentsize, bytes) ← takeWord 16 2 bytes
  let (phnum, bytes) ← takeWord 16 2 bytes
  let (shentsize, bytes) ← takeWord 16 2 bytes
  let (shnum, bytes) ← takeWord 16 2 bytes
  let (shstrndx, bytes) ← takeWord 16 2 bytes
  if h : ident.length = 16 then
    some ({
      ident := ident, ident_length := h, type := type, machine := machine
      version := version, entry := entry, phoff := phoff, shoff := shoff
      flags := flags, ehsize := ehsize, phentsize := phentsize
      phnum := phnum, shentsize := shentsize, shnum := shnum
      shstrndx := shstrndx }, bytes)
  else none

/-- `Elf64_Phdr`. -/
structure ProgramHeader where
  type : BitVec 32
  flags : BitVec 32
  offset : BitVec 64
  vaddr : BitVec 64
  paddr : BitVec 64
  filesz : BitVec 64
  memsz : BitVec 64
  align : BitVec 64
  deriving DecidableEq

def ptLoad : BitVec 32 := 1
def ptNote : BitVec 32 := 4

def ProgramHeader.bytes (p : ProgramHeader) : List UInt8 :=
  wordBytes 4 p.type ++ (wordBytes 4 p.flags ++ (wordBytes 8 p.offset ++
    (wordBytes 8 p.vaddr ++ (wordBytes 8 p.paddr ++ (wordBytes 8 p.filesz ++
      (wordBytes 8 p.memsz ++ wordBytes 8 p.align))))))

def takeProgramHeader : Reader ProgramHeader := fun bytes => do
  let (type, bytes) ← takeWord 32 4 bytes
  let (flags, bytes) ← takeWord 32 4 bytes
  let (offset, bytes) ← takeWord 64 8 bytes
  let (vaddr, bytes) ← takeWord 64 8 bytes
  let (paddr, bytes) ← takeWord 64 8 bytes
  let (filesz, bytes) ← takeWord 64 8 bytes
  let (memsz, bytes) ← takeWord 64 8 bytes
  let (align, bytes) ← takeWord 64 8 bytes
  some ({
    type := type, flags := flags, offset := offset, vaddr := vaddr
    paddr := paddr, filesz := filesz, memsz := memsz, align := align }, bytes)

theorem length_fileHeader (h : FileHeader) : h.bytes.length = 64 := by
  simp [FileHeader.bytes, h.ident_length]

theorem length_programHeader (p : ProgramHeader) : p.bytes.length = 56 := by
  simp [ProgramHeader.bytes]

theorem reads_fileHeader : Reads takeFileHeader FileHeader.bytes := by
  intro h rest
  rw [takeFileHeader, FileHeader.bytes]
  simp only [List.append_assoc]
  rw [takeBytes_append_of_length h.ident_length, Option.bind_eq_bind,
    Option.bind_some]
  -- One word after the other, the first one first.
  simp (disch := decide) only [↓takeWord_bind]
  exact dif_pos h.ident_length

theorem reads_programHeader :
    Reads takeProgramHeader ProgramHeader.bytes := by
  intro p rest
  rw [takeProgramHeader, ProgramHeader.bytes]
  simp only [List.append_assoc]
  simp (disch := decide) only [↓takeWord_bind]

/-! ## Core files -/

/-- What a reader of a core file works with. -/
structure CoreFile where
  header : FileHeader
  programHeaders : List ProgramHeader

/-- Magic number, `ELFCLASS64`, `ELFDATA2LSB` and `EV_CURRENT`. -/
def identPrefix : List UInt8 := [0x7f, 0x45, 0x4c, 0x46, 2, 1, 1]

def etCore : BitVec 16 := 4

/-- Read the headers of a core file. -/
def readCore (file : List UInt8) : Option CoreFile := do
  let (header, _) ← takeFileHeader file
  if header.ident.take 7 = identPrefix ∧ header.type = etCore ∧
      header.phentsize = 56 then
    let (programHeaders, _) ← takeMany takeProgramHeader header.phnum.toNat
      (file.drop header.phoff.toNat)
    some { header := header, programHeaders := programHeaders }
  else none

/-- The bytes of the file that a program header refers to. -/
def ProgramHeader.contents (file : List UInt8) (p : ProgramHeader) :
    Option (List UInt8) :=
  slice file p.offset.toNat p.filesz.toNat

/-- The end of that range. -/
def ProgramHeader.fileEnd (p : ProgramHeader) : ℕ :=
  p.offset.toNat + p.filesz.toNat

/-- A file that consists of a file header, the program headers it announces and
anything else is read as such. -/
theorem readCore_eq
    {h : FileHeader} {ps : List ProgramHeader} {rest : List UInt8}
    (hident : h.ident.take 7 = identPrefix) (htype : h.type = etCore)
    (hphentsize : h.phentsize = 56) (hphoff : h.phoff = 64)
    (hphnum : h.phnum.toNat = ps.length) :
    readCore (h.bytes ++ (ps.flatMap ProgramHeader.bytes ++ rest)) =
      some { header := h, programHeaders := ps } := by
  have hdrop : (h.bytes ++ (ps.flatMap ProgramHeader.bytes ++ rest)).drop
      h.phoff.toNat = ps.flatMap ProgramHeader.bytes ++ rest := by
    have hlength : h.phoff.toNat = h.bytes.length := by
      rw [hphoff, length_fileHeader]
      rfl
    rw [hlength, List.drop_left]
  have hmany := reads_programHeader.takeMany ps rest
  simp only [readCore, reads_fileHeader h, Option.bind_eq_bind,
    Option.bind_some, hident, htype, hphentsize, hdrop, hphnum, hmany]
  simp

/-! ## Notes -/

structure Note where
  name : List UInt8
  type : BitVec 32
  desc : List UInt8
  deriving DecidableEq

/-- Names and descriptors are padded to multiples of four bytes. -/
def notePadding (length : ℕ) : ℕ := (4 - length % 4) % 4

def takeNote : Reader Note := fun bytes => do
  let (namesz, bytes) ← takeWord 32 4 bytes
  let (descsz, bytes) ← takeWord 32 4 bytes
  let (type, bytes) ← takeWord 32 4 bytes
  let (name, bytes) ← takeBytes namesz.toNat bytes
  let (_, bytes) ← takeBytes (notePadding namesz.toNat) bytes
  let (desc, bytes) ← takeBytes descsz.toNat bytes
  let (_, bytes) ← takeBytes (notePadding descsz.toNat) bytes
  some ({ name := name, type := type, desc := desc }, bytes)

/-- Read notes until there are no bytes left; every note has some. -/
def takeNotes : ℕ → List UInt8 → Option (List Note)
  | _, [] => some []
  | 0, _ :: _ => none
  | fuel + 1, b :: bytes => do
      let (note, rest) ← takeNote (b :: bytes)
      let notes ← takeNotes fuel rest
      some (note :: notes)

def readNotes (bytes : List UInt8) : Option (List Note) :=
  takeNotes bytes.length bytes

theorem takeNotes_flatMap
    {write : Note → List UInt8} {notes : List Note}
    (hread : ∀ note ∈ notes, ∀ rest,
      takeNote (write note ++ rest) = some (note, rest))
    (hne : ∀ note ∈ notes, write note ≠ []) {fuel : ℕ}
    (hfuel : notes.length ≤ fuel) :
    takeNotes fuel (notes.flatMap write) = some notes := by
  induction notes generalizing fuel with
  | nil => cases fuel <;> rfl
  | cons note notes ih =>
      obtain ⟨fuel, rfl⟩ : ∃ n, fuel = n + 1 :=
        Nat.exists_eq_succ_of_ne_zero (by simp at hfuel; omega)
      have hfirst := hread note List.mem_cons_self (notes.flatMap write)
      have hrest := ih (fun n hn => hread n (List.mem_cons_of_mem _ hn))
        (fun n hn => hne n (List.mem_cons_of_mem _ hn))
        (Nat.le_of_succ_le_succ hfuel)
      obtain ⟨b, bytes, hcons⟩ :=
        List.exists_cons_of_ne_nil (hne note List.mem_cons_self)
      rw [List.flatMap_cons]
      rw [hcons] at hfirst ⊢
      rw [List.cons_append] at hfirst ⊢
      simp [takeNotes, hfirst, hrest]

/-- Notes that are each read back are read back together. -/
theorem readNotes_flatMap
    {write : Note → List UInt8} {notes : List Note}
    (hread : ∀ note ∈ notes, ∀ rest,
      takeNote (write note ++ rest) = some (note, rest))
    (hne : ∀ note ∈ notes, write note ≠ []) :
    readNotes (notes.flatMap write) = some notes := by
  refine takeNotes_flatMap hread hne ?_
  clear hread
  induction notes with
  | nil => simp
  | cons note notes ih =>
      have hpos := List.length_pos_of_ne_nil (hne note List.mem_cons_self)
      have hrest := ih fun n hn => hne n (List.mem_cons_of_mem _ hn)
      rw [List.flatMap_cons, List.length_append, List.length_cons]
      omega

end Elf64
