import Bmboot.Dump.CoreDump
import Bmboot.Dump.DumpCore
import Bmboot.Lib.Stdio

/-!
# Writes that fail

`writeCoreDump` and `write_note` (`coredump_linux.cpp`) call by call, where the
file may not be opened and every write may fall short, and what
`Domain::dumpCore` (`domain.cpp`) reports.  The stream is taken to be unbuffered
and `fclose` to succeed.
-/

namespace Bmboot

open ByteCodec Elf64 Stdio

/-! ## The writes -/

/-- `write_note`; the first failure makes it return false. -/
def writeNoteTo (o : Outcomes) (name : List UInt8) (type : BitVec 32)
    (desc : List UInt8) : Action :=
  let terminatedName := name ++ [0]
  let nhdr := wordBytes 4 (BitVec.ofNat 32 terminatedName.length) ++
    (wordBytes 4 (BitVec.ofNat 32 desc.length) ++ wordBytes 4 type)
  (checkedWrite o nhdr).andThen
    ((checkedWrite o terminatedName).andThen
      ((checkedWrite o (makePadding 4 terminatedName.length)).andThen
        (checkedWrite o desc)))

/-- What a call of `writeCoreDump` is given. -/
structure CoreImage where
  segments : List SegmentData
  regs : Aarch64Regs
  fpregs : Aarch64FpRegs
  fpPadding : Fin 8 → UInt8

namespace CoreImage

variable (c : CoreImage) (o : Outcomes)

/-- The complete file. -/
def bytes : List UInt8 :=
  Bmboot.writeCoreDump c.segments c.regs c.fpregs c.fpPadding

/-- The writes of `writeCoreDump`, each of which returns when it falls short. -/
def writes : Action :=
  let ehdr := coreHeader (c.segments.length + 1)
  let offset := sizeofEhdr + ehdr.phnum.toNat * sizeofPhdr
  let filesz := notesSize
  let align := noteAlign offset filesz
  (checkedWrite o ehdr.bytes).andThen
    ((checkedWrite o (noteHeader offset filesz).bytes).andThen
      ((writeEach o ((loadHeaders (offset + align) filesz c.segments).map
          ProgramHeader.bytes)).andThen
        ((writeNoteTo o noteName ntPrpsinfo prpsinfo).andThen
          ((writeNoteTo o noteName ntPrstatus (prstatus c.regs)).andThen
            ((writeNoteTo o noteName ntFpregset
                (c.fpregs.bytes c.fpPadding)).andThen
              ((if align ≠ 0 then checkedWrite o (List.replicate align 0)
                  else nothing).andThen
                (writeEach o (c.segments.map SegmentData.bytes))))))))

/-- `writeCoreDump`: without a stream the first write is undefined, and the
stream is closed at the end only. -/
def writeCoreDumpTo : Option Stream :=
  (fopen o).map fun f =>
    let (complete, f) := c.writes o f
    if complete then fclose f else f

end CoreImage

/-! ## The report -/

/-- What comes of a call of `dumpCore`: undefined behaviour, or an error or none,
with the stream if one was opened. -/
inductive DumpOutcome
  | undefined
  | returned (error : MaybeError) (stream : Option Stream)
  deriving DecidableEq

/-- `dumpCore`, whose checks are those of the call; nothing is returned by
`writeCoreDump`. -/
def dumpCoreTo (call : DumpCall) (c : CoreImage) (o : Outcomes) : DumpOutcome :=
  match (dumpCore none call).error with
  | some error => .returned (some error) none
  | none =>
      match c.writeCoreDumpTo o with
      | none => .undefined
      | some stream => .returned none (some stream)

/-- No error is returned exactly if the file holds the complete image, and a
stream that was opened is closed. -/
def DumpOutcome.Honest (image : List UInt8) : DumpOutcome → Prop
  | .undefined => False
  | .returned error stream =>
      (error = none ↔ ∃ f, stream = some f ∧ f.file = image) ∧
        ∀ f, stream = some f → f.closed = true

/-! ## The writes in a row -/

/-- What `write_note` writes. -/
def noteChunks (name : List UInt8) (type : BitVec 32) (desc : List UInt8) :
    List (List UInt8) :=
  let terminatedName := name ++ [0]
  [wordBytes 4 (BitVec.ofNat 32 terminatedName.length) ++
      (wordBytes 4 (BitVec.ofNat 32 desc.length) ++ wordBytes 4 type),
    terminatedName, makePadding 4 terminatedName.length, desc]

theorem writeNoteTo_eq (o : Outcomes) (name : List UInt8) (type : BitVec 32)
    (desc : List UInt8) :
    writeNoteTo o name type desc =
      writeEach o (noteChunks name type desc) := by
  simp only [writeNoteTo, noteChunks, writeEach, Action.andThen_nothing]

theorem flatten_noteChunks (name : List UInt8) (type : BitVec 32)
    (desc : List UInt8) :
    (noteChunks name type desc).flatten = writeNote name type desc := by
  simp [noteChunks, writeNote]

namespace CoreImage

variable (c : CoreImage) (o : Outcomes)

/-- Where the notes begin, and the gap behind them. -/
def notesStart : ℕ :=
  sizeofEhdr + (coreHeader (c.segments.length + 1)).phnum.toNat * sizeofPhdr

def gap : ℕ := noteAlign c.notesStart notesSize

/-- What is written, write by write. -/
def chunks : List (List UInt8) :=
  [(coreHeader (c.segments.length + 1)).bytes] ++
    ([(noteHeader c.notesStart notesSize).bytes] ++
      ((loadHeaders (c.notesStart + c.gap) notesSize c.segments).map
          ProgramHeader.bytes ++
        (noteChunks noteName ntPrpsinfo prpsinfo ++
          (noteChunks noteName ntPrstatus (prstatus c.regs) ++
            (noteChunks noteName ntFpregset (c.fpregs.bytes c.fpPadding) ++
              ((if c.gap ≠ 0 then [List.replicate c.gap 0] else []) ++
                c.segments.map SegmentData.bytes))))))

theorem writes_eq : c.writes o = writeEach o c.chunks := by
  have hgap : (if c.gap ≠ 0 then checkedWrite o (List.replicate c.gap 0)
      else nothing) =
        writeEach o (if c.gap ≠ 0 then [List.replicate c.gap 0] else []) := by
    split_ifs
    · exact checkedWrite_eq_writeEach _
    · rfl
  rw [chunks, writeEach_append, writeEach_append, writeEach_append,
    writeEach_append, writeEach_append, writeEach_append, writeEach_append,
    ← hgap, ← writeNoteTo_eq, ← writeNoteTo_eq, ← writeNoteTo_eq,
    ← checkedWrite_eq_writeEach, ← checkedWrite_eq_writeEach]
  rfl

theorem flatten_chunks : c.chunks.flatten = c.bytes := by
  have hgap : (if c.gap ≠ 0 then [List.replicate c.gap (0 : UInt8)]
      else []).flatten = List.replicate c.gap 0 := by
    split_ifs with h
    · exact List.flatten_singleton
    · rw [not_not.mp h]
      rfl
  rw [chunks, List.flatten_append, List.flatten_append, List.flatten_append,
    List.flatten_append, List.flatten_append, List.flatten_append,
    List.flatten_append, hgap, flatten_noteChunks, flatten_noteChunks,
    flatten_noteChunks, List.flatten_singleton, List.flatten_singleton,
    ← List.flatMap_def, ← List.flatMap_def]
  rfl

/-- The file can be opened, and no write falls short. -/
def AllWritten : Prop := o.opens = true ∧ o.CompleteFrom 0 c.chunks

variable {c o}

theorem writeCoreDumpTo_of_allWritten (h : c.AllWritten o) :
    ∃ f, c.writeCoreDumpTo o = some f ∧ f.file = c.bytes ∧
      f.closed = true := by
  have hwrites := writeEach_of_complete (f := Stream.empty) h.2
  rw [← writes_eq] at hwrites
  refine ⟨fclose (c.writes o .empty).2, ?_, ?_, rfl⟩
  · rw [writeCoreDumpTo, fopen, if_pos h.1, Option.map_some, hwrites]
    rfl
  · rw [hwrites]
    exact c.flatten_chunks

/-- Otherwise there is no stream, or it is left open with a part of the
image. -/
theorem writeCoreDumpTo_of_not_allWritten (h : ¬c.AllWritten o) :
    c.writeCoreDumpTo o = none ∨
      ∃ f, c.writeCoreDumpTo o = some f ∧
        f.file.length < c.bytes.length ∧ f.closed = false := by
  by_cases hopens : o.opens = true
  · right
    have hcomplete : ¬o.CompleteFrom 0 c.chunks := fun hc => h ⟨hopens, hc⟩
    obtain ⟨hgiven, hclosed, hshort⟩ :=
      writeEach_of_not_complete (f := Stream.empty) hcomplete
    rw [← writes_eq] at hgiven hclosed hshort
    have hempty : Stream.empty.file = [] := rfl
    rw [flatten_chunks, hempty, List.nil_append] at hshort
    refine ⟨(c.writes o .empty).2, ?_, hshort, hclosed⟩
    rw [writeCoreDumpTo, fopen, if_pos hopens, Option.map_some]
    simp only [hgiven, Bool.false_eq_true, if_false]
  · left
    rw [writeCoreDumpTo, fopen, if_neg hopens]
    rfl

end CoreImage

/-! ## When the report is right -/

section Reports

variable {call : DumpCall} {c : CoreImage} {o : Outcomes}

theorem dumpCoreTo_of_succeeds (h : call.Succeeds) :
    dumpCoreTo call c o =
      match c.writeCoreDumpTo o with
      | none => .undefined
      | some stream => .returned none (some stream) := by
  obtain ⟨base, hbase⟩ := Option.ne_none_iff_exists'.mp h.2.2
  rw [dumpCoreTo, dumpCore_of_succeeds none h hbase]

theorem honest_of_not_succeeds (h : ¬call.Succeeds) :
    (dumpCoreTo call c o).Honest c.bytes := by
  have hne : (dumpCore none call).error ≠ none := (error_of_not_succeeds h).1
  obtain ⟨error, herror⟩ := Option.ne_none_iff_exists'.mp hne
  rw [dumpCoreTo, herror]
  constructor
  · constructor
    · intro hnone
      cases hnone
    · rintro ⟨f, hf, _⟩
      cases hf
  · intro f hf
    cases hf

theorem honest_of_allWritten (h : call.Succeeds) (hall : c.AllWritten o) :
    (dumpCoreTo call c o).Honest c.bytes := by
  obtain ⟨f, hf, hfile, hclosed⟩ := CoreImage.writeCoreDumpTo_of_allWritten hall
  rw [dumpCoreTo_of_succeeds h, hf]
  constructor
  · constructor
    · intro _
      exact ⟨f, rfl, hfile⟩
    · intro _
      rfl
  · intro g hg
    rw [← Option.some.inj hg]
    exact hclosed

/-- A file that cannot be opened is written to all the same, and a write that
falls short is not reported. -/
theorem not_honest_of_not_allWritten
    (h : call.Succeeds) (hall : ¬c.AllWritten o) :
    ¬(dumpCoreTo call c o).Honest c.bytes := by
  rw [dumpCoreTo_of_succeeds h]
  rcases CoreImage.writeCoreDumpTo_of_not_allWritten hall with
    hf | ⟨f, hf, hshort, _⟩
  · rw [hf]
    exact id
  · rw [hf]
    rintro ⟨hreport, _⟩
    obtain ⟨g, hg, hfile⟩ := hreport.mp rfl
    rw [← Option.some.inj hg] at hfile
    rw [hfile] at hshort
    exact Nat.lt_irrefl _ hshort

end Reports

/-- The report is right if the dump is refused, or else everything is written,
where a write fails at its `fwrite` and not later, when the stream is closed. -/
theorem dumpCoreTo_honest_iff
    (call : DumpCall) (c : CoreImage) (o : Outcomes) :
    (dumpCoreTo call c o).Honest c.bytes ↔
      (call.Succeeds → c.AllWritten o) := by
  constructor
  · intro h hsucceeds
    by_contra hall
    exact not_honest_of_not_allWritten hsucceeds hall h
  · intro h
    by_cases hsucceeds : call.Succeeds
    · exact honest_of_allWritten hsucceeds (h hsucceeds)
    · exact honest_of_not_succeeds hsucceeds

/-- The payload memory of cpu1 as `dumpCore` passes it on, all zero, and
registers that are zero. -/
def zeroImage : CoreImage where
  segments := [{
    startAddress := payloadAddress .cpu1
    bytes := List.replicate payloadAreaSize 0 }]
  regs := { regs := fun _ => 0, sp := 0, pc := 0, pstate := 0 }
  fpregs := { vregs := fun _ => 0, fpsr := 0, fpcr := 0 }
  fpPadding := fun _ => 0

/-- The first write falls short by one byte, as on a full disk. -/
def fullDisk : Outcomes where
  opens := true
  shortfall := fun _ => 1

/-- The dump is reported as a success although 63 bytes have been written. -/
theorem not_honest_fullDisk :
    ¬(dumpCoreTo (crashedDump .cpu1 0x7f0000000000) zeroImage fullDisk).Honest
      zeroImage.bytes := by
  apply not_honest_of_not_allWritten
  · exact ⟨Or.inl rfl, rfl, Option.some_ne_none _⟩
  · rintro ⟨_, hehdr, _⟩
    exact absurd hehdr (by decide)

end Bmboot
