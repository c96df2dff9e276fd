import Bmboot.Dump.CoreDump

/-!
# Core dump files are read back

The sizes that `writeCoreDump` assumes are those of what it writes, so that
every offset is the length of what comes before.
-/

namespace Bmboot

open ByteCodec Elf64

/-! ## Registers -/

theorem takeWord_128 (x : BitVec 128) (rest : List UInt8) :
    takeWord 128 16 (wordBytes 16 x ++ rest) = some (x, rest) :=
  takeWord_append (by decide) x rest

theorem getD_ofFn {α : Type*} {n : ℕ} (f : Fin n → α) (d : α) :
    (fun i : Fin n => (List.ofFn f).getD i d) = f := by
  funext i
  simp [List.getD]

theorem takeMany_ofFn
    {α : Type*} {read : Reader α} {write : α → List UInt8}
    (h : Reads read write) {n : ℕ} (f : Fin n → α) (rest : List UInt8) :
    takeMany read n ((List.ofFn f).flatMap write ++ rest) =
      some (List.ofFn f, rest) := by
  have hmany := h.takeMany (List.ofFn f) rest
  rwa [List.length_ofFn] at hmany

theorem length_regs (r : Aarch64Regs) : r.bytes.length = 272 := by
  have hregs := length_flatMap_of_const (length_wordBytes 8) (List.ofFn r.regs)
  rw [List.length_ofFn] at hregs
  simp only [Aarch64Regs.bytes, List.length_append, length_wordBytes, hregs]

theorem length_fpRegs (r : Aarch64FpRegs) (padding : Fin 8 → UInt8) :
    (r.bytes padding).length = sizeofFpRegs := by
  have hregs := length_flatMap_of_const (length_wordBytes 16)
    (List.ofFn r.vregs)
  rw [List.length_ofFn] at hregs
  simp only [Aarch64FpRegs.bytes, List.length_append, length_wordBytes,
    List.length_ofFn, hregs]
  rfl

theorem takeRegs_append (r : Aarch64Regs) (rest : List UInt8) :
    takeRegs (r.bytes ++ rest) = some (r, rest) := by
  have hregs := takeMany_ofFn (fun x rest => takeWord_xword x rest) r.regs
  simp only [takeRegs, Aarch64Regs.bytes, List.append_assoc, hregs,
    Option.bind_eq_bind, Option.bind_some, takeWord_xword, getD_ofFn]

theorem fpRegsOfFpregset_bytes
    (r : Aarch64FpRegs) (padding : Fin 8 → UInt8) :
    fpRegsOfFpregset (r.bytes padding) = some r := by
  have hregs := takeMany_ofFn (fun x rest => takeWord_128 x rest) r.vregs
  simp only [fpRegsOfFpregset, Aarch64FpRegs.bytes, hregs,
    Option.bind_eq_bind, Option.bind_some, takeWord_word, getD_ofFn]

theorem regsOfPrstatus_prstatus (r : Aarch64Regs) :
    regsOfPrstatus (prstatus r) = some r := by
  have hlength : (List.replicate 32 (0 : UInt8) ++
      (wordBytes 4 (1 : BitVec 32) ++ List.replicate 76 0)).length =
        prRegOffset := by
    simp [prRegOffset]
  rw [regsOfPrstatus, prstatus, ← hlength, List.drop_left, takeRegs_append]
  rfl

theorem length_prstatus (r : Aarch64Regs) :
    (prstatus r).length = sizeofPrstatus := by
  simp [prstatus, length_regs, sizeofPrstatus]

theorem length_prpsinfo : prpsinfo.length = sizeofPrpsinfo := by
  simp [prpsinfo, length_strncpy, sizeofPrpsinfo]

/-! ## Notes -/

/-- A note with a descriptor of a multiple of four bytes needs no padding behind
it and is read back. -/
theorem takeNote_writeNote
    {name desc : List UInt8} {type : BitVec 32}
    (hname : name.length + 1 < 2 ^ 32) (hdesc : desc.length < 2 ^ 32)
    (hmul : desc.length % 4 = 0) (rest : List UInt8) :
    takeNote (writeNote name type desc ++ rest) =
      some ({ name := name ++ [0], type := type, desc := desc }, rest) := by
  have hnamesz : (BitVec.ofNat 32 (name ++ [0]).length).toNat =
      (name ++ [0]).length := by
    rw [BitVec.toNat_ofNat, Nat.mod_eq_of_lt]
    simpa using hname
  have hdescsz : (BitVec.ofNat 32 desc.length).toNat = desc.length := by
    rw [BitVec.toNat_ofNat, Nat.mod_eq_of_lt hdesc]
  have hpadding : (makePadding 4 (name ++ [0]).length).length =
      notePadding (name ++ [0]).length := by
    simp only [makePadding, notePadding, List.length_replicate]
    split_ifs <;> omega
  have hnone : notePadding desc.length = 0 := by
    simp [notePadding, hmul]
  simp only [takeNote, writeNote, List.append_assoc, takeWord_word,
    Option.bind_eq_bind, Option.bind_some, hnamesz, hdescsz, hnone]
  rw [← List.append_assoc name, takeBytes_append, Option.bind_some,
    takeBytes_append_of_length hpadding, Option.bind_some, takeBytes_append,
    Option.bind_some]
  simp [takeBytes]

/-- The length of a note with the name `"CORE"`. -/
theorem length_writeNote (type : BitVec 32) (desc : List UInt8) :
    (writeNote noteName type desc).length = sizeofNhdr + 8 + desc.length := by
  simp [writeNote, makePadding, noteName, sizeofNhdr]
  omega

/-- The notes that a dump should hold. -/
def dumpedNotes (regs : Aarch64Regs) (fpregs : Aarch64FpRegs)
    (fpPadding : Fin 8 → UInt8) : List Note :=
  [{ name := noteName ++ [0], type := ntPrpsinfo, desc := prpsinfo },
    { name := noteName ++ [0], type := ntPrstatus, desc := prstatus regs },
    { name := noteName ++ [0], type := ntFpregset
      desc := fpregs.bytes fpPadding }]

/-- The note section. -/
def noteSection (regs : Aarch64Regs) (fpregs : Aarch64FpRegs)
    (fpPadding : Fin 8 → UInt8) : List UInt8 :=
  (dumpedNotes regs fpregs fpPadding).flatMap fun note =>
    writeNote noteName note.type note.desc

section NoteSection

variable (regs : Aarch64Regs) (fpregs : Aarch64FpRegs)
  (fpPadding : Fin 8 → UInt8)

theorem length_noteSection :
    (noteSection regs fpregs fpPadding).length = notesSize := by
  simp only [noteSection, dumpedNotes, List.flatMap_cons, List.flatMap_nil,
    List.length_append, length_writeNote, length_prpsinfo, length_prstatus,
    length_fpRegs]
  rfl

/-- No descriptor needs padding behind it. -/
theorem dumpedNotes_desc :
    ∀ note ∈ dumpedNotes regs fpregs fpPadding,
      note.name = noteName ++ [0] ∧ note.desc.length < 2 ^ 32 ∧
        note.desc.length % 4 = 0 := by
  have hinfo := length_prpsinfo
  have hstatus := length_prstatus regs
  have hfp := length_fpRegs fpregs fpPadding
  simp only [dumpedNotes, List.forall_mem_cons, List.not_mem_nil,
    false_implies, implies_true, and_true]
  rw [hinfo, hstatus, hfp]
  decide

theorem readNotes_noteSection :
    readNotes (noteSection regs fpregs fpPadding) =
      some (dumpedNotes regs fpregs fpPadding) := by
  apply readNotes_flatMap
  · intro note hnote rest
    obtain ⟨hname, hdesc, hmul⟩ :=
      dumpedNotes_desc regs fpregs fpPadding note hnote
    have htake : takeNote (writeNote noteName note.type note.desc ++ rest) = _ :=
      takeNote_writeNote (by decide) hdesc hmul rest
    rw [htake, ← hname]
  · intro note _ hnil
    have hlength := length_writeNote note.type note.desc
    rw [hnil, List.length_nil, sizeofNhdr] at hlength
    omega

end NoteSection

/-! ## Segments -/

theorem toNat_ofNat_64 {n : ℕ} (h : n < 2 ^ 64) :
    (BitVec.ofNat 64 n).toNat = n := by
  rw [BitVec.toNat_ofNat, Nat.mod_eq_of_lt h]

theorem totalSize_cons (seg : SegmentData) (segments : List SegmentData) :
    totalSize (seg :: segments) = seg.size + totalSize segments := by
  simp [totalSize]

theorem length_flatMap_bytes (segments : List SegmentData) :
    (segments.flatMap SegmentData.bytes).length = totalSize segments := by
  induction segments with
  | nil => rfl
  | cons seg segments ih =>
      rw [List.flatMap_cons, List.length_append, ih, totalSize_cons,
        SegmentData.size]

/-- Each program header of the loop finds the bytes of its segment in a file
that goes on with the segments. -/
theorem loadHeaders_shows
    {before : List UInt8} {offset filesz : ℕ} {segments : List SegmentData}
    (hoffset : offset + filesz = before.length)
    (hbound : before.length + totalSize segments < 2 ^ 64) :
    List.Forall₂
      (ShowsSegment (before ++ segments.flatMap SegmentData.bytes))
      segments (loadHeaders offset filesz segments) := by
  induction segments generalizing before offset filesz with
  | nil => exact .nil
  | cons seg segments ih =>
      rw [totalSize_cons] at hbound
      have hsize : (BitVec.ofNat 64 seg.size).toNat = seg.size :=
        toNat_ofNat_64 (by omega)
      have hstart : (BitVec.ofNat 64 (offset + filesz)).toNat =
          before.length := by
        rw [hoffset]
        exact toNat_ofNat_64 (by omega)
      refine .cons ⟨rfl, rfl, hsize, hsize, ?_⟩ ?_
      · rw [ProgramHeader.contents, hstart, hsize, List.flatMap_cons]
        exact slice_append_append before seg.bytes _
      · have hlength : offset + filesz + seg.size =
            (before ++ seg.bytes).length := by
          rw [List.length_append, hoffset, SegmentData.size]
        have hrest := ih hlength (by
          rw [← hlength, hoffset]
          omega)
        rw [List.append_assoc, ← List.flatMap_cons] at hrest
        exact hrest

/-- The ranges of the program headers start at `start` and follow one
another. -/
theorem loadHeaders_laidOut
    {start offset filesz : ℕ} {segments : List SegmentData}
    (hoffset : offset + filesz = start)
    (hbound : start + totalSize segments < 2 ^ 64) :
    (∀ load ∈ loadHeaders offset filesz segments,
        start ≤ load.offset.toNat) ∧
      (loadHeaders offset filesz segments).Pairwise
        (fun a b => a.fileEnd ≤ b.offset.toNat) ∧
      ∀ load ∈ (loadHeaders offset filesz segments).getLast?,
        load.fileEnd = start + totalSize segments := by
  induction segments generalizing start offset filesz with
  | nil => exact ⟨nofun, .nil, nofun⟩
  | cons seg segments ih =>
      rw [totalSize_cons] at hbound
      have hsize : (BitVec.ofNat 64 seg.size).toNat = seg.size :=
        toNat_ofNat_64 (by omega)
      have hstart : (BitVec.ofNat 64 (offset + filesz)).toNat = start := by
        rw [hoffset]
        exact toNat_ofNat_64 (by omega)
      have hnext : offset + filesz + seg.size = start + seg.size := by
        rw [hoffset]
      obtain ⟨hmin, hpairwise, hlast⟩ := ih hnext (by omega)
      refine ⟨?_, ?_, ?_⟩
      · intro load hload
        rcases List.mem_cons.mp hload with rfl | hload
        · exact Nat.le_of_eq hstart.symm
        · have hle := hmin load hload
          omega
      · refine .cons ?_ hpairwise
        intro load hload
        have hle := hmin load hload
        simp only [ProgramHeader.fileEnd, hstart, hsize]
        exact hle
      · intro load hload
        rw [loadHeaders, List.getLast?_cons, Option.mem_some_iff] at hload
        subst hload
        rw [totalSize_cons]
        cases segments with
        | nil =>
            simp only [loadHeaders, List.getLast?_nil, Option.getD_none,
              ProgramHeader.fileEnd, hstart, hsize]
            rfl
        | cons seg' segments =>
            have hsome : ∃ load, (loadHeaders (offset + filesz) seg.size
                (seg' :: segments)).getLast? = some load :=
              ⟨_, List.getLast?_cons⟩
            obtain ⟨load, hload⟩ := hsome
            rw [hload, Option.getD_some, hlast load hload, Nat.add_assoc]

theorem loadHeaders_aligned
    {offset filesz : ℕ} {segments : List SegmentData}
    (hoffset : pageSize ∣ offset + filesz)
    (hsizes : ∀ seg ∈ segments, pageSize ∣ seg.size) :
    ∀ load ∈ loadHeaders offset filesz segments,
      pageSize ∣ load.offset.toNat := by
  induction segments generalizing offset filesz with
  | nil => exact nofun
  | cons seg segments ih =>
      intro load hload
      rcases List.mem_cons.mp hload with rfl | hload
      · have hmod : (BitVec.ofNat 64 (offset + filesz)).toNat =
            (offset + filesz) % 2 ^ 64 := BitVec.toNat_ofNat ..
        have hpage : pageSize ∣ 2 ^ 64 := by decide
        rw [hmod]
        exact (Nat.dvd_mod_iff hpage).mpr hoffset
      · exact ih (Nat.dvd_add hoffset (hsizes seg List.mem_cons_self))
          (fun s hs => hsizes s (List.mem_cons_of_mem _ hs)) load hload

/-! ## The whole file -/

section File

variable (segments : List SegmentData) (regs : Aarch64Regs)
  (fpregs : Aarch64FpRegs) (fpPadding : Fin 8 → UInt8)

/-- The offset of the note section. -/
def notesOffset (segments : List SegmentData) : ℕ :=
  sizeofEhdr + (segments.length + 1) * sizeofPhdr

/-- The program headers of a dump. -/
def dumpHeaders (segments : List SegmentData) : List ProgramHeader :=
  noteHeader (notesOffset segments) notesSize ::
    loadHeaders (notesOffset segments +
      noteAlign (notesOffset segments) notesSize) notesSize segments

/-- Everything in front of the notes. -/
def dumpHead (segments : List SegmentData) : List UInt8 :=
  (coreHeader (segments.length + 1)).bytes ++
    (dumpHeaders segments).flatMap ProgramHeader.bytes

/-- Everything in front of the segments. -/
def dumpPreamble : List UInt8 :=
  dumpHead segments ++ (noteSection regs fpregs fpPadding ++
    List.replicate (noteAlign (notesOffset segments) notesSize) 0)

theorem length_loadHeaders (offset filesz : ℕ) :
    (loadHeaders offset filesz segments).length = segments.length := by
  induction segments generalizing offset filesz with
  | nil => rfl
  | cons seg segments ih => rw [loadHeaders, List.length_cons, ih,
      List.length_cons]

theorem length_dumpHead :
    (dumpHead segments).length = notesOffset segments := by
  have hheaders := length_flatMap_of_const length_programHeader
    (dumpHeaders segments)
  rw [dumpHeaders, List.length_cons, length_loadHeaders] at hheaders
  rw [dumpHead, List.length_append, length_fileHeader, dumpHeaders, hheaders,
    notesOffset, sizeofEhdr, sizeofPhdr, Nat.mul_comm]

theorem length_dumpPreamble :
    (dumpPreamble segments regs fpregs fpPadding).length =
      notesOffset segments + noteAlign (notesOffset segments) notesSize +
        notesSize := by
  simp only [dumpPreamble, List.length_append, length_dumpHead,
    length_noteSection, List.length_replicate]
  omega

/-- The gap behind the notes reaches up to the next page boundary. -/
theorem noteAlign_cases (offset filesz : ℕ) :
    noteAlign offset filesz = 0 ∧ (offset + filesz) % pageSize = 0 ∨
      noteAlign offset filesz + (offset + filesz) % pageSize = pageSize ∧
        (offset + filesz) % pageSize ≠ 0 := by
  have hlt : (offset + filesz) % pageSize < pageSize :=
    Nat.mod_lt _ (by decide)
  unfold noteAlign
  by_cases hfull : pageSize - (offset + filesz) % pageSize = pageSize
  · left
    refine ⟨if_pos hfull, ?_⟩
    omega
  · right
    simp only [if_neg hfull]
    omega

/-- The first segment starts at a page boundary. -/
theorem pageSize_dvd_preamble (offset filesz : ℕ) :
    pageSize ∣ offset + noteAlign offset filesz + filesz := by
  have hcases := noteAlign_cases offset filesz
  simp only [pageSize] at hcases ⊢
  omega

theorem noteAlign_lt (offset filesz : ℕ) :
    noteAlign offset filesz < pageSize := by
  have hcases := noteAlign_cases offset filesz
  simp only [pageSize] at hcases ⊢
  omega

theorem phnum_coreHeader {segments : List SegmentData}
    (hcount : segments.length < 65534) :
    (coreHeader (segments.length + 1)).phnum.toNat = segments.length + 1 := by
  rw [coreHeader, BitVec.toNat_ofNat]
  exact Nat.mod_eq_of_lt (by omega)

/-- The file consists of the preamble and the segments. -/
theorem writeCoreDump_eq (hcount : segments.length < 65534) :
    writeCoreDump segments regs fpregs fpPadding =
      dumpPreamble segments regs fpregs fpPadding ++
        segments.flatMap SegmentData.bytes := by
  have hphnum := phnum_coreHeader hcount
  simp only [writeCoreDump, hphnum, dumpPreamble, dumpHead, dumpHeaders,
    noteSection, dumpedNotes, notesOffset, List.flatMap_cons, List.flatMap_nil,
    List.append_nil, List.append_assoc]

end File

/-- Everything that is dumped is found in the file by a reader of core files.  If
there is a segment, the last one ends the file; for an empty list that is the
padding behind the notes. -/
theorem coreDump_decodes
    (segments : List SegmentData) (regs : Aarch64Regs)
    (fpregs : Aarch64FpRegs) (fpPadding : Fin 8 → UInt8)
    (hcount : segments.length < 65534) (hsize : totalSize segments < 2 ^ 63) :
    Decodes (writeCoreDump segments regs fpregs fpPadding) segments regs
      fpregs := by
  have hphnum := phnum_coreHeader hcount
  have hfile := writeCoreDump_eq segments regs fpregs fpPadding hcount
  have hpreamble := length_dumpPreamble segments regs fpregs fpPadding
  have halign := noteAlign_lt (notesOffset segments) notesSize
  have hnotesOffset : notesOffset segments < 2 ^ 32 := by
    simp only [notesOffset, sizeofEhdr, sizeofPhdr]
    omega
  have hnotesSize : notesSize < 2 ^ 32 := by decide
  have hbound : notesOffset segments +
      noteAlign (notesOffset segments) notesSize + notesSize +
        totalSize segments < 2 ^ 64 := by
    simp only [pageSize] at halign
    omega
  have hoffset : (noteHeader (notesOffset segments) notesSize).offset.toNat =
      notesOffset segments := toNat_ofNat_64 (by omega)
  have hfilesz : (noteHeader (notesOffset segments) notesSize).filesz.toNat =
      notesSize := toNat_ofNat_64 (by omega)
  refine ⟨{ header := coreHeader (segments.length + 1)
            programHeaders := dumpHeaders segments }, _, _, ?_, hphnum, rfl,
    ?_, ?_, ?_⟩
  · -- the headers are where the file header says
    rw [hfile, dumpPreamble, dumpHead, List.append_assoc, List.append_assoc]
    refine readCore_eq rfl rfl rfl rfl ?_
    rw [hphnum, dumpHeaders, List.length_cons, length_loadHeaders]
  · -- the notes start behind the headers
    refine ⟨rfl, noteSection regs fpregs fpPadding, prpsinfo, prstatus regs,
      fpregs.bytes fpPadding, ?_, readNotes_noteSection regs fpregs fpPadding,
      length_prpsinfo, length_prstatus regs, length_fpRegs fpregs fpPadding,
      regsOfPrstatus_prstatus regs, fpRegsOfFpregset_bytes fpregs fpPadding⟩
    have hlength := length_noteSection regs fpregs fpPadding
    rw [ProgramHeader.contents, hoffset, hfilesz, hfile, dumpPreamble,
      List.append_assoc, List.append_assoc, ← length_dumpHead, ← hlength]
    exact slice_append_append _ _ _
  · -- each segment starts behind the one before
    rw [hfile]
    refine loadHeaders_shows hpreamble.symm ?_
    rw [hpreamble]
    exact hbound
  · have hstart : notesOffset segments +
        noteAlign (notesOffset segments) notesSize + notesSize =
          notesOffset segments + noteAlign (notesOffset segments) notesSize +
            notesSize := rfl
    obtain ⟨hmin, hpairwise, hlast⟩ := loadHeaders_laidOut hstart hbound
    refine ⟨.cons ?_ hpairwise, ?_, ?_, ?_⟩
    · intro load hload
      have hle := hmin load hload
      rw [ProgramHeader.fileEnd, hoffset, hfilesz]
      omega
    · intro load hload
      rw [hlast load hload, hfile, List.length_append, hpreamble,
        length_flatMap_bytes]
    · intro load hload
      cases segments with
      | nil => cases hload
      | cons seg segments =>
          rw [loadHeaders, List.head?_cons, Option.mem_some_iff] at hload
          subst hload
          change pageSize ∣ (BitVec.ofNat 64 _).toNat
          rw [toNat_ofNat_64 (by omega)]
          exact pageSize_dvd_preamble _ _
    · intro hsizes
      exact loadHeaders_aligned (pageSize_dvd_preamble _ _) hsizes

/-- Two segments, the first one not a page long. -/
def twoSegments : List SegmentData :=
  [{ startAddress := 0x800100000, bytes := [1, 2, 3] },
    { startAddress := 0x800200000, bytes := [4] }]

theorem coreDump_decodes_twoSegments :
    Decodes
      (writeCoreDump twoSegments IpcBlock.zero.executorToManager.regs
        IpcBlock.zero.executorToManager.fpregs fun _ => 0)
      twoSegments IpcBlock.zero.executorToManager.regs
      IpcBlock.zero.executorToManager.fpregs :=
  coreDump_decodes twoSegments IpcBlock.zero.executorToManager.regs
    IpcBlock.zero.executorToManager.fpregs (fun _ => 0) (by decide) (by decide)

end Bmboot
