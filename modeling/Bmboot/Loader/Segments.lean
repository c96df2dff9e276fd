import Bmboot.Loader.ElfPayload
import Bmboot.Lib.Elf64

/-!
# Loading the segments of an ELF file

For each loadable segment the `elfload` library asks for a place in the payload
area and for the segment's part of the file.  Here it is any library that does
so and reports an error only if a callback has failed; the question is whether
the callbacks of `loadElfPayload` serve it for every file that fits.
-/

namespace Bmboot

/-! ## The library -/

def allocRequest (p : Elf64.ProgramHeader) : ElfRequest :=
  .alloc p.paddr p.vaddr p.memsz

def preadRequest (p : Elf64.ProgramHeader) : ElfRequest :=
  .pread p.filesz p.offset

/-- The callback has not failed. -/
def ElfRequest.accepted : (q : ElfRequest) → q.Answer → Bool
  | .pread _ _, answer => answer.isSome
  | .alloc _ _ _, answer => answer.isSome

/-- Where the bytes of a segment go, and the bytes, if both callbacks accept. -/
def delivery (answer : ∀ q : ElfRequest, q.Answer) (p : Elf64.ProgramHeader) :
    Option (BitVec 64 × List UInt8) :=
  match (answer (allocRequest p) : Option (BitVec 64)),
    (answer (preadRequest p) : Option (List UInt8)) with
  | some position, some bytes => some (position, bytes)
  | _, _ => none

/-- A library with the loadable segments that `el_init` has found and the bytes
that `el_load` has delivered.  `el_load` asks only for the segments, reports an
error only if a callback has failed, and otherwise has delivered them all. -/
structure SegmentLoader (κ : Type) extends Elfload κ where
  segments : κ → List Elf64.ProgramHeader
  delivered : κ → List (BitVec 64 × List UInt8)
  asks : ∀ (answer : ∀ q : ElfRequest, q.Answer) (ctx : κ),
    ∀ q ∈ (elLoad ctx).asked answer,
      ∃ p ∈ segments ctx, q = allocRequest p ∨ q = preadRequest p
  fails : ∀ (answer : ∀ q : ElfRequest, q.Answer) (ctx : κ),
    ((elLoad ctx).value answer).1 = true →
      ∃ q ∈ (elLoad ctx).asked answer, q.accepted (answer q) = false
  loads : ∀ (answer : ∀ q : ElfRequest, q.Answer) (ctx : κ),
    ((elLoad ctx).value answer).1 = false →
      (delivered ((elLoad ctx).value answer).2).map some =
        (segments ctx).map (delivery answer)

theorem preadAccepted_of_delivery
    {answer : ∀ q : ElfRequest, q.Answer} {p : Elf64.ProgramHeader}
    {pair : BitVec 64 × List UInt8} (h : delivery answer p = some pair) :
    (preadRequest p).accepted (answer (preadRequest p)) = true := by
  rw [delivery] at h
  split at h
  next hpread => exact congrArg Option.isSome hpread
  · cases h

variable {κ : Type}

/-- The loadable segments of the file. -/
def SegmentLoader.found (lib : SegmentLoader κ) (call : ElfCall) :
    List Elf64.ProgramHeader :=
  lib.segments (lib.elInit.value call.answer).2

/-- A call in which every segment lies inside the file and inside the payload
area. -/
structure FittingCall (lib : SegmentLoader κ) extends ElfCall where
  ready : toElfCall.Ready
  inFile : ∀ p ∈ lib.found toElfCall, p.fileEnd ≤ binary.size.toNat
  inArea : ∀ p ∈ lib.found toElfCall,
    (payloadAddress domain).toNat ≤ p.paddr.toNat ∧
      p.paddr.toNat + p.memsz.toNat ≤
        (payloadAddress domain).toNat + payloadAreaSize

/-- The bytes of the file. -/
def ElfCall.file (call : ElfCall) : List UInt8 :=
  readBytes call.mem call.binary.data call.binary.size.toNat

/-- The callbacks accept every request of `el_load`, the call succeeds, and the
bytes of every segment are delivered to its place in the payload area. -/
structure LoadsSegments (lib : SegmentLoader κ) (call : ElfCall) : Prop where
  accepted : ∀ q ∈ (lib.elLoad (lib.elInit.value call.answer).2).asked
    call.answer, q.accepted (call.answer q) = true
  succeeds : ∃ args,
    (loadElfPayload lib.toElfload call).value call.answer = .ok args
  delivers : (lib.delivered (lib.loaded call).2).map some =
    (lib.found call).map fun p =>
      (p.contents call.file).map (p.paddr - payloadAddress call.domain, ·)

/-! ## The callbacks on a segment -/

theorem slice_readBytes (mem : BitVec 64 → UInt8) (data : BitVec 64)
    {size offset n : ℕ} (h : offset + n ≤ size) :
    ByteCodec.slice (readBytes mem data size) offset n =
      some (readBytes mem (data + BitVec.ofNat 64 offset) n) := by
  have hlength : (readBytes mem data size).length = size := by
    simp [readBytes]
  rw [ByteCodec.slice, hlength, if_pos h]
  apply congrArg some
  apply List.ext_getElem
  · simp only [readBytes, List.length_take, List.length_drop, List.length_map,
      List.length_range]
    omega
  · intro i hi _
    simp only [readBytes, List.getElem_take, List.getElem_drop,
      List.getElem_map, List.getElem_range, BitVec.ofNat_add,
      BitVec.add_assoc]

section Callbacks

variable {call : ElfCall} {p : Elf64.ProgramHeader}

/-- `pread` delivers the contents of a segment that ends before the last byte of
the file. -/
theorem elfPread_of_fileEnd_lt (h : p.fileEnd < call.binary.size.toNat) :
    elfPread call.mem call.binary p.filesz p.offset =
      p.contents call.file := by
  have hsize := call.binary.size.isLt
  rw [Elf64.ProgramHeader.fileEnd] at h
  have haccepted : p.offset + p.filesz < call.binary.size := by
    rw [BitVec.lt_def, BitVec.toNat_add, Nat.mod_eq_of_lt (by omega)]
    exact h
  rw [elfPread, if_pos haccepted, Elf64.ProgramHeader.contents, ElfCall.file,
    slice_readBytes _ _ (by omega), BitVec.ofNat_toNat, BitVec.setWidth_eq]

theorem fileEnd_lt_of_elfPread (hfile : p.fileEnd ≤ call.binary.size.toNat)
    (h : (elfPread call.mem call.binary p.filesz p.offset).isSome = true) :
    p.fileEnd < call.binary.size.toNat := by
  have hsize := call.binary.size.isLt
  have hlt := (isSome_elfPread _ _ _ _).mp h
  rw [Elf64.ProgramHeader.fileEnd] at hfile ⊢
  rwa [Nat.mod_eq_of_lt (by omega)] at hlt

/-- A segment inside the payload area gets its place in it, up to and including
the last byte. -/
theorem elfAlloc_of_inArea (cpu : DomainIndex)
    (h : (payloadAddress cpu).toNat ≤ p.paddr.toNat ∧
      p.paddr.toNat + p.memsz.toNat ≤
        (payloadAddress cpu).toNat + payloadAreaSize) :
    elfAlloc cpu p.paddr p.memsz = some (p.paddr - payloadAddress cpu) := by
  have harea := toNat_payloadArea_lt cpu
  have hsum : (p.paddr + p.memsz).toNat = p.paddr.toNat + p.memsz.toNat := by
    rw [BitVec.toNat_add, Nat.mod_eq_of_lt (by omega)]
  rw [elfAlloc, if_neg]
  rw [gt_iff_lt, BitVec.lt_def, BitVec.lt_def, toNat_payloadArea, hsum]
  omega

end Callbacks

section Load

variable (lib : SegmentLoader κ) (call : FittingCall lib)

/-- Where no segment reaches the end of the file, both callbacks serve every
segment. -/
theorem delivery_eq_of_fileEnd_lt {p : Elf64.ProgramHeader}
    (hp : p ∈ lib.found call.toElfCall)
    (h : p.fileEnd < call.binary.size.toNat) :
    delivery call.answer p = (p.contents call.file).map
      (p.paddr - payloadAddress call.domain, ·) := by
  have halloc : call.answer (allocRequest p) =
      some (p.paddr - payloadAddress call.domain) :=
    elfAlloc_of_inArea call.domain (call.inArea p hp)
  have hpread : call.answer (preadRequest p) = p.contents call.file :=
    elfPread_of_fileEnd_lt h
  simp only [delivery, halloc, hpread]
  cases p.contents call.file with
  | none => rfl
  | some bytes => rfl

theorem accepted_of_fileEnd_lt {p : Elf64.ProgramHeader}
    (hp : p ∈ lib.found call.toElfCall)
    (h : p.fileEnd < call.binary.size.toNat) {q : ElfRequest}
    (hq : q = allocRequest p ∨ q = preadRequest p) :
    q.accepted (call.answer q) = true := by
  rcases hq with rfl | rfl
  · have halloc := elfAlloc_of_inArea call.domain (call.inArea p hp)
    exact congrArg Option.isSome halloc
  · have hsize := call.binary.size.isLt
    apply (isSome_elfPread _ _ _ _).mpr
    rw [Elf64.ProgramHeader.fileEnd] at h
    rwa [Nat.mod_eq_of_lt (by omega)]

/-- A call that succeeds has got the bytes of every segment. -/
theorem fileEnd_lt_of_succeeds {p : Elf64.ProgramHeader}
    (hsucceeds : ∃ args, (loadElfPayload lib.toElfload call.toElfCall).value
      call.answer = .ok args)
    (hp : p ∈ lib.found call.toElfCall) :
    p.fileEnd < call.binary.size.toNat := by
  have hok : (lib.loaded call.toElfCall).1 = false := by
    obtain ⟨args, hargs⟩ := hsucceeds
    rw [loadElfPayload_of_ready lib.toElfload _ call.ready] at hargs
    split at hargs
    · cases hargs
    next herror => exact Bool.not_eq_true _ ▸ herror
  have hdelivered : delivery call.answer p ∈
      (lib.delivered (lib.loaded call.toElfCall).2).map some := by
    have hall := lib.loads call.answer _ hok
    exact hall ▸ List.mem_map_of_mem hp
  obtain ⟨pair, -, hpair⟩ := List.mem_map.mp hdelivered
  exact fileEnd_lt_of_elfPread (call.inFile p hp)
    (preadAccepted_of_delivery hpair.symm)

end Load

/-- The call loads every segment exactly when each of them ends before the last
byte of the file. -/
theorem loadsSegments_iff_fileEnd_lt (lib : SegmentLoader κ)
    (call : FittingCall lib) :
    LoadsSegments lib call.toElfCall ↔
      ∀ p ∈ lib.found call.toElfCall, p.fileEnd < call.binary.size.toNat := by
  constructor
  · intro hloads p hp
    exact fileEnd_lt_of_succeeds lib call hloads.succeeds hp
  · intro hends
    have haccepted : ∀ q ∈ (lib.elLoad
        (lib.elInit.value call.answer).2).asked call.answer,
        q.accepted (call.answer q) = true := by
      intro q hq
      obtain ⟨p, hp, hrequest⟩ := lib.asks _ _ q hq
      exact accepted_of_fileEnd_lt lib call hp (hends p hp) hrequest
    have hok : (lib.loaded call.toElfCall).1 = false := by
      rw [← Bool.not_eq_true]
      intro herror
      obtain ⟨q, hq, hrefused⟩ := lib.fails _ _ herror
      rw [haccepted q hq] at hrefused
      cases hrefused
    refine ⟨haccepted, ?_, ?_⟩
    · rw [loadElfPayload_of_ready lib.toElfload _ call.ready, hok]
      exact ⟨_, rfl⟩
    · refine (lib.loads _ _ hok).trans ?_
      apply List.map_congr_left
      intro p hp
      exact delivery_eq_of_fileEnd_lt lib call hp (hends p hp)

/-! ## A file that ends with its last segment -/

/-- Ask for the place of a segment, then for its bytes. -/
def oneSegment (p : Elf64.ProgramHeader) :
    Client ElfRequest ElfRequest.Answer (Option (BitVec 64 × List UInt8)) :=
  .ask (.alloc p.paddr p.vaddr p.memsz) fun
    | none => .ret none
    | some position => .ask (.pread p.filesz p.offset) fun
      | none => .ret none
      | some bytes => .ret (some (position, bytes))

/-- Load one segment after the other, up to a failure. -/
def eachSegment (done : List (BitVec 64 × List UInt8)) :
    List Elf64.ProgramHeader → Client ElfRequest ElfRequest.Answer
      (Bool × List (BitVec 64 × List UInt8))
  | [] => .ret (false, done)
  | p :: rest => (oneSegment p).bind fun
    | none => .ret (true, done)
    | some pair => eachSegment (done ++ [pair]) rest

section EachSegment

variable (answer : ∀ q : ElfRequest, q.Answer)

theorem value_oneSegment (p : Elf64.ProgramHeader) :
    (oneSegment p).value answer = delivery answer p := by
  cases halloc : (answer (.alloc p.paddr p.vaddr p.memsz) :
      Option (BitVec 64)) with
  | none =>
      simp only [oneSegment, Client.value, delivery, allocRequest, halloc]
  | some position =>
      cases hpread : (answer (.pread p.filesz p.offset) :
          Option (List UInt8)) with
      | none =>
          simp only [oneSegment, Client.value, delivery, allocRequest,
            preadRequest, halloc, hpread]
      | some bytes =>
          simp only [oneSegment, Client.value, delivery, allocRequest,
            preadRequest, halloc, hpread]

/-- The bytes are asked for if there is a place for them. -/
theorem asked_oneSegment (p : Elf64.ProgramHeader) :
    (oneSegment p).asked answer = allocRequest p ::
      if (allocRequest p).accepted (answer (allocRequest p)) then
        [preadRequest p]
      else [] := by
  cases halloc : (answer (.alloc p.paddr p.vaddr p.memsz) :
      Option (BitVec 64)) with
  | none =>
      simp [oneSegment, Client.asked, ElfRequest.accepted, allocRequest, halloc]
  | some position =>
      cases hpread : (answer (.pread p.filesz p.offset) :
          Option (List UInt8)) with
      | none =>
          simp [oneSegment, Client.asked, ElfRequest.accepted, allocRequest,
            preadRequest, halloc, hpread]
      | some bytes =>
          simp [oneSegment, Client.asked, ElfRequest.accepted, allocRequest,
            preadRequest, halloc, hpread]

theorem mem_asked_oneSegment {p : Elf64.ProgramHeader} {q : ElfRequest}
    (h : q ∈ (oneSegment p).asked answer) :
    q = allocRequest p ∨ q = preadRequest p := by
  rw [asked_oneSegment] at h
  rcases List.mem_cons.mp h with halloc | hpread
  · exact .inl halloc
  · split at hpread
    · exact .inr (List.mem_singleton.mp hpread)
    · cases hpread

/-- Where a segment is not delivered, one of its requests has failed. -/
theorem exists_refused_of_delivery_none {p : Elf64.ProgramHeader}
    (h : delivery answer p = none) :
    ∃ q ∈ (oneSegment p).asked answer, q.accepted (answer q) = false := by
  rw [asked_oneSegment]
  cases halloc : (allocRequest p).accepted (answer (allocRequest p)) with
  | false => exact ⟨_, List.mem_cons_self, halloc⟩
  | true =>
      cases hpread : (preadRequest p).accepted (answer (preadRequest p)) with
      | false => exact ⟨_, List.mem_cons_of_mem _ List.mem_cons_self, hpread⟩
      | true =>
          obtain ⟨position, hposition⟩ := Option.isSome_iff_exists.mp halloc
          obtain ⟨bytes, hbytes⟩ := Option.isSome_iff_exists.mp hpread
          simp only [delivery, hposition, hbytes] at h
          cases h

theorem asks_eachSegment (ps : List Elf64.ProgramHeader) :
    ∀ done, ∀ q ∈ (eachSegment done ps).asked answer,
      ∃ p ∈ ps, q = allocRequest p ∨ q = preadRequest p := by
  induction ps with
  | nil => nofun
  | cons p rest ih =>
      intro done q hq
      rw [eachSegment, Client.asked_bind, value_oneSegment] at hq
      rcases List.mem_append.mp hq with hfirst | hrest
      · exact ⟨p, List.mem_cons_self, mem_asked_oneSegment answer hfirst⟩
      · cases hdelivery : delivery answer p with
        | none =>
            rw [hdelivery] at hrest
            cases hrest
        | some pair =>
            rw [hdelivery] at hrest
            obtain ⟨p', hp', hrequest⟩ := ih _ q hrest
            exact ⟨p', List.mem_cons_of_mem p hp', hrequest⟩

theorem fails_eachSegment (ps : List Elf64.ProgramHeader) :
    ∀ done, ((eachSegment done ps).value answer).1 = true →
      ∃ q ∈ (eachSegment done ps).asked answer,
        q.accepted (answer q) = false := by
  induction ps with
  | nil => nofun
  | cons p rest ih =>
      intro done herror
      rw [eachSegment, Client.value_bind, value_oneSegment] at herror
      rw [eachSegment, Client.asked_bind, value_oneSegment]
      cases hdelivery : delivery answer p with
      | none =>
          obtain ⟨q, hq, hrefused⟩ :=
            exists_refused_of_delivery_none answer hdelivery
          exact ⟨q, List.mem_append_left _ hq, hrefused⟩
      | some pair =>
          rw [hdelivery] at herror
          obtain ⟨q, hq, hrefused⟩ := ih _ herror
          exact ⟨q, List.mem_append_right _ hq, hrefused⟩

theorem loads_eachSegment (ps : List Elf64.ProgramHeader) :
    ∀ done, ((eachSegment done ps).value answer).1 = false →
      ((eachSegment done ps).value answer).2.map some =
        done.map some ++ ps.map (delivery answer) := by
  induction ps with
  | nil =>
      intro done _
      exact (List.append_nil _).symm
  | cons p rest ih =>
      intro done hok
      rw [eachSegment, Client.value_bind, value_oneSegment] at hok ⊢
      cases hdelivery : delivery answer p with
      | none =>
          rw [hdelivery] at hok
          cases hok
      | some pair =>
          rw [hdelivery] at hok
          rw [List.map_cons, hdelivery]
          refine (ih _ hok).trans ?_
          rw [List.map_append, List.append_assoc]
          rfl

end EachSegment

/-- What a library keeps of a file. -/
structure SegmentContext where
  entry : BitVec 64
  segments : List Elf64.ProgramHeader
  delivered : List (BitVec 64 × List UInt8)

/-- The file header, then the program headers. -/
def readSegments :
    Client ElfRequest ElfRequest.Answer (Bool × SegmentContext) :=
  let failed := { entry := 0, segments := [], delivered := [] }
  .ask (.pread 64 0) fun
    | none => .ret (true, failed)
    | some bytes =>
      match Elf64.takeFileHeader bytes with
      | none => .ret (true, failed)
      | some (header, _) =>
        .ask (.pread (header.phentsize.zeroExtend 64 *
          header.phnum.zeroExtend 64) header.phoff) fun
          | none => .ret (true, failed)
          | some table =>
            match ByteCodec.takeMany Elf64.takeProgramHeader
              header.phnum.toNat table with
            | none => .ret (true, failed)
            | some (ps, _) =>
              .ret (false,
                { entry := header.entry
                  segments := ps.filter (·.type = Elf64.ptLoad)
                  delivered := [] })

/-- A library that reads the headers, and loads one segment after the other. -/
def plainLoader : SegmentLoader SegmentContext where
  elInit := readSegments
  elLoad ctx := (eachSegment [] ctx.segments).bind fun (err, done) =>
    .ret (err, { ctx with delivered := done })
  eEntry := SegmentContext.entry
  baseLoadPaddr _ := 0
  segments := SegmentContext.segments
  delivered := SegmentContext.delivered
  asks answer ctx q hq := by
    rw [Client.asked_bind] at hq
    rcases List.mem_append.mp hq with hsegment | hnothing
    · exact asks_eachSegment answer ctx.segments [] q hsegment
    · cases hnothing
  fails answer ctx herror := by
    rw [Client.value_bind] at herror
    rw [Client.asked_bind]
    obtain ⟨q, hq, hrefused⟩ := fails_eachSegment answer ctx.segments [] herror
    exact ⟨q, List.mem_append_left _ hq, hrefused⟩
  loads answer ctx hok := by
    rw [Client.value_bind] at hok ⊢
    exact loads_eachSegment answer ctx.segments [] hok

/-- One segment, of the last 4 bytes of the file. -/
def lastSegment : Elf64.ProgramHeader where
  type := Elf64.ptLoad
  flags := 5
  offset := 120
  vaddr := payloadAddress .cpu1
  paddr := payloadAddress .cpu1
  filesz := 4
  memsz := 4
  align := 4

def lastSegmentHeader : Elf64.FileHeader where
  ident := Elf64.identPrefix ++ List.replicate 9 0
  ident_length := rfl
  type := 2
  machine := 183
  version := 1
  entry := payloadAddress .cpu1
  phoff := 64
  shoff := 0
  flags := 0
  ehsize := 64
  phentsize := 56
  phnum := 1
  shentsize := 64
  shnum := 0
  shstrndx := 0

/-- An AArch64 executable without section headers: `ret`. -/
def lastSegmentFile : List UInt8 :=
  lastSegmentHeader.bytes ++ (lastSegment.bytes ++ [0xc0, 0x03, 0x5f, 0xd6])

def lastSegmentElfCall : ElfCall where
  domain := .cpu1
  state := .monitorReady
  devmem := true
  mapped := true
  mem a := lastSegmentFile.getD (a - 0x10000).toNat 0
  binary := { data := 0x10000, size := 124 }
  argument := 0

theorem found_lastSegment :
    plainLoader.found lastSegmentElfCall = [lastSegment] := by
  decide +kernel

def lastSegmentCall : FittingCall plainLoader where
  toElfCall := lastSegmentElfCall
  ready := ⟨rfl, rfl, rfl⟩
  inFile := by
    rw [found_lastSegment]
    decide
  inArea := by
    rw [found_lastSegment]
    decide

theorem not_loadsSegments_lastSegment :
    ¬∀ (κ : Type) (lib : SegmentLoader κ) (call : FittingCall lib),
      LoadsSegments lib call.toElfCall := by
  intro hloads
  have hsucceeds := (hloads _ plainLoader lastSegmentCall).succeeds
  have hmem : lastSegment ∈ plainLoader.found lastSegmentCall.toElfCall := by
    rw [lastSegmentCall, found_lastSegment]
    exact List.mem_cons_self
  exact absurd (fileEnd_lt_of_succeeds plainLoader lastSegmentCall hsucceeds hmem)
    (by decide)

end Bmboot
