import Bmboot.Lib.Client
import Bmboot.System.State

/-!
# What an ELF file can make the manager do

`Domain::loadElfPayload` (`domain.cpp`) leaves the reading of the file and the
placement of its segments to the `elfload` library, which works through two
callbacks.  Offsets, sizes and addresses come from the file.  The library is a
parameter: any program that uses the callbacks.
-/

namespace Bmboot

/-! ## The callbacks -/

/-- The requests that the library may make. -/
inductive ElfRequest
  | pread (nb offset : BitVec 64)
  | alloc (phys virt size : BitVec 64)

/-- `pread` delivers bytes or fails; `alloc` delivers a position in the mapped
payload area or a null pointer. -/
def ElfRequest.Answer : ElfRequest → Type
  | .pread _ _ => Option (List UInt8)
  | .alloc _ _ _ => Option (BitVec 64)

/-- The span `payload_binary`. -/
structure PayloadBinary where
  data : BitVec 64
  size : BitVec 64

/-- `ctx.pread`, with the memory of the manager. -/
def elfPread (mem : BitVec 64 → UInt8) (binary : PayloadBinary)
    (nb offset : BitVec 64) : Option (List UInt8) :=
  if offset + nb < binary.size then
    some (readBytes mem (binary.data + offset) nb.toNat)
  else none

/-- The allocation callback of `el_load`. -/
def elfAlloc (cpu : DomainIndex) (phys size : BitVec 64) : Option (BitVec 64) :=
  if phys < payloadAddress cpu ∨
      phys + size > payloadAddress cpu + BitVec.ofNat 64 payloadAreaSize then
    none
  else some (phys - payloadAddress cpu)

/-! ## The call -/

/-- `el_init` and `el_load`, with what they keep in the context: whether they
report an error, and the two fields that `loadElfPayload` reads. -/
structure Elfload (κ : Type) where
  elInit : Client ElfRequest ElfRequest.Answer (Bool × κ)
  elLoad : κ → Client ElfRequest ElfRequest.Answer (Bool × κ)
  eEntry : κ → BitVec 64
  baseLoadPaddr : κ → BitVec 64

/-- What a call of `loadElfPayload` depends on: the domain, the state it is in,
whether there is a handle of `/dev/mem` and a mapping of the payload area, the
file, and the argument for the payload. -/
structure ElfCall where
  domain : DomainIndex
  state : DomainState
  devmem : Bool
  mapped : Bool
  mem : BitVec 64 → UInt8
  binary : PayloadBinary
  argument : BitVec 64

variable {κ : Type}

/-- The arguments of `startPayloadAt`, from what the library leaves in its
context. -/
def Elfload.startArgs (lib : Elfload κ) (call : ElfCall) (ctx : κ) :
    StartArgs where
  entryAddress := lib.eEntry ctx + lib.baseLoadPaddr ctx
  payloadSize := 0
  payloadCrc := 0
  payloadArgument := call.argument

def ElfCall.answer (call : ElfCall) : ∀ q : ElfRequest, q.Answer
  | .pread nb offset => elfPread call.mem call.binary nb offset
  | .alloc phys _ size => elfAlloc call.domain phys size

/-- `loadElfPayload`: an error, or the arguments of `startPayloadAt`.  What
`el_init` reports is not looked at. -/
def loadElfPayload (lib : Elfload κ) (call : ElfCall) :
    Client ElfRequest ElfRequest.Answer (Except ErrorCode StartArgs) :=
  if call.state ≠ .monitorReady then .ret (.error .badDomainState)
  else if call.devmem = false then .ret (.error .devMemAccessFailed)
  else if call.mapped = false then .ret (.error .mmapFailed)
  else
    lib.elInit.bind fun (_, ctx) =>
      (lib.elLoad ctx).bind fun (err, ctx) =>
        if err then .ret (.error .programTooLarge)
        else .ret (.ok (lib.startArgs call ctx))

/-! ## What it should not do -/

/-- An answer gives access to nothing outside the file and the payload area; sums
are taken without wrapping around. -/
def ElfCall.AnswerInside (call : ElfCall) : ElfRequest → Prop
  | .pread nb offset =>
      (elfPread call.mem call.binary nb offset).isSome = true →
        offset.toNat + nb.toNat ≤ call.binary.size.toNat
  | .alloc phys _ size =>
      (elfAlloc call.domain phys size).isSome = true →
        (payloadAddress call.domain).toNat ≤ phys.toNat ∧
          phys.toNat + size.toNat ≤
            (payloadAddress call.domain).toNat + payloadAreaSize

/-- `el_init` succeeds, and the entry address lies in the payload area. -/
def EntryInside (lib : Elfload κ) (call : ElfCall) (args : StartArgs) : Prop :=
  (lib.elInit.value call.answer).1 = false ∧
    (payloadAddress call.domain).toNat ≤ args.entryAddress.toNat ∧
    args.entryAddress.toNat <
      (payloadAddress call.domain).toNat + payloadAreaSize

/-- The call stays inside the file and the payload area, and starts no code
outside. -/
structure StaysInside (lib : Elfload κ) (call : ElfCall) : Prop where
  answers : ∀ q ∈ (loadElfPayload lib call).asked call.answer,
    call.AnswerInside q
  start : ∀ args, (loadElfPayload lib call).value call.answer = .ok args →
    EntryInside lib call args

/-- The end of the request does not wrap around to a place that passes the
check. -/
def ElfCall.NoWrap (call : ElfCall) : ElfRequest → Prop
  | .pread nb offset =>
      ¬(2 ^ 64 ≤ offset.toNat + nb.toNat ∧
        offset.toNat + nb.toNat - 2 ^ 64 < call.binary.size.toNat)
  | .alloc phys _ size =>
      ¬((payloadAddress call.domain).toNat ≤ phys.toNat ∧
        2 ^ 64 ≤ phys.toNat + size.toNat ∧
        phys.toNat + size.toNat - 2 ^ 64 ≤
          (payloadAddress call.domain).toNat + payloadAreaSize)

/-- The domain is ready and its payload area is mapped. -/
structure ElfCall.Ready (call : ElfCall) : Prop where
  state : call.state = .monitorReady
  devmem : call.devmem = true
  mapped : call.mapped = true

/-- What `el_load` returns in this call. -/
def Elfload.loaded (lib : Elfload κ) (call : ElfCall) : Bool × κ :=
  (lib.elLoad (lib.elInit.value call.answer).2).value call.answer

/-- In a call that gets to it, `el_load` reports an error unless `el_init` has
reported none and the header's entry address lies in the payload area. -/
def Elfload.ChecksEntry (lib : Elfload κ) (call : ElfCall) : Prop :=
  call.Ready → (lib.loaded call).1 = false →
    EntryInside lib call (lib.startArgs call (lib.loaded call).2)

section Answers

variable {call : ElfCall}

theorem toNat_payloadArea (cpu : DomainIndex) :
    (payloadAddress cpu + BitVec.ofNat 64 payloadAreaSize).toNat =
      (payloadAddress cpu).toNat + payloadAreaSize := by
  cases cpu <;> decide

theorem toNat_payloadArea_lt (cpu : DomainIndex) :
    (payloadAddress cpu).toNat + payloadAreaSize < 2 ^ 64 := by
  cases cpu <;> decide

theorem isSome_elfPread (mem : BitVec 64 → UInt8) (binary : PayloadBinary)
    (nb offset : BitVec 64) :
    (elfPread mem binary nb offset).isSome = true ↔
      (offset.toNat + nb.toNat) % 2 ^ 64 < binary.size.toNat := by
  rw [elfPread, ← BitVec.toNat_add, ← BitVec.lt_def]
  split <;> simp_all

theorem isSome_elfAlloc (cpu : DomainIndex) (phys size : BitVec 64) :
    (elfAlloc cpu phys size).isSome = true ↔
      (payloadAddress cpu).toNat ≤ phys.toNat ∧
        (phys.toNat + size.toNat) % 2 ^ 64 ≤
          (payloadAddress cpu).toNat + payloadAreaSize := by
  rw [elfAlloc, ← toNat_payloadArea, ← BitVec.toNat_add]
  simp only [gt_iff_lt, BitVec.lt_def]
  split_ifs with hrefused
  · simp only [Option.isSome_none, Bool.false_eq_true, false_iff]
    omega
  · simp only [Option.isSome_some, true_iff]
    omega

/-- The checks of the callbacks are right exactly where nothing wraps around. -/
theorem answerInside_iff_noWrap (q : ElfRequest) :
    call.AnswerInside q ↔ call.NoWrap q := by
  cases q with
  | pread nb offset =>
      have hsize := call.binary.size.isLt
      have hoffset := offset.isLt
      have hnb := nb.isLt
      simp only [ElfCall.AnswerInside, ElfCall.NoWrap, isSome_elfPread]
      omega
  | alloc phys virt size =>
      have harea := toNat_payloadArea_lt call.domain
      have hphys := phys.isLt
      have hsize := size.isLt
      simp only [ElfCall.AnswerInside, ElfCall.NoWrap, isSome_elfAlloc]
      omega

/-- Every byte of an allocation inside the payload area lies in the mapping. -/
theorem pointer_add_lt {phys virt size pointer : BitVec 64}
    (hinside : call.AnswerInside (.alloc phys virt size))
    (hpointer : elfAlloc call.domain phys size = some pointer)
    {i : ℕ} (hi : i < size.toNat) : pointer.toNat + i < payloadAreaSize := by
  have hsome : (elfAlloc call.domain phys size).isSome = true := by
    rw [hpointer]
    rfl
  obtain ⟨hlow, hhigh⟩ := hinside hsome
  have hdifference : pointer = phys - payloadAddress call.domain := by
    rw [elfAlloc] at hpointer
    split_ifs at hpointer
    exact (Option.some.inj hpointer).symm
  have hnat : pointer.toNat =
      phys.toNat - (payloadAddress call.domain).toNat := by
    rw [hdifference, BitVec.toNat_sub_of_le (BitVec.le_def.mpr hlow)]
  omega

end Answers

section Start

variable (lib : Elfload κ) (call : ElfCall)

/-- A call that gets to the library runs `el_init`, then `el_load`. -/
theorem loadElfPayload_ready (hready : call.Ready) :
    loadElfPayload lib call =
      lib.elInit.bind fun init =>
        (lib.elLoad init.2).bind fun loaded =>
          if loaded.1 then .ret (.error .programTooLarge)
          else .ret (.ok (lib.startArgs call loaded.2)) := by
  have hstate : ¬call.state ≠ .monitorReady := not_not_intro hready.state
  have hdevmem : ¬call.devmem = false := by
    rw [hready.devmem]
    decide
  have hmapped : ¬call.mapped = false := by
    rw [hready.mapped]
    decide
  rw [loadElfPayload, if_neg hstate, if_neg hdevmem, if_neg hmapped]

/-- The requests of the call are those of `el_init`, then those of `el_load`. -/
theorem asked_loadElfPayload_of_ready (hready : call.Ready) :
    (loadElfPayload lib call).asked call.answer =
      lib.elInit.asked call.answer ++
        (lib.elLoad (lib.elInit.value call.answer).2).asked call.answer := by
  rw [loadElfPayload_ready lib call hready, Client.asked_bind,
    Client.asked_bind]
  -- What follows `el_load` asks for nothing.
  split
  · exact congrArg _ (List.append_nil _)
  · exact congrArg _ (List.append_nil _)

theorem loadElfPayload_of_ready (hready : call.Ready) :
    (loadElfPayload lib call).value call.answer =
      if (lib.loaded call).1 then .error .programTooLarge
      else .ok (lib.startArgs call (lib.loaded call).2) := by
  rw [loadElfPayload_ready lib call hready, Client.value_bind,
    Client.value_bind]
  change Client.value call.answer (if (lib.loaded call).1 then _ else _) = _
  split
  · rfl
  · rfl

theorem ready_of_ok {args : StartArgs}
    (h : (loadElfPayload lib call).value call.answer = .ok args) :
    call.Ready := by
  rw [loadElfPayload] at h
  split_ifs at h with hstate hdevmem hmapped
  · cases h
  · cases h
  · cases h
  · exact ⟨not_not.mp hstate, Bool.not_eq_false _ |>.mp hdevmem,
      Bool.not_eq_false _ |>.mp hmapped⟩

/-- What the library makes of the file, apart from the bytes it stores. -/
def Elfload.image (stores : List (BitVec 64 × UInt8)) : ElfImage where
  stores := stores
  error := (lib.loaded call).1
  entryAddress := lib.eEntry (lib.loaded call).2 +
    lib.baseLoadPaddr (lib.loaded call).2

/-- The call goes on as the load of that image. -/
theorem loadElfPayload_eq_elfLoad (stores : List (BitVec 64 × UInt8))
    (hready : call.Ready) :
    (loadElfPayload lib call).value call.answer =
      match (elfLoad (lib.image call stores) call.argument).error with
      | some e => .error e
      | none => .ok (elfLoad (lib.image call stores) call.argument).args := by
  rw [loadElfPayload_of_ready lib call hready]
  by_cases herror : (lib.loaded call).1 = true
  · have himage : (elfLoad (lib.image call stores) call.argument).error =
        some .programTooLarge := if_pos herror
    rw [if_pos herror, himage]
  · have himage : (elfLoad (lib.image call stores) call.argument).error =
        none := if_neg herror
    rw [if_neg herror, himage]
    rfl

/-- The payload is started inside the area exactly when the library has seen to
it. -/
theorem start_iff_checksEntry :
    (∀ args, (loadElfPayload lib call).value call.answer = .ok args →
        EntryInside lib call args) ↔ lib.ChecksEntry call := by
  constructor
  · intro hstart hready hloaded
    refine hstart _ ?_
    rw [loadElfPayload_of_ready lib call hready, hloaded]
    rfl
  · intro hchecks args hargs
    have hready := ready_of_ok lib call hargs
    rw [loadElfPayload_of_ready lib call hready] at hargs
    split at hargs
    · cases hargs
    next hloaded =>
      cases hargs
      rw [Bool.not_eq_true] at hloaded
      exact hchecks hready hloaded

end Start

/-- A call of `loadElfPayload` stays inside the file and the payload area and
starts no code outside, exactly when no request that the library makes wraps
around past a check, and the library itself reports an error for a malformed
header and for an entry address outside. -/
theorem staysInside_iff_noWrap (lib : Elfload κ) (call : ElfCall) :
    StaysInside lib call ↔
      (∀ q ∈ (loadElfPayload lib call).asked call.answer, call.NoWrap q) ∧
        lib.ChecksEntry call := by
  have hinside : ∀ q, call.AnswerInside q ↔ call.NoWrap q :=
    answerInside_iff_noWrap
  have hanswers := Client.forall_asked_iff hinside call.answer
    (loadElfPayload lib call)
  have hstart := start_iff_checksEntry lib call
  constructor
  · intro hinside
    exact ⟨hanswers.mp hinside.answers, hstart.mp hinside.start⟩
  · rintro ⟨hnoWrap, hchecks⟩
    exact ⟨hanswers.mpr hnoWrap, hstart.mpr hchecks⟩

/-! ## A file that starts code outside the payload area -/

/-- The library on files without program headers: `el_init` reads the header and
checks its magic number, and `el_load` has nothing to load. -/
def headerOnly : Elfload (List UInt8) where
  elInit := .ask (.pread 64 0) fun
    | some header =>
        .ret (decide (header.take 4 ≠ [0x7f, 0x45, 0x4c, 0x46]), header)
    | none => .ret (true, [])
  elLoad ctx := .ret (false, ctx)
  eEntry header := readWord32 header 28 ++ readWord32 header 24
  baseLoadPaddr _ := 0

/-- An AArch64 executable without program headers, whose entry address is
`0x1000`, and one byte behind the header. -/
def strayEntryFile : List UInt8 :=
  [0x7f, 0x45, 0x4c, 0x46, 2, 1, 1, 0, 0, 0, 0, 0, 0, 0, 0, 0,
    2, 0, 0xb7, 0, 1, 0, 0, 0, 0, 0x10, 0, 0, 0, 0, 0, 0,
    64, 0, 0, 0, 0, 0, 0, 0, 0, 0, 0, 0, 0, 0, 0, 0,
    0, 0, 0, 0, 64, 0, 56, 0, 0, 0, 64, 0, 0, 0, 0, 0, 0]

def strayEntryCall : ElfCall where
  domain := .cpu1
  state := .monitorReady
  devmem := true
  mapped := true
  mem a := strayEntryFile.getD (a - 0x10000).toNat 0
  binary := { data := 0x10000, size := 65 }
  argument := 0

/-- The payload is started at `0x1000`. -/
theorem not_staysInside_strayEntry :
    ¬∀ (κ : Type) (lib : Elfload κ) (call : ElfCall), StaysInside lib call := by
  intro hinside
  let args : StartArgs :=
    { entryAddress := 0x1000, payloadSize := 0, payloadCrc := 0
      payloadArgument := 0 }
  have hargs : (loadElfPayload headerOnly strayEntryCall).value
      strayEntryCall.answer = .ok args := rfl
  have hentry := (hinside _ headerOnly strayEntryCall).start args hargs
  exact absurd hentry.2.1 (by decide)

end Bmboot
