import Bmboot.System.State

/-!
# The memory that a core dump shows

`Domain::dumpCore` (`domain.cpp`) maps the payload memory of its domain for the
time of the call and describes it in an array with static storage, which C++
initializes once, when a call first gets there.
-/

namespace Bmboot

/-- `MemorySegment`. -/
structure MemorySegment where
  startAddress : BitVec 64
  size : ℕ
  ptr : BitVec 64
  deriving DecidableEq

/-- What a call of `dumpCore` depends on: the domain, the state it is in,
whether there is a handle of `/dev/mem`, where the payload memory is mapped if
it is, the physical memory, and what else the process has mapped. -/
structure DumpCall where
  domain : DomainIndex
  state : DomainState
  devmem : Bool
  mapping : Option (BitVec 64)
  memory : BitVec 64 → UInt8
  otherMappings : BitVec 64 → Option UInt8

namespace DumpCall

/-- What the process can read during the call when its mapping is at `base`. -/
def addressSpace (c : DumpCall) (base a : BitVec 64) : Option UInt8 :=
  if (a - base).toNat < payloadAreaSize then
    some (c.memory (payloadAddress c.domain + (a - base)))
  else c.otherMappings a

/-- The segment that the call would describe for a mapping at `base`. -/
def segment (c : DumpCall) (base : BitVec 64) : MemorySegment where
  startAddress := payloadAddress c.domain
  size := payloadAreaSize
  ptr := base

end DumpCall

/-- The static array after the call, the segment given to `writeCoreDump`, and
the error returned. -/
structure DumpResult where
  segments : Option MemorySegment
  written : Option MemorySegment
  error : MaybeError

/-- `dumpCore`, with the static array it finds. -/
def dumpCore (segments : Option MemorySegment) (c : DumpCall) : DumpResult :=
  let fail (e : ErrorCode) : DumpResult :=
    { segments := segments, written := none, error := some e }
  if c.state ≠ .crashedPayload ∧ c.state ≠ .crashedMonitor then
    fail .badDomainState
  else if c.devmem = false then fail .devMemAccessFailed
  else
    match c.mapping with
    | none => fail .mmapFailed
    | some base =>
        let segment := segments.getD (c.segment base)
        { segments := some segment, written := some segment, error := none }

/-- The static array after a sequence of calls of one process. -/
def afterDumps (calls : List DumpCall) : Option MemorySegment :=
  calls.foldl (fun segments c => (dumpCore segments c).segments) none

/-- The call dumps the payload memory of its domain through its own mapping. -/
structure DumpsOwnMemory (c : DumpCall) (base : BitVec 64)
    (segment : MemorySegment) : Prop where
  startAddress : segment.startAddress = payloadAddress c.domain
  size : segment.size = payloadAreaSize
  ptr : segment.ptr = base
  bytes : ∀ i < segment.size,
    c.addressSpace base (segment.ptr + BitVec.ofNat 64 i) =
      some (c.memory (payloadAddress c.domain + BitVec.ofNat 64 i))

/-- Every successful call of the sequence does. -/
def DumpsRight (calls : List DumpCall) : Prop :=
  ∀ before c after, calls = before ++ c :: after →
    (dumpCore (afterDumps before) c).error = none →
      ∃ base segment, c.mapping = some base ∧
        (dumpCore (afterDumps before) c).written = some segment ∧
          DumpsOwnMemory c base segment

/-- The call passes its checks and gets its mapping. -/
def DumpCall.Succeeds (c : DumpCall) : Prop :=
  (c.state = .crashedPayload ∨ c.state = .crashedMonitor) ∧
    c.devmem = true ∧ c.mapping ≠ none

/-- The successful calls are for one domain and get their mapping at one
address. -/
def OneMapping (calls : List DumpCall) : Prop :=
  ∀ c ∈ calls, ∀ c' ∈ calls, c.Succeeds → c'.Succeeds →
    c.domain = c'.domain ∧ c.mapping = c'.mapping

theorem payloadAddress_injective : Function.Injective payloadAddress := by
  intro cpu cpu' heq
  cases cpu <;> cases cpu' <;> first | rfl | exact absurd heq (by decide)

/-- A call through its own mapping shows the memory of its domain. -/
theorem dumpsOwnMemory_segment (c : DumpCall) (base : BitVec 64) :
    DumpsOwnMemory c base (c.segment base) := by
  refine ⟨rfl, rfl, rfl, ?_⟩
  intro i hi
  have hsize : i < payloadAreaSize := hi
  have hlt : i < 2 ^ 64 := lt_trans hsize (by decide)
  have hoffset : base + BitVec.ofNat 64 i - base = BitVec.ofNat 64 i := by
    rw [BitVec.add_comm, BitVec.add_sub_cancel]
  have hnat : (BitVec.ofNat 64 i).toNat = i := by
    rw [BitVec.toNat_ofNat, Nat.mod_eq_of_lt hlt]
  simp only [DumpCall.addressSpace, DumpCall.segment, hoffset, hnat]
  rw [if_pos hsize]

section Calls

variable {segments : Option MemorySegment} {c : DumpCall} {base : BitVec 64}

theorem dumpCore_of_succeeds
    (segments : Option MemorySegment) (hc : c.Succeeds)
    (hbase : c.mapping = some base) :
    dumpCore segments c =
      { segments := some (segments.getD (c.segment base))
        written := some (segments.getD (c.segment base))
        error := none } := by
  obtain ⟨hstate, hdevmem, -⟩ := hc
  have hcrashed : ¬(c.state ≠ .crashedPayload ∧ c.state ≠ .crashedMonitor) := by
    rintro ⟨hpayload, hmonitor⟩
    rcases hstate with h | h
    · exact hpayload h
    · exact hmonitor h
  simp [dumpCore, hcrashed, hdevmem, hbase]

theorem error_of_not_succeeds (hc : ¬c.Succeeds) :
    (dumpCore segments c).error ≠ none ∧
      (dumpCore segments c).segments = segments := by
  simp only [dumpCore]
  split_ifs with hstate hdevmem
  · exact ⟨nofun, rfl⟩
  · exact ⟨nofun, rfl⟩
  · cases hmapping : c.mapping with
    | none => exact ⟨nofun, rfl⟩
    | some base =>
        refine absurd ⟨?_, ?_, ?_⟩ hc
        · by_contra hnot
          rw [not_or] at hnot
          exact hstate hnot
        · exact Bool.not_eq_false _ |>.mp hdevmem
        · rw [hmapping]
          exact nofun

/-- Once initialized, the array never changes. -/
theorem segments_dumpCore {segment : MemorySegment}
    (h : segments = some segment) :
    (dumpCore segments c).segments = some segment := by
  by_cases hc : c.Succeeds
  · obtain ⟨base, hbase⟩ := Option.ne_none_iff_exists'.mp hc.2.2
    rw [dumpCore_of_succeeds _ hc hbase, h]
    rfl
  · rw [(error_of_not_succeeds hc).2, h]

end Calls

theorem afterDumps_concat (calls : List DumpCall) (c : DumpCall) :
    afterDumps (calls ++ [c]) = (dumpCore (afterDumps calls) c).segments := by
  simp [afterDumps]

theorem afterDumps_append_of_some
    {calls : List DumpCall} {segment : MemorySegment}
    (h : afterDumps calls = some segment) (rest : List DumpCall) :
    afterDumps (calls ++ rest) = some segment := by
  induction rest using List.reverseRecOn with
  | nil => rwa [List.append_nil]
  | append_singleton rest c ih =>
      rw [← List.append_assoc, afterDumps_concat]
      exact segments_dumpCore ih

/-- The array is not initialized or describes the mapping of an earlier
successful call. -/
theorem afterDumps_cases (calls : List DumpCall) :
    afterDumps calls = none ∨
      ∃ c ∈ calls, ∃ base, c.Succeeds ∧ c.mapping = some base ∧
        afterDumps calls = some (c.segment base) := by
  induction calls using List.reverseRecOn with
  | nil => exact .inl rfl
  | append_singleton calls c ih =>
      rw [afterDumps_concat]
      rcases ih with hnone | ⟨c', hc', base, hsucceeds, hbase, hsome⟩
      · by_cases hc : c.Succeeds
        · obtain ⟨base, hbase⟩ := Option.ne_none_iff_exists'.mp hc.2.2
          refine .inr ⟨c, by simp, base, hc, hbase, ?_⟩
          rw [dumpCore_of_succeeds _ hc hbase, hnone]
          rfl
        · left
          rw [(error_of_not_succeeds hc).2, hnone]
      · exact .inr ⟨c', by simp [hc'], base, hsucceeds, hbase,
          segments_dumpCore hsome⟩

/-- In a right sequence the array ends up describing the mapping of every
successful call. -/
theorem afterDumps_eq_of_dumpsRight
    {calls : List DumpCall} (hright : DumpsRight calls)
    {c : DumpCall} (hc : c ∈ calls) (hsucceeds : c.Succeeds)
    {base : BitVec 64} (hbase : c.mapping = some base) :
    afterDumps calls = some (c.segment base) := by
  obtain ⟨before, after, rfl⟩ := List.append_of_mem hc
  have hresult := dumpCore_of_succeeds (afterDumps before) hsucceeds hbase
  obtain ⟨base', segment, hbase', hwritten, hown⟩ :=
    hright before c after rfl (by rw [hresult])
  have hsegment : segment = c.segment base := by
    rw [hbase, Option.some.injEq] at hbase'
    obtain ⟨startAddress, size, ptr⟩ := segment
    rw [DumpCall.segment, MemorySegment.mk.injEq]
    exact ⟨hown.startAddress, hown.size, hown.ptr.trans hbase'.symm⟩
  have hstep : afterDumps (before ++ [c]) = some (c.segment base) := by
    rw [afterDumps_concat, ← hsegment, ← hwritten, hresult]
  have hrest := afterDumps_append_of_some hstep after
  rwa [List.append_assoc, List.singleton_append] at hrest

/-- Every dump shows the domain it is for exactly when all successful dumps of
the process are for one domain and get their mapping at one address. -/
theorem dumpsRight_iff_oneMapping (calls : List DumpCall) :
    DumpsRight calls ↔ OneMapping calls := by
  constructor
  · intro hright c hc c' hc' hsucceeds hsucceeds'
    obtain ⟨base, hbase⟩ := Option.ne_none_iff_exists'.mp hsucceeds.2.2
    obtain ⟨base', hbase'⟩ := Option.ne_none_iff_exists'.mp hsucceeds'.2.2
    have hfirst := afterDumps_eq_of_dumpsRight hright hc hsucceeds hbase
    have hsecond := afterDumps_eq_of_dumpsRight hright hc' hsucceeds' hbase'
    rw [hfirst, Option.some.injEq, DumpCall.segment, DumpCall.segment,
      MemorySegment.mk.injEq] at hsecond
    refine ⟨payloadAddress_injective hsecond.1, ?_⟩
    rw [hbase, hbase', hsecond.2.2]
  · intro hone before c after hcalls herror
    have hc : c ∈ calls := by
      rw [hcalls]
      simp
    have hsucceeds : c.Succeeds := by
      by_contra hnot
      exact (error_of_not_succeeds hnot).1 herror
    obtain ⟨base, hbase⟩ := Option.ne_none_iff_exists'.mp hsucceeds.2.2
    have hresult := dumpCore_of_succeeds (afterDumps before) hsucceeds hbase
    refine ⟨base, c.segment base, hbase, ?_, dumpsOwnMemory_segment c base⟩
    rw [hresult]
    rcases afterDumps_cases before with hnone | ⟨c', hc', base', hs', hb', hsome⟩
    · rw [hnone]
      rfl
    · have hmem : c' ∈ calls := by
        rw [hcalls]
        simp [hc']
      obtain ⟨hdomain, hmapping⟩ := hone c' hmem c hc hs' hsucceeds
      rw [hb', hbase, Option.some.injEq] at hmapping
      rw [hsome, Option.getD_some, DumpCall.segment, DumpCall.segment, hdomain,
        hmapping]

/-- A successful dump of a crashed payload through a mapping at `base`. -/
def crashedDump (cpu : DomainIndex) (base : BitVec 64) : DumpCall where
  domain := cpu
  state := .crashedPayload
  devmem := true
  mapping := some base
  memory := fun _ => 0
  otherMappings := fun _ => none

/-- The second domain's dump is made from the segment of the first domain. -/
theorem not_dumpsRight_twoDomains :
    ¬DumpsRight [crashedDump .cpu1 0x7f0000000000,
      crashedDump .cpu2 0x7f0000000000] := by
  intro hright
  obtain ⟨base, segment, -, hwritten, hown⟩ :=
    hright [crashedDump .cpu1 0x7f0000000000]
      (crashedDump .cpu2 0x7f0000000000) [] rfl rfl
  have hsegment : segment =
      (crashedDump .cpu1 0x7f0000000000).segment 0x7f0000000000 :=
    (Option.some.inj hwritten).symm
  rw [hsegment] at hown
  exact absurd hown.startAddress (by decide)

end Bmboot
