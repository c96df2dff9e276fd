import Bmboot.Lib.SharedBank
import Bmboot.Lib.StepSystem
import Bmboot.Monitor.Smc

/-!
# Interrupts configured by several cores

The distributor is one register file for all cores.  The monitors of the cores
handle `SMC_ZYNQMP_GIC_IRQ_CONFIGURE` of shared peripheral interrupts, and
every access to a register is a step.  The words of `IGROUPR` and `ICFGR` hold
the bits of several interrupts and are read and written back.
-/

namespace Bmboot

open SharedBank

/-! ## The calls -/

/-- A call to configure a shared peripheral interrupt. -/
structure SpiCall where
  interruptId : ℕ
  requestedPriority : ℤ
  min_le : 32 ≤ interruptId
  le_max : interruptId ≤ 187
  deriving DecidableEq

/-- The call is not refused for its priority. -/
def SpiCall.Accepted (c : SpiCall) : Prop := PayloadPriority c.requestedPriority

instance (c : SpiCall) : Decidable c.Accepted :=
  inferInstanceAs (Decidable (PayloadPriority _))

/-- The two attributes of an interrupt that share words with those of other
interrupts. -/
inductive Field
  | group
  | trigger
  deriving DecidableEq

namespace Field

/-- The bit that configuring an interrupt sets. -/
def place : Field → ℕ → Place ℤ
  | .group, id => ⟨(id : ℤ).tdiv 32, ((id : ℤ).tmod 32).toNat⟩
  | .trigger, id => ⟨(id : ℤ).tdiv 16, ((id : ℤ).tmod 16 * 2).toNat + 1⟩

def bank : Field → Gicd → ℤ → BitVec 32
  | .group, d => d.igroupr
  | .trigger, d => d.icfgr

/-- The word that `setGroup` or `setTriggerEdge` stores when it has read
`word`. -/
def newWord : Field → BitVec 32 → ℕ → BitVec 32
  | .group, word, id => Gicd.groupWord word id 1
  | .trigger, word, id => word ||| Gicd.triggerMask id

def store : Field → Gicd → ℤ → BitVec 32 → Gicd
  | .group, d, i, word => { d with igroupr := Function.update d.igroupr i word }
  | .trigger, d, i, word => { d with icfgr := Function.update d.icfgr i word }

/-- The interrupt is in group 1, or edge-triggered. -/
def isSet (f : Field) (d : Gicd) (id : ℕ) : Bool :=
  RegisterBank.bit (f.bank d) (f.place id).word (f.place id).bit

end Field

/-- Where a core is in the handling of a call. -/
inductive ConfigurePc
  | read (f : Field)
  | write (f : Field) (word : BitVec 32)
  | writePriority
  | writeTargets
  deriving DecidableEq

/-- A core with its calls: those it has made, the one under way and those it
will make. -/
structure CoreCalls where
  done : List SpiCall
  current : Option (SpiCall × ConfigurePc)
  todo : List SpiCall
  deriving DecidableEq

namespace CoreCalls

def goto (k : CoreCalls) (c : SpiCall) (pc : ConfigurePc) : CoreCalls :=
  { k with current := some (c, pc) }

def finish (k : CoreCalls) (c : SpiCall) : CoreCalls :=
  { k with done := k.done ++ [c], current := none }

/-- The order of the accesses of `configureSharedPeripheralInterruptAndRouteToCpu`
with an edge trigger; a read keeps the word. -/
def advance (k : CoreCalls) (c : SpiCall) (d : Gicd) :
    ConfigurePc → CoreCalls
  | .read f => k.goto c (.write f (f.bank d (f.place c.interruptId).word))
  | .write .group _ => k.goto c .writePriority
  | .writePriority => k.goto c .writeTargets
  | .writeTargets => k.goto c (.read .trigger)
  | .write .trigger _ => k.finish c

end CoreCalls

/-- What an access does to the distributor. -/
def SpiCall.access (c : SpiCall) (cpu : DomainIndex) (d : Gicd) :
    ConfigurePc → Gicd
  | .read _ => d
  | .write f word =>
      f.store d (f.place c.interruptId).word (f.newWord word c.interruptId)
  | .writePriority =>
      d.writePriority c.interruptId (BitVec.ofInt 8 c.requestedPriority)
  | .writeTargets => d.writeTargets c.interruptId (1#8 <<< cpu.cpuIndex)

structure Configuring where
  gicd : Gicd
  core : DomainIndex → CoreCalls

namespace Configuring

def start (d : Gicd) (calls : DomainIndex → List SpiCall) : Configuring where
  gicd := d
  core := fun cpu => { done := [], current := none, todo := calls cpu }

/-- The next step of a core: a call that is refused makes no access. -/
def step (s : Configuring) (cpu : DomainIndex) : Option Configuring :=
  match (s.core cpu).current with
  | some (c, pc) =>
      some { gicd := c.access cpu s.gicd pc
             core := Function.update s.core cpu
               ((s.core cpu).advance c s.gicd pc) }
  | none =>
      match (s.core cpu).todo with
      | [] => none
      | c :: rest =>
          let k :=
            if c.Accepted then (s.core cpu).goto c (.read .group)
            else (s.core cpu).finish c
          some { s with core := Function.update s.core cpu { k with todo := rest } }

/-- All calls have been made. -/
def Finished (s : Configuring) : Prop :=
  ∀ cpu, (s.core cpu).current = none ∧ (s.core cpu).todo = []

end Configuring

/-- Calls of all cores for pairwise different interrupts. -/
structure Workload where
  calls : DomainIndex → List SpiCall
  nodup : ∀ cpu, ((calls cpu).map SpiCall.interruptId).Nodup
  disjoint : ∀ cpu cpu', cpu ≠ cpu' → ∀ c ∈ calls cpu, ∀ c' ∈ calls cpu',
    c.interruptId ≠ c'.interruptId

/-- Every interrupt configured is in group 1, edge-triggered, of the requested
priority and routed to its core, and the group and trigger bits of the others
are as they were. -/
structure ConfiguredRight (init : Gicd) (w : Workload) (d : Gicd) : Prop where
  group : ∀ cpu, ∀ c ∈ w.calls cpu, c.Accepted →
    d.inGroup1 c.interruptId = true
  trigger : ∀ cpu, ∀ c ∈ w.calls cpu, c.Accepted →
    Field.trigger.isSet d c.interruptId = true
  priority : ∀ cpu, ∀ c ∈ w.calls cpu, c.Accepted →
    d.ipriorityr c.interruptId = BitVec.ofInt 8 c.requestedPriority
  targets : ∀ cpu, ∀ c ∈ w.calls cpu, c.Accepted →
    d.itargetsr c.interruptId = 1#8 <<< cpu.cpuIndex
  otherGroups : ∀ id : ℕ,
    (∀ cpu, ∀ c ∈ w.calls cpu, c.Accepted → c.interruptId ≠ id) →
      d.inGroup1 id = init.inGroup1 id
  otherTriggers : ∀ id : ℕ,
    (∀ cpu, ∀ c ∈ w.calls cpu, c.Accepted → c.interruptId ≠ id) →
      ∀ k : Fin 2,
        RegisterBank.bit d.icfgr ((id : ℤ).tdiv 16)
            (((id : ℤ).tmod 16 * 2).toNat + k) =
          RegisterBank.bit init.icfgr ((id : ℤ).tdiv 16)
            (((id : ℤ).tmod 16 * 2).toNat + k)

/-- No core adds a bit to a word to which another core adds a bit that is not
set yet. -/
def NoSharedWord (init : Gicd) (w : Workload) : Prop :=
  ∀ cpu cpu', cpu ≠ cpu' → ∀ c ∈ w.calls cpu, ∀ c' ∈ w.calls cpu',
    c.Accepted → c'.Accepted →
      ∀ f : Field, (f.place c.interruptId).word = (f.place c'.interruptId).word →
        f.isSet init c.interruptId = true

/-! ## Places -/

namespace Field

theorem place_group (id : ℕ) :
    Field.group.place id = ⟨(id / 32 : ℕ), id % 32⟩ := by
  have hnonneg : (0 : ℤ) ≤ id := Int.natCast_nonneg id
  simp only [place, Int.tdiv_eq_ediv_of_nonneg hnonneg,
    Int.tmod_eq_emod_of_nonneg hnonneg, Place.mk.injEq]
  omega

theorem place_trigger (id : ℕ) :
    Field.trigger.place id = ⟨(id / 16 : ℕ), id % 16 * 2 + 1⟩ := by
  have hnonneg : (0 : ℤ) ≤ id := Int.natCast_nonneg id
  simp only [place, Int.tdiv_eq_ediv_of_nonneg hnonneg,
    Int.tmod_eq_emod_of_nonneg hnonneg, Place.mk.injEq]
  omega

theorem place_bit_lt (f : Field) (id : ℕ) : (f.place id).bit < 32 := by
  cases f with
  | group =>
      rw [place_group]
      exact Nat.mod_lt _ (by decide)
  | trigger =>
      rw [place_trigger]
      change id % 16 * 2 + 1 < 32
      omega

theorem place_injective (f : Field) : Function.Injective f.place := by
  intro id id' heq
  cases f with
  | group =>
      rw [place_group, place_group, Place.mk.injEq] at heq
      omega
  | trigger =>
      rw [place_trigger, place_trigger, Place.mk.injEq] at heq
      omega

/-- The low trigger bit of an interrupt is none of those that are set. -/
theorem place_trigger_ne_low (id id' : ℕ) :
    Field.trigger.place id' ≠
      ⟨(id : ℤ).tdiv 16, ((id : ℤ).tmod 16 * 2).toNat⟩ := by
  have hnonneg : (0 : ℤ) ≤ id := Int.natCast_nonneg id
  rw [place_trigger, Int.tmod_eq_emod_of_nonneg hnonneg]
  intro heq
  rw [Place.mk.injEq] at heq
  omega

theorem newWord_eq (f : Field) (word : BitVec 32) (id : ℕ) :
    f.newWord word id = word ||| 1#32 <<< (f.place id).bit := by
  cases f with
  | group =>
      have hmask : Gicd.interruptMask id = 1#32 <<< (Field.group.place id).bit :=
        rfl
      rw [newWord, Gicd.groupWord, if_pos (by decide), hmask]
      apply BitVec.eq_of_getLsbD_eq
      intro k hk
      simp only [BitVec.getLsbD_or, BitVec.getLsbD_and, BitVec.getLsbD_not,
        RegisterBank.getLsbD_one_shiftLeft hk, hk, decide_true, Bool.true_and]
      by_cases hkb : k = (Field.group.place id).bit <;> simp [hkb]
  | trigger =>
      have hmask : Gicd.triggerMask id =
          1#32 <<< (Field.trigger.place id).bit :=
        Gicd.triggerMask_eq id
      rw [newWord, hmask]

theorem bank_store (f g : Field) (d : Gicd) (i : ℤ) (word : BitVec 32) :
    g.bank (f.store d i word) =
      if g = f then Function.update (f.bank d) i word else g.bank d := by
  cases f <;> cases g <;> rfl

end Field

/-! ## How far a call has got -/

/-- The number of accesses a call has made. -/
def ConfigurePc.accesses : ConfigurePc → ℕ
  | .read .group => 0
  | .write .group _ => 1
  | .writePriority => 2
  | .writeTargets => 3
  | .read .trigger => 4
  | .write .trigger _ => 5

/-- The number of accesses after which the bit has been written. -/
def Field.stage : Field → ℕ
  | .group => 2
  | .trigger => 6

theorem ConfigurePc.accesses_lt (pc : ConfigurePc) : pc.accesses < 6 := by
  cases pc with
  | read f => cases f <;> decide
  | write f word => cases f <;> simp [accesses]
  | writePriority => decide
  | writeTargets => decide

theorem ConfigurePc.eq_writePriority {pc : ConfigurePc}
    (h : 3 = pc.accesses + 1) : pc = .writePriority := by
  cases pc with
  | read f => cases f <;> simp [accesses] at h
  | write f word => cases f <;> simp [accesses] at h
  | writePriority => rfl
  | writeTargets => simp [accesses] at h

theorem ConfigurePc.eq_writeTargets {pc : ConfigurePc}
    (h : 4 = pc.accesses + 1) : pc = .writeTargets := by
  cases pc with
  | read f => cases f <;> simp [accesses] at h
  | write f word => cases f <;> simp [accesses] at h
  | writePriority => simp [accesses] at h
  | writeTargets => rfl

theorem Field.stage_eq_iff (f : Field) (pc : ConfigurePc) :
    f.stage = pc.accesses + 1 ↔ ∃ word, pc = .write f word := by
  cases pc with
  | read g => cases f <;> cases g <;> simp [stage, ConfigurePc.accesses]
  | write g word => cases f <;> cases g <;> simp [stage, ConfigurePc.accesses]
  | writePriority => cases f <;> simp [stage, ConfigurePc.accesses]
  | writeTargets => cases f <;> simp [stage, ConfigurePc.accesses]

namespace CoreCalls

/-- An accepted call that has made at least `n` accesses. -/
def Past (k : CoreCalls) (c : SpiCall) (n : ℕ) : Prop :=
  c.Accepted ∧
    (c ∈ k.done ∨ ∃ pc, k.current = some (c, pc) ∧ n ≤ pc.accesses)

section Past

variable {k : CoreCalls} {c c' : SpiCall} {pc : ConfigurePc} {d : Gicd} {n : ℕ}

theorem past_goto
    (hcurrent : k.current = some (c, pc)) (hc : c.Accepted)
    {pc' : ConfigurePc} (hpc' : pc'.accesses = pc.accesses + 1) :
    (k.goto c pc').Past c' n ↔
      k.Past c' n ∨ c' = c ∧ n = pc.accesses + 1 := by
  simp only [Past, goto, hcurrent, Option.some.injEq, Prod.mk.injEq]
  constructor
  · rintro ⟨hacc, hdone | ⟨pc'', ⟨rfl, rfl⟩, hn⟩⟩
    · exact .inl ⟨hacc, .inl hdone⟩
    · rw [hpc'] at hn
      rcases Nat.le_succ_iff.mp hn with hle | heq
      · exact .inl ⟨hacc, .inr ⟨pc, ⟨rfl, rfl⟩, hle⟩⟩
      · exact .inr ⟨rfl, heq⟩
  · rintro (⟨hacc, hdone | ⟨pc'', ⟨rfl, rfl⟩, hn⟩⟩ | ⟨rfl, rfl⟩)
    · exact ⟨hacc, .inl hdone⟩
    · exact ⟨hacc, .inr ⟨pc', ⟨rfl, rfl⟩, by omega⟩⟩
    · exact ⟨hc, .inr ⟨pc', ⟨rfl, rfl⟩, by omega⟩⟩

theorem past_finish
    (hcurrent : k.current = some (c, pc)) (hc : c.Accepted)
    (hpc : pc.accesses = 5) (hn : n ≤ 6) :
    (k.finish c).Past c' n ↔ k.Past c' n ∨ c' = c ∧ n = pc.accesses + 1 := by
  simp only [Past, finish, hcurrent, Option.some.injEq, Prod.mk.injEq,
    List.mem_append, List.mem_singleton]
  constructor
  · rintro ⟨hacc, (hdone | rfl) | ⟨pc', hnone, -⟩⟩
    · exact .inl ⟨hacc, .inl hdone⟩
    · rcases Nat.lt_or_ge 5 n with hlt | hge
      · exact .inr ⟨rfl, by omega⟩
      · exact .inl ⟨hacc, .inr ⟨pc, ⟨rfl, rfl⟩, by omega⟩⟩
    · cases hnone
  · rintro (⟨hacc, hdone | ⟨pc', ⟨rfl, rfl⟩, -⟩⟩ | ⟨rfl, -⟩)
    · exact ⟨hacc, .inl (.inl hdone)⟩
    · exact ⟨hacc, .inl (.inr rfl)⟩
    · exact ⟨hc, .inl (.inr rfl)⟩

/-- An access moves the call under way on by one. -/
theorem past_advance
    (hcurrent : k.current = some (c, pc)) (hc : c.Accepted) (hn : n ≤ 6) :
    (k.advance c d pc).Past c' n ↔
      k.Past c' n ∨ c' = c ∧ n = pc.accesses + 1 := by
  cases pc with
  | read f => cases f <;> exact past_goto hcurrent hc rfl
  | write f word =>
      cases f with
      | group => exact past_goto hcurrent hc rfl
      | trigger => exact past_finish hcurrent hc rfl hn
  | writePriority => exact past_goto hcurrent hc rfl
  | writeTargets => exact past_goto hcurrent hc rfl

/-- A call that is only taken up has made no access, and a refused one makes
none. -/
theorem past_take
    (hcurrent : k.current = none) (hn : 0 < n) (rest : List SpiCall) :
    CoreCalls.Past
        { (if c.Accepted then k.goto c (.read .group) else k.finish c) with
          todo := rest } c' n ↔ k.Past c' n := by
  by_cases hc : c.Accepted
  · rw [if_pos hc]
    simp only [Past, goto, hcurrent, Option.some.injEq, Prod.mk.injEq]
    constructor
    · rintro ⟨hacc, hdone | ⟨pc, ⟨-, rfl⟩, hle⟩⟩
      · exact ⟨hacc, .inl hdone⟩
      · exact absurd hle (Nat.not_le_of_lt hn)
    · rintro ⟨hacc, hdone | ⟨pc, hnone, -⟩⟩
      · exact ⟨hacc, .inl hdone⟩
      · cases hnone
  · rw [if_neg hc]
    simp only [Past, finish, hcurrent, List.mem_append, List.mem_singleton]
    constructor
    · rintro ⟨hacc, (hdone | rfl) | hnone⟩
      · exact ⟨hacc, .inl hdone⟩
      · exact absurd hacc hc
      · exact ⟨hacc, .inr hnone⟩
    · rintro ⟨hacc, hdone | hnone⟩
      · exact ⟨hacc, .inl (.inl hdone)⟩
      · exact ⟨hacc, .inr hnone⟩

end Past

/-- The word of the field that the core has read and will write back. -/
def held (k : CoreCalls) (f : Field) : Option (Place ℤ × BitVec 32) :=
  match k.current with
  | some (c, .write g word) =>
      if g = f then some (f.place c.interruptId, word) else none
  | _ => none

end CoreCalls

end Bmboot
