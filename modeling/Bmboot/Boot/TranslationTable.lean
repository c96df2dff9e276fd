import Bmboot.Boot.Startup
import Bmboot.Lib.Stage1

/-!
# The translation tables

`translation_table.S`, linked into the monitor and into every payload, with the
control registers that `boot.S` writes at EL3 and at EL1.  The tables map
every address of the memory map to itself; what they say about each is given
by the kind of its region.
-/

namespace Bmboot

open Stage1

/-! ## The tables -/

namespace MmuTable

def reserved : ℕ := 0x0

/-- Normal memory, write-back, outer shareable. -/
def memory : ℕ := 0x425 ||| (2 <<< 8) ||| 0x0

/-- Strongly ordered, not executable. -/
def device : ℕ := 0x409 ||| (1 <<< 53) ||| (1 <<< 54) ||| 0x0

def ddr1Start : ℕ := 0x800000000
def ddr1End : ℕ := 0x87FFFFFFF
def ddr1Size : ℕ := (ddr1End - ddr1Start) + 1

/-- The entries of the upper memory, of 32 GB at most. -/
def ddr1Reg : ℕ := if ddr1Size > 0x800000000 then 0x20 else ddr1Size / 0x40000000

def undef1Reg : ℕ := 0x20 - ddr1Reg

def ddr0Start : ℕ := 0x00000000
def ddr0End : ℕ := 0x7FFFFFFF
def ddr0Size : ℕ := (ddr0End - ddr0Start) + 1

/-- The entries of the lower memory, of 2 GB at most. -/
def ddr0Reg : ℕ := if ddr0Size > 0x80000000 then 0x400 else ddr0Size / 0x200000

def undef0Reg : ℕ := 0x400 - ddr0Reg

/-- `MMUTableL0`, given the address of `MMUTableL1`. -/
def l0 (l1 : ℕ) : List ℕ := [l1 + 0x3, l1 + 0x1000 + 0x3]

/-- The runs of `MMUTableL1` after its first four entries. -/
def l1Runs : List (ℕ × ℕ) :=
  [(0xC, reserved), (0x10, device), (ddr1Reg, memory), (undef1Reg, reserved),
    (0x1C0, device), (0x100, device), (0x100, reserved)]

/-- `MMUTableL1`, given the address of `MMUTableL2`. -/
def l1 (l2 : ℕ) : List ℕ :=
  (List.range 4).map (fun i => l2 + 0x1000 * i + 0x3) ++
    emit 0x40000000 0x100000000 l1Runs

theorem length_l1 (l2 : ℕ) : (l1 l2).length = 1024 := by
  have hruns : (l1Runs.map Prod.fst).sum = 1020 := by decide
  rw [l1, List.length_append, length_emit, hruns, List.length_map,
    List.length_range]

def l2Runs : List (ℕ × ℕ) :=
  [(ddr0Reg, memory), (undef0Reg, reserved), (0x200, device), (0x100, device),
    (0x080, device), (0x040, reserved), (0x8, device), (0x1, device),
    (0x1F, reserved), (0x8, device), (0xE, device), (0x1, device), (0x1, memory)]

/-- `MMUTableL2`. -/
def l2 : List ℕ := emit 0x200000 0 l2Runs

end MmuTable

/-- A memory that holds the tables, each at the start of a page. -/
structure MmuTables where
  memory : ℕ → ℕ
  l0 : ℕ
  l1 : ℕ
  l2 : ℕ
  l0_aligned : l0 % 4096 = 0
  l1_aligned : l1 % 4096 = 0
  l2_aligned : l2 % 4096 = 0
  l0_lt : l0 < 2 ^ 40
  l1_lt : l1 + 0x2000 ≤ 2 ^ 40
  l2_lt : l2 + 0x4000 ≤ 2 ^ 40
  l0_holds : ∀ i e, (MmuTable.l0 l1)[i]? = some e → memory (l0 + 8 * i) = e
  l1_holds : ∀ i e, (MmuTable.l1 l2)[i]? = some e → memory (l1 + 8 * i) = e
  l2_holds : ∀ i e, MmuTable.l2[i]? = some e → memory (l2 + 8 * i) = e

/-- The tables one after the other, each from a page boundary on. -/
def linkedMemory (l0 address : ℕ) : ℕ :=
  if address < l0 + 0x1000 then
    (MmuTable.l0 (l0 + 0x1000)).getD ((address - l0) / 8) 0
  else if address < l0 + 0x3000 then
    (MmuTable.l1 (l0 + 0x3000)).getD ((address - (l0 + 0x1000)) / 8) 0
  else MmuTable.l2.getD ((address - (l0 + 0x3000)) / 8) 0

theorem linkedMemory_l0
    {l0 i e : ℕ} (he : (MmuTable.l0 (l0 + 0x1000))[i]? = some e) :
    linkedMemory l0 (l0 + 8 * i) = e := by
  have hi : i < 2 := (List.getElem?_eq_some_iff.mp he).1
  have hplace : (l0 + 8 * i - l0) / 8 = i := by omega
  rw [linkedMemory, if_pos (by omega), hplace, List.getD_eq_getElem?_getD, he,
    Option.getD_some]

theorem linkedMemory_l1
    {l0 i e : ℕ} (he : (MmuTable.l1 (l0 + 0x3000))[i]? = some e) :
    linkedMemory l0 (l0 + 0x1000 + 8 * i) = e := by
  have hi : i < 1024 := by
    rw [← MmuTable.length_l1 (l0 + 0x3000)]
    exact (List.getElem?_eq_some_iff.mp he).1
  have hplace : (l0 + 0x1000 + 8 * i - (l0 + 0x1000)) / 8 = i := by omega
  rw [linkedMemory, if_neg (by omega), if_pos (by omega), hplace,
    List.getD_eq_getElem?_getD, he, Option.getD_some]

theorem linkedMemory_l2
    {l0 i e : ℕ} (he : MmuTable.l2[i]? = some e) :
    linkedMemory l0 (l0 + 0x3000 + 8 * i) = e := by
  have hplace : (l0 + 0x3000 + 8 * i - (l0 + 0x3000)) / 8 = i := by omega
  rw [linkedMemory, if_neg (by omega), if_neg (by omega), hplace,
    List.getD_eq_getElem?_getD, he, Option.getD_some]

/-- The tables as the linker scripts place them. -/
def MmuTables.linked
    (l0 : ℕ) (haligned : l0 % 4096 = 0) (hlt : l0 + 0x7000 ≤ 2 ^ 40) :
    MmuTables where
  memory := linkedMemory l0
  l0 := l0
  l1 := l0 + 0x1000
  l2 := l0 + 0x3000
  l0_aligned := haligned
  l1_aligned := by omega
  l2_aligned := by omega
  l0_lt := by omega
  l1_lt := by omega
  l2_lt := by
    rw [Nat.add_assoc]
    exact hlt
  l0_holds _ _ := linkedMemory_l0
  l1_holds _ _ := linkedMemory_l1
  l2_holds _ _ := linkedMemory_l2

/-! ## The translation -/

/-- The level the image runs at: the monitor at EL3, a payload at EL1. -/
inductive ExecutionLevel
  | el1
  | el3
  deriving DecidableEq, Repr

/-- The bit of an entry that forbids instruction fetches from the level. -/
def ExecutionLevel.neverBit : ExecutionLevel → ℕ
  | .el1 => neverBitEl1
  | .el3 => neverBitEl3

def mairValue : ℕ := 0x000000BB0400FF44

def tcrEl3 : ℕ := 0x80823518

def tcrEl1 : ℕ := 0x285800518

/-- The translation of an address after `boot.S`.  `TTBR1_EL1` is not written:
it holds anything. -/
def MmuTables.translate
    (t : MmuTables) (ttbr1 : ℕ) : ExecutionLevel → ℕ → Option Access
  | .el1, va => translateEl1 t.memory t.l0 ttbr1 tcrEl1 mairValue va
  | .el3, va => translateEl3 t.memory t.l0 tcrEl3 mairValue va

/-! ## The memory map -/

/-- What a region of the memory map is for. -/
inductive Region
  | normal
  | device
  | unassigned
  deriving DecidableEq, Repr

/-- The regions below 4 GB, each with its end. -/
def lowRegions : List (ℕ × Region) :=
  [(0x80000000, .normal), (0xF0000000, .device), (0xF8000000, .unassigned),
    (0xF9200000, .device), (0xFD000000, .unassigned), (0xFFE00000, .device),
    (0x100000000, .normal)]

/-- The regions from 4 GB on, with 2 GB of upper memory. -/
def highRegions : List (ℕ × Region) :=
  [(0x400000000, .unassigned), (0x800000000, .device), (0x880000000, .normal),
    (0x1000000000, .unassigned), (0xC000000000, .device),
    (0x10000000000, .unassigned)]

def region (address : ℕ) : Region :=
  (below (lowRegions ++ highRegions) address).getD .unassigned

/-- The access a region allows to one of its addresses: write-back cacheable
memory that code may run from, or strongly ordered registers that it may
not. -/
def Region.access (address : ℕ) : Region → Option Access
  | .normal =>
      some
        { output := address, attributes := 0xFF, shareability := 2
          readOnly := false, executeNever := false }
  | .device =>
      some
        { output := address, attributes := 0x00, shareability := 0
          readOnly := false, executeNever := true }
  | .unassigned => none

/-! ## The runs follow the memory map -/

/-- The attributes of the entries of a region. -/
def Region.attributes : Region → ℕ
  | .normal => MmuTable.memory
  | .device => MmuTable.device
  | .unassigned => MmuTable.reserved

theorem merge_bounds_l2Runs :
    merge (bounds 0x200000 0 MmuTable.l2Runs) =
      lowRegions.map (Prod.map id Region.attributes) := by
  decide

theorem merge_bounds_l1Runs :
    merge (bounds 0x40000000 (2 ^ 32) MmuTable.l1Runs) =
      highRegions.map (Prod.map id Region.attributes) := by
  decide

theorem below_lowRegions
    {va : ℕ} (hva : va < 2 ^ 32) : below lowRegions va = some (region va) := by
  have hmem : (2 ^ 32, Region.normal) ∈ lowRegions := by decide
  have hsome : (below lowRegions va).isSome := below_isSome hmem hva
  obtain ⟨r, hr⟩ := Option.isSome_iff_exists.mp hsome
  rw [region, below_append, hr]
  rfl

theorem below_highRegions
    {va : ℕ} (hlow : 2 ^ 32 ≤ va) (hva : va < 2 ^ 40) :
    below highRegions va = some (region va) := by
  have hnone : below lowRegions va = none := by
    apply below_eq_none
    intro entry hentry
    have hend : ∀ e ∈ lowRegions, e.1 ≤ 2 ^ 32 := by decide
    exact le_trans (hend entry hentry) hlow
  have hmem : (2 ^ 40, Region.unassigned) ∈ highRegions := by decide
  have hsome : (below highRegions va).isSome := below_isSome hmem hva
  obtain ⟨r, hr⟩ := Option.isSome_iff_exists.mp hsome
  rw [region, below_append, hnone, hr]
  rfl

theorem attributesAt_l2Runs
    {va : ℕ} (hva : va < 2 ^ 32) :
    attributesAt MmuTable.l2Runs (va / 0x200000) =
      some (region va).attributes := by
  have hsize : 0 < 0x200000 := by decide
  have hbelow := attributesAt_eq_below hsize (Nat.zero_le va) MmuTable.l2Runs
  rw [Nat.sub_zero] at hbelow
  rw [hbelow, ← below_merge, merge_bounds_l2Runs, below_map,
    below_lowRegions hva, Option.map_some]

theorem attributesAt_l1Runs
    {va : ℕ} (hlow : 2 ^ 32 ≤ va) (hva : va < 2 ^ 40) :
    attributesAt MmuTable.l1Runs (va / 0x40000000 - 4) =
      some (region va).attributes := by
  have hplace : va / 0x40000000 - 4 = (va - 2 ^ 32) / 0x40000000 := by omega
  have hsize : 0 < 0x40000000 := by decide
  have hbelow := attributesAt_eq_below hsize hlow MmuTable.l1Runs
  rw [hplace, hbelow, ← below_merge, merge_bounds_l1Runs, below_map,
    below_highRegions hlow hva, Option.map_some]

theorem memory_blockAttributes : BlockAttributes MmuTable.memory := by
  constructor <;> decide

theorem device_blockAttributes : BlockAttributes MmuTable.device := by
  constructor <;> decide

theorem ExecutionLevel.le_neverBit (level : ExecutionLevel) :
    48 ≤ level.neverBit := by
  cases level <;> decide

theorem access_memory
    (level : ExecutionLevel) (va : ℕ) :
    some (access mairValue (flatLeaf level.neverBit MmuTable.memory va)) =
      Region.normal.access va := by
  have hindex : field MmuTable.memory 4 2 = 1 := by decide
  have hshare : field MmuTable.memory 9 8 = 2 := by decide
  have hread : field MmuTable.memory 7 7 = 0 := by decide
  have hexecute : field MmuTable.memory level.neverBit level.neverBit = 0 := by
    cases level <;> decide
  have hattributes : field mairValue 15 8 = 0xFF := by decide
  simp [access, flatLeaf, Region.access, hindex, hshare, hread, hexecute,
    hattributes]

theorem access_device
    (level : ExecutionLevel) (va : ℕ) :
    some (access mairValue (flatLeaf level.neverBit MmuTable.device va)) =
      Region.device.access va := by
  have hindex : field MmuTable.device 4 2 = 2 := by decide
  have hshare : field MmuTable.device 9 8 = 0 := by decide
  have hread : field MmuTable.device 7 7 = 0 := by decide
  have hexecute : field MmuTable.device level.neverBit level.neverBit = 1 := by
    cases level <;> decide
  have hattributes : field mairValue 23 16 = 0x00 := by decide
  simp [access, flatLeaf, Region.access, hindex, hshare, hread, hexecute,
    hattributes]

/-- A walk that ends at the flat entry of an address gives the access of the
address's region. -/
theorem walk_region
    {memory : ℕ → ℕ} {level : ExecutionLevel} {below table va : ℕ}
    (hbelow : below ≤ 1) (hva : va < 2 ^ 40)
    (hentry :
      memory (table + 8 * index (below + 1) va) =
        va / entrySize (below + 1) * entrySize (below + 1) +
          (region va).attributes) :
    (walk memory level.neverBit 40 (below + 1) table va).map (access mairValue) =
      (region va).access va := by
  cases hregion : region va with
  | normal =>
      rw [hregion] at hentry
      rw [walk_flat_block level.le_neverBit hbelow memory_blockAttributes hva
        (by decide) hentry, Option.map_some]
      exact access_memory level va
  | device =>
      rw [hregion] at hentry
      rw [walk_flat_block level.le_neverBit hbelow device_blockAttributes hva
        (by decide) hentry, Option.map_some]
      exact access_device level va
  | unassigned =>
      have hinvalid : memory (table + 8 * index (below + 1) va) % 2 = 0 := by
        have hsize : entrySize (below + 1) % 2 = 0 := by
          interval_cases below <;> decide
        rw [hentry, hregion]
        simp only [Region.attributes, MmuTable.reserved, Nat.add_zero]
        rw [Nat.mul_mod, hsize]
        simp
      rw [walk_invalid hinvalid]
      rfl

/-! ## Through the tables -/

namespace MmuTables

variable (t : MmuTables) (level : ExecutionLevel)

/-- The entry of the first table. -/
theorem l0_entry
    {k : ℕ} (hk : k < 2) : t.memory (t.l0 + 8 * k) = t.l1 + 0x1000 * k + 3 := by
  apply t.l0_holds
  interval_cases k <;> simp [MmuTable.l0]

/-- The first entries of the second table lead to the third. -/
theorem l1_entry_table
    {i : ℕ} (hi : i < 4) : t.memory (t.l1 + 8 * i) = t.l2 + 0x1000 * i + 3 := by
  apply t.l1_holds
  rw [MmuTable.l1, List.getElem?_append_left (by simpa using hi)]
  simp [hi]

/-- The other entries of the second table are flat. -/
theorem l1_entry_flat
    {va : ℕ} (hlow : 2 ^ 32 ≤ va) (hva : va < 2 ^ 40) :
    t.memory (t.l1 + 8 * (va / 0x40000000)) =
      va / 0x40000000 * 0x40000000 + (region va).attributes := by
  have hplace : 4 ≤ va / 0x40000000 := by omega
  apply t.l1_holds
  rw [MmuTable.l1, List.getElem?_append_right (by simpa using hplace)]
  simp only [List.length_map, List.length_range]
  rw [getElem?_emit, attributesAt_l1Runs hlow hva, Option.map_some]
  congr 1
  omega

/-- The entries of the third table are flat. -/
theorem l2_entry_flat
    {va : ℕ} (hva : va < 2 ^ 32) :
    t.memory (t.l2 + 8 * (va / 0x200000)) =
      va / 0x200000 * 0x200000 + (region va).attributes := by
  apply t.l2_holds
  rw [MmuTable.l2, getElem?_emit, attributesAt_l2Runs hva, Option.map_some]
  congr 1
  omega

/-- From its first entry on, the third table finds the access of the region. -/
theorem walk_l2
    {va : ℕ} (hva : va < 2 ^ 32) :
    (walk t.memory level.neverBit 40 1 (t.l2 + 0x1000 * (va / 0x40000000)) va).map
        (access mairValue) =
      (region va).access va := by
  apply walk_region (by decide) (by omega)
  have hplace :
      t.l2 + 0x1000 * (va / 0x40000000) + 8 * index 1 va =
        t.l2 + 8 * (va / 0x200000) := by
    simp only [index, entrySize]
    omega
  rw [hplace, t.l2_entry_flat hva]
  rfl

theorem walk_l1
    {va : ℕ} (hva : va < 2 ^ 40) :
    (walk t.memory level.neverBit 40 2 (t.l1 + 0x1000 * (va / 2 ^ 39)) va).map
        (access mairValue) =
      (region va).access va := by
  have hplace :
      t.l1 + 0x1000 * (va / 2 ^ 39) + 8 * index 2 va =
        t.l1 + 8 * (va / 0x40000000) := by
    simp only [index, entrySize]
    omega
  by_cases hlow : va < 2 ^ 32
  · have hsecond : va / 0x40000000 < 4 := by omega
    have hl2 := t.l2_lt
    have haligned := t.l2_aligned
    have hentry :
        t.memory (t.l1 + 0x1000 * (va / 2 ^ 39) + 8 * index (1 + 1) va) =
          t.l2 + 0x1000 * (va / 0x40000000) + 3 := by
      rw [hplace]
      exact t.l1_entry_table hsecond
    rw [walk_table hentry (by omega) (by omega) (by omega)]
    exact t.walk_l2 level hlow
  · apply walk_region (by decide) hva
    rw [hplace, t.l1_entry_flat (Nat.le_of_not_lt hlow) hva]
    rfl

theorem walk_l0
    {va : ℕ} (hva : va < 2 ^ 40) :
    (walk t.memory level.neverBit 40 3 t.l0 va).map (access mairValue) =
      (region va).access va := by
  have hhalf : va / 2 ^ 39 < 2 := by omega
  have hindex : index 3 va = va / 2 ^ 39 := by
    simp only [index, entrySize]
    omega
  have hl1 := t.l1_lt
  have haligned := t.l1_aligned
  have hentry :
      t.memory (t.l0 + 8 * index (2 + 1) va) =
        t.l1 + 0x1000 * (va / 2 ^ 39) + 3 := by
    rw [hindex]
    exact t.l0_entry hhalf
  rw [walk_table hentry (by omega) (by omega) (by omega)]
  exact t.walk_l1 level hva

theorem lookup_region
    {va : ℕ} (hva : va < 2 ^ 40) :
    lookup t.memory level.neverBit t.l0 mairValue 2 24 va =
      (region va).access va := by
  have httbr : field t.l0 47 1 * 2 = t.l0 := by
    have haligned := t.l0_aligned
    have hlt := t.l0_lt
    simp only [field]
    omega
  rw [lookup, httbr]
  exact t.walk_l0 level hva

end MmuTables

theorem region_access_of_ge
    {va : ℕ} (hva : 2 ^ 40 ≤ va) : (region va).access va = none := by
  have hnone : below (lowRegions ++ highRegions) va = none := by
    apply below_eq_none
    intro entry hentry
    have hend : ∀ e ∈ lowRegions ++ highRegions, e.1 ≤ 2 ^ 40 := by decide
    exact le_trans (hend entry hentry) hva
  rw [region, hnone]
  rfl

/-- The translation of any address of 64 bits. -/
theorem MmuTables.translate_region_of_lt
    (t : MmuTables) {ttbr1 va : ℕ} {level : ExecutionLevel} (hva64 : va < 2 ^ 64) :
    t.translate ttbr1 level va = (region va).access va := by
  by_cases hva : va < 2 ^ 40
  · cases level with
    | el1 =>
        have hhalf : field va 55 55 = 0 := by
          simp only [field]
          omega
        rw [MmuTables.translate, translateEl1, if_pos hhalf]
        have htag : untagged (field tcrEl1 37 37) va = va := rfl
        rw [htag]
        exact (if_pos ⟨hva, rfl⟩).trans (t.lookup_region .el1 hva)
    | el3 =>
        have htag : untagged (field tcrEl3 20 20) va = va := rfl
        rw [MmuTables.translate, translateEl3, htag]
        exact (if_pos hva).trans (t.lookup_region .el3 hva)
  · rw [region_access_of_ge (Nat.le_of_not_lt hva)]
    cases level with
    | el1 =>
        rw [MmuTables.translate, translateEl1]
        split
        · exact if_neg (fun h => hva h.1)
        · exact if_neg (fun h => absurd h.2.2 (by decide))
    | el3 => exact if_neg hva

/-- Every address of the memory map is mapped to itself with the access of its
region, at both levels; every other 64-bit address faults, whatever the
unused table base register holds. -/
theorem translate_eq_access
    (t : MmuTables) (ttbr1 : ℕ) (level : ExecutionLevel) (va : BitVec 64) :
    t.translate ttbr1 level va.toNat = (region va.toNat).access va.toNat :=
  t.translate_region_of_lt va.isLt

/-- The first byte past the upper memory, in tables linked into the monitor of
the first domain: a fault. -/
theorem translate_eq_access_pastDdr1 :
    (MmuTables.linked 0x800009000 (by decide) (by decide)).translate 0 .el3
      (0x880000000#64).toNat = none :=
  (translate_eq_access (MmuTables.linked 0x800009000 (by decide) (by decide)) 0
    .el3 0x880000000#64).trans (by decide)

/-! ## The areas of the domains -/

/-- The areas of `bmboot_memmap.hpp`. -/
inductive MemoryArea
  | monitor
  | monitorIpc
  | payload
  deriving DecidableEq, Repr

def monitorIpcAddress : DomainIndex → BitVec 64
  | .cpu1 => 0x800030000
  | .cpu2 => 0x800034000
  | .cpu3 => 0x800038000

def monitorIpcSize : ℕ := 0x00004000

def MemoryArea.address : MemoryArea → DomainIndex → BitVec 64
  | .monitor, cpu => monitorAddress cpu
  | .monitorIpc, cpu => monitorIpcAddress cpu
  | .payload, cpu => payloadAddress cpu

def MemoryArea.size : MemoryArea → ℕ
  | .monitor => monitorSize
  | .monitorIpc => monitorIpcSize
  | .payload => payloadAreaSize

/-- The address of a place in an area. -/
def MemoryArea.at (area : MemoryArea) (cpu : DomainIndex) (offset : ℕ) :
    BitVec 64 :=
  area.address cpu + BitVec.ofNat 64 offset

/-- The registers that the monitor and the payload runtime access, each block
with its address and size: distributor, interrupt interface, the reset
addresses, the power control register and the IPI channels of the cores. -/
def deviceRegisters : List (ℕ × ℕ) :=
  [(0xF9010000, 0xD00), (0xF9020000, 0xE4), (0xFD5C0040, 0x20),
    (0xFD5C0090, 0x4), (0xFF300000, 0x20), (0xFF340000, 0x20),
    (0xFF350000, 0x20)]

theorem MemoryArea.toNat_at
    {area : MemoryArea} {cpu : DomainIndex} {offset : ℕ}
    (hoffset : offset < area.size) :
    (area.at cpu offset).toNat = (area.address cpu).toNat + offset := by
  have hsize : area.size ≤ 0x02000000 := by
    cases area <;> decide
  have haddress : (area.address cpu).toNat ≤ 0x804100000 := by
    cases area <;> cases cpu <;> decide
  rw [MemoryArea.at, BitVec.toNat_add, BitVec.toNat_ofNat]
  omega

/-- The areas lie in the upper memory. -/
theorem MemoryArea.at_mem_ddr1
    {area : MemoryArea} {cpu : DomainIndex} {offset : ℕ}
    (hoffset : offset < area.size) :
    MmuTable.ddr1Start ≤ (area.at cpu offset).toNat ∧
      (area.at cpu offset).toNat ≤ MmuTable.ddr1End := by
  have hend :
      MmuTable.ddr1Start ≤ (area.address cpu).toNat ∧
        (area.address cpu).toNat + area.size ≤ MmuTable.ddr1End := by
    cases area <;> cases cpu <;> decide
  rw [MemoryArea.toNat_at hoffset]
  omega

/-- The region of the addresses from the end of the one before it on. -/
theorem region_of_getElem?
    {k start bound address : ℕ} {r : Region}
    (hk : (lowRegions ++ highRegions)[k]? = some (bound, r))
    (hprev : ∀ entry ∈ (lowRegions ++ highRegions).take k, entry.1 ≤ start)
    (hstart : start ≤ address) (haddress : address < bound) :
    region address = r := by
  have hbelow : below (lowRegions ++ highRegions) address = some r :=
    below_of_getElem? hk (fun e he => le_trans (hprev e he) hstart) haddress
  rw [region, hbelow]
  rfl

theorem region_ddr1
    {address : ℕ} (hlow : MmuTable.ddr1Start ≤ address)
    (hhigh : address ≤ MmuTable.ddr1End) : region address = .normal := by
  have hk : (lowRegions ++ highRegions)[9]? = some (0x880000000, .normal) := rfl
  apply region_of_getElem? hk (by decide) hlow
  exact Nat.lt_of_le_of_lt hhigh (by decide)

theorem region_deviceRegisters
    {address size offset : ℕ} (hmem : (address, size) ∈ deviceRegisters)
    (hoffset : offset < size) : region (address + offset) = .device := by
  have hall :
      ∀ block ∈ deviceRegisters,
        0xF8000000 ≤ block.1 ∧ block.1 + block.2 ≤ 0xF9200000 ∨
          0xFD000000 ≤ block.1 ∧ block.1 + block.2 ≤ 0xFFE00000 := by
    decide
  obtain ⟨hlow, hhigh⟩ | ⟨hlow, hhigh⟩ := hall (address, size) hmem
  · have hk : (lowRegions ++ highRegions)[3]? = some (0xF9200000, .device) := rfl
    apply region_of_getElem? hk (by decide) (le_trans hlow (Nat.le_add_right ..))
    exact Nat.lt_of_lt_of_le (Nat.add_lt_add_left hoffset _) hhigh
  · have hk : (lowRegions ++ highRegions)[5]? = some (0xFFE00000, .device) := rfl
    apply region_of_getElem? hk (by decide) (le_trans hlow (Nat.le_add_right ..))
    exact Nat.lt_of_lt_of_le (Nat.add_lt_add_left hoffset _) hhigh

/-- Different areas share no address. -/
theorem MemoryArea.at_ne
    {area area' : MemoryArea} {cpu cpu' : DomainIndex} {offset offset' : ℕ}
    (hne : (area, cpu) ≠ (area', cpu')) (hoffset : offset < area.size)
    (hoffset' : offset' < area'.size) :
    area.at cpu offset ≠ area'.at cpu' offset' := by
  have hapart :
      (area.address cpu).toNat + area.size ≤ (area'.address cpu').toNat ∨
        (area'.address cpu').toNat + area'.size ≤ (area.address cpu).toNat := by
    cases area <;> cases cpu <;> cases area' <;> cases cpu' <;>
      first | decide | exact absurd rfl hne
  intro heq
  have hnat := congrArg BitVec.toNat heq
  rw [MemoryArea.toNat_at hoffset, MemoryArea.toNat_at hoffset'] at hnat
  omega

/-- At both levels, the monitor, the block and the payload area of every
domain are memory that the caches keep coherent with the other cores and that
code may run from, and no two of them overlap; the registers are reached
uncached and in order, and nothing runs from them. -/
theorem memoryMap_translate
    (t : MmuTables) (ttbr1 : ℕ) (level : ExecutionLevel) :
    (∀ (area : MemoryArea) (cpu : DomainIndex) (offset : ℕ),
      offset < area.size →
        t.translate ttbr1 level (area.at cpu offset).toNat =
          Region.normal.access (area.at cpu offset).toNat) ∧
    (∀ (area area' : MemoryArea) (cpu cpu' : DomainIndex) (offset offset' : ℕ),
      offset < area.size → offset' < area'.size →
        (t.translate ttbr1 level (area.at cpu offset).toNat).map Access.output =
            (t.translate ttbr1 level (area'.at cpu' offset').toNat).map
              Access.output →
          area = area' ∧ cpu = cpu' ∧ offset = offset') ∧
    ∀ block ∈ deviceRegisters, ∀ offset < block.2,
      t.translate ttbr1 level (block.1 + offset) =
        Region.device.access (block.1 + offset) := by
  have hareas :
      ∀ (area : MemoryArea) (cpu : DomainIndex) (offset : ℕ),
        offset < area.size →
          t.translate ttbr1 level (area.at cpu offset).toNat =
            Region.normal.access (area.at cpu offset).toNat := by
    intro area cpu offset hoffset
    have hmem :
        MmuTable.ddr1Start ≤ (area.at cpu offset).toNat ∧
          (area.at cpu offset).toNat ≤ MmuTable.ddr1End :=
      MemoryArea.at_mem_ddr1 hoffset
    rw [t.translate_region_of_lt (BitVec.isLt _), region_ddr1 hmem.1 hmem.2]
  refine ⟨hareas, ?_, ?_⟩
  · intro area area' cpu cpu' offset offset' hoffset hoffset' houtput
    rw [hareas area cpu offset hoffset, hareas area' cpu' offset' hoffset'] at houtput
    have hat : (area.at cpu offset).toNat = (area'.at cpu' offset').toNat :=
      Option.some.inj houtput
    by_cases hne : (area, cpu) = (area', cpu')
    · obtain ⟨rfl, rfl⟩ := Prod.mk.injEq .. ▸ hne
      rw [MemoryArea.toNat_at hoffset, MemoryArea.toNat_at hoffset'] at hat
      exact ⟨rfl, rfl, by omega⟩
    · exact absurd (BitVec.eq_of_toNat_eq hat)
        (MemoryArea.at_ne hne hoffset hoffset')
  · intro block hblock offset hoffset
    have hlt : block.1 + offset < 2 ^ 64 := by
      have hall : ∀ b ∈ deviceRegisters, b.1 + b.2 < 2 ^ 64 := by decide
      have := hall block hblock
      omega
    rw [t.translate_region_of_lt hlt, region_deviceRegisters hblock hoffset]

/-- A payload of the third domain stores to the first byte of its block. -/
theorem memoryMap_translate_ipc :
    (MmuTables.linked 0x804110000 (by decide) (by decide)).translate 0 .el1
        (MemoryArea.monitorIpc.at .cpu3 0).toNat =
      Region.normal.access 0x800038000 :=
  (memoryMap_translate (MmuTables.linked 0x804110000 (by decide) (by decide)) 0
    .el1).1 .monitorIpc .cpu3 0 (by decide)

end Bmboot
