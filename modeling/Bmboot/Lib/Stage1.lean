import Mathlib.Data.List.Basic
import Mathlib.Tactic.IntervalCases
import Mathlib.Tactic.Ring

/-!
# Stage 1 address translation

The table walk of the 64-bit Arm architecture with a 4 KB granule, over a
memory of 64-bit descriptors.  This module is independent of any particular
table.

A level of the walk is given by the number of levels below it, so that the
walk recurses towards the pages.  The second half is about tables whose entries
are emitted in runs: each entry holds the address its place stands for, plus
attributes that change only from run to run.  A walk through such a table
finds every address mapped to itself.
-/

namespace Stage1

/-! ## The walk -/

/-- Bits `hi` down to `lo` of a register or a descriptor. -/
def field (x hi lo : ℕ) : ℕ := x / 2 ^ lo % 2 ^ (hi + 1 - lo)

/-- The bytes an entry stands for. -/
def entrySize (below : ℕ) : ℕ := 2 ^ (12 + 9 * below)

/-- The entry an address selects. -/
def index (below va : ℕ) : ℕ := va / entrySize below % 512

/-- What a walk finds for an address. -/
structure Leaf where
  output : ℕ
  attrIndx : ℕ
  shareability : ℕ
  readOnly : Bool
  executeNever : Bool
  deriving DecidableEq, Repr

/-- The block or page an entry describes.  Which bit forbids instruction fetches
depends on the translation regime. -/
def leaf (neverBit d below va : ℕ) : Leaf where
  output := field d 47 (12 + 9 * below) * entrySize below + va % entrySize below
  attrIndx := field d 4 2
  shareability := field d 9 8
  readOnly := field d 7 7 = 1
  executeNever := field d neverBit neverBit = 1

/-- A block or page is used if its access flag is set and its address is within
the output size. -/
def checkedLeaf (neverBit outputBits d below va : ℕ) : Option Leaf :=
  if field d 10 10 = 1 ∧ (leaf neverBit d below va).output < 2 ^ outputBits then
    some (leaf neverBit d below va)
  else none

/-- The walk from a table with `below` levels below it.  Blocks are found on
the two levels above the pages. -/
def walk (memory : ℕ → ℕ) (neverBit outputBits : ℕ) : ℕ → ℕ → ℕ → Option Leaf
  | 0, table, va =>
      let d := memory (table + 8 * index 0 va)
      if d % 4 = 3 then checkedLeaf neverBit outputBits d 0 va else none
  | below + 1, table, va =>
      let d := memory (table + 8 * index (below + 1) va)
      if d % 4 = 3 then
        let next := field d 47 12 * 4096
        if next < 2 ^ outputBits then
          walk memory neverBit outputBits below next va
        else none
      else if d % 4 = 1 ∧ below ≤ 1 then
        checkedLeaf neverBit outputBits d (below + 1) va
      else none

/-- The size of an input address, for a region size field. -/
def inputBits (tsz : ℕ) : ℕ := 64 - tsz

/-- The levels below the one where the walk of an input address starts. -/
def initialBelow (inputBits : ℕ) : ℕ := (inputBits - 13) / 9

/-- The output sizes of the control registers. -/
def outputBits : ℕ → ℕ
  | 0 => 32
  | 1 => 36
  | 2 => 40
  | 3 => 42
  | 4 => 44
  | _ => 48

/-- What a translation yields: an address and how it may be accessed, with the
attributes looked up in the memory attribute register. -/
structure Access where
  output : ℕ
  attributes : ℕ
  shareability : ℕ
  readOnly : Bool
  executeNever : Bool
  deriving DecidableEq, Repr

def access (mair : ℕ) (l : Leaf) : Access where
  output := l.output
  attributes := field mair (8 * l.attrIndx + 7) (8 * l.attrIndx)
  shareability := l.shareability
  readOnly := l.readOnly
  executeNever := l.executeNever

/-- The walk of an input address of the size given by a region size field. -/
def lookup (memory : ℕ → ℕ) (neverBit ttbr mair outputSize tsz va : ℕ) :
    Option Access :=
  (walk memory neverBit (outputBits outputSize) (initialBelow (inputBits tsz))
    (field ttbr 47 1 * 2) va).map (access mair)

/-- The bits that forbid instruction fetches at EL3, and at EL1 in a regime that
it shares with EL0. -/
def neverBitEl3 : ℕ := 54

def neverBitEl1 : ℕ := 53

/-- The address with its top byte ignored, if the control register says so. -/
def untagged (ignored va : ℕ) : ℕ := if ignored = 1 then va % 2 ^ 56 else va

/-- The translation of a regime with one range of addresses. -/
def translateEl3 (memory : ℕ → ℕ) (ttbr0 tcr mair va : ℕ) : Option Access :=
  let va := untagged (field tcr 20 20) va
  if va < 2 ^ inputBits (field tcr 5 0) then
    lookup memory neverBitEl3 ttbr0 mair (field tcr 18 16) (field tcr 5 0) va
  else none

/-- The translation of a regime with a lower and an upper range, which bit 55
selects, for accesses from EL1.  Walks through either table can be disabled. -/
def translateEl1 (memory : ℕ → ℕ) (ttbr0 ttbr1 tcr mair va : ℕ) :
    Option Access :=
  if field va 55 55 = 0 then
    let va := untagged (field tcr 37 37) va
    if va < 2 ^ inputBits (field tcr 5 0) ∧ field tcr 7 7 = 0 then
      lookup memory neverBitEl1 ttbr0 mair (field tcr 34 32) (field tcr 5 0) va
    else none
  else
    let size := 2 ^ inputBits (field tcr 21 16)
    if 2 ^ 56 - size ≤ va % 2 ^ 56 ∧ (field tcr 38 38 = 1 ∨ 2 ^ 64 - size ≤ va) ∧
        field tcr 23 23 = 0 then
      lookup memory neverBitEl1 ttbr1 mair (field tcr 34 32) (field tcr 21 16)
        (va % size)
    else none

/-! ## Steps of the walk -/

theorem index_lt (below va : ℕ) : index below va < 512 :=
  Nat.mod_lt _ (by decide)

/-- Past a table entry the walk continues in the table it points to. -/
theorem walk_table
    {memory : ℕ → ℕ} {never bits below table va next : ℕ}
    (hentry : memory (table + 8 * index (below + 1) va) = next + 3)
    (haligned : next % 4096 = 0) (hnext : next < 2 ^ 48)
    (hbits : next < 2 ^ bits) :
    walk memory never bits (below + 1) table va =
      walk memory never bits below next va := by
  have htype : (next + 3) % 4 = 3 := by omega
  have hfield : field (next + 3) 47 12 * 4096 = next := by
    simp only [field]
    omega
  simp only [walk, hentry, htype, if_true, hfield, if_pos hbits]

/-- An entry with a clear lowest bit ends the walk. -/
theorem walk_invalid
    {memory : ℕ → ℕ} {never bits below table va : ℕ}
    (hentry : memory (table + 8 * index below va) % 2 = 0) :
    walk memory never bits below table va = none := by
  have htable : memory (table + 8 * index below va) % 4 ≠ 3 := by omega
  have hblock : memory (table + 8 * index below va) % 4 ≠ 1 := by omega
  cases below with
  | zero =>
      simp only [walk, if_neg htable]
  | succ below =>
      simp only [walk, if_neg htable]
      rw [if_neg (fun h => hblock h.1)]

/-- On the two levels above the pages, an entry of block type is used. -/
theorem walk_block
    {memory : ℕ → ℕ} {never bits below table va : ℕ}
    (hbelow : below ≤ 1)
    (hentry : memory (table + 8 * index (below + 1) va) % 4 = 1) :
    walk memory never bits (below + 1) table va =
      checkedLeaf never bits (memory (table + 8 * index (below + 1) va))
        (below + 1) va := by
  have htable : memory (table + 8 * index (below + 1) va) % 4 ≠ 3 := by omega
  simp only [walk, if_neg htable]
  rw [if_pos ⟨hentry, hbelow⟩]

/-! ## Tables emitted in runs -/

/-- The entries of a list of runs, each a number of entries and the attributes
added to their addresses, with one address after the other from `start`. -/
def emit (size : ℕ) : ℕ → List (ℕ × ℕ) → List ℕ
  | _, [] => []
  | start, (count, attributes) :: runs =>
      (List.range count).map (fun i => start + size * i + attributes) ++
        emit size (start + size * count) runs

/-- The attributes of the entry at a place. -/
def attributesAt : List (ℕ × ℕ) → ℕ → Option ℕ
  | [], _ => none
  | (count, attributes) :: runs, i =>
      if i < count then some attributes else attributesAt runs (i - count)

/-- Every place has the address it stands for and the attributes of its run. -/
theorem getElem?_emit
    (size : ℕ) (runs : List (ℕ × ℕ)) (start i : ℕ) :
    (emit size start runs)[i]? =
      (attributesAt runs i).map (fun a => start + size * i + a) := by
  induction runs generalizing start i with
  | nil => simp [emit, attributesAt]
  | cons run runs ih =>
      obtain ⟨count, attributes⟩ := run
      by_cases hi : i < count
      · have hrange :
            i < ((List.range count).map
              (fun i => start + size * i + attributes)).length := by
          simpa using hi
        rw [emit, List.getElem?_append_left hrange]
        simp [attributesAt, hi]
      · have hle :
            ((List.range count).map
              (fun i => start + size * i + attributes)).length ≤ i := by
          simpa using Nat.le_of_not_lt hi
        have hsum : size * count + size * (i - count) = size * i := by
          rw [← Nat.mul_add]
          congr 1
          omega
        rw [emit, List.getElem?_append_right hle, ih]
        simp only [List.length_map, List.length_range, attributesAt, if_neg hi]
        congr 1
        funext a
        omega

theorem length_emit
    (size : ℕ) (runs : List (ℕ × ℕ)) (start : ℕ) :
    (emit size start runs).length = (runs.map Prod.fst).sum := by
  induction runs generalizing start with
  | nil => rfl
  | cons run runs ih => simp [emit, ih]

/-! ## Maps given by bounds -/

section Bounds

variable {α β : Type*}

/-- The value of the first bound above a place. -/
def below : List (ℕ × α) → ℕ → Option α
  | [], _ => none
  | (bound, a) :: rest, x => if x < bound then some a else below rest x

theorem below_append
    (xs ys : List (ℕ × α)) (x : ℕ) :
    below (xs ++ ys) x = (below xs x).or (below ys x) := by
  induction xs with
  | nil => rfl
  | cons entry xs ih =>
      by_cases hx : x < entry.1
      · simp [below, hx]
      · simp [below, hx, ih]

theorem below_map
    (f : α → β) (xs : List (ℕ × α)) (x : ℕ) :
    below (xs.map (Prod.map id f)) x = (below xs x).map f := by
  induction xs with
  | nil => rfl
  | cons entry xs ih =>
      by_cases hx : x < entry.1
      · simp [below, hx]
      · simp [below, hx, ih]

theorem below_eq_none
    {xs : List (ℕ × α)} {x : ℕ} (hx : ∀ entry ∈ xs, entry.1 ≤ x) :
    below xs x = none := by
  induction xs with
  | nil => rfl
  | cons entry xs ih =>
      have hentry : ¬x < entry.1 := Nat.not_lt.mpr (hx entry List.mem_cons_self)
      rw [below, if_neg hentry]
      exact ih (fun e he => hx e (List.mem_cons_of_mem _ he))

theorem below_isSome
    {xs : List (ℕ × α)} {x : ℕ} {entry : ℕ × α} (hmem : entry ∈ xs)
    (hx : x < entry.1) : (below xs x).isSome := by
  induction xs with
  | nil => simp at hmem
  | cons head xs ih =>
      by_cases hhead : x < head.1
      · simp [below, hhead]
      · rw [below, if_neg hhead]
        apply ih
        apply (List.mem_cons.mp hmem).resolve_left
        rintro rfl
        exact hhead hx

/-- The value between two neighbouring bounds. -/
theorem below_of_getElem?
    {xs : List (ℕ × α)} {k bound x : ℕ} {a : α}
    (hk : xs[k]? = some (bound, a)) (hprev : ∀ entry ∈ xs.take k, entry.1 ≤ x)
    (hx : x < bound) : below xs x = some a := by
  obtain ⟨hlength, hget⟩ := List.getElem?_eq_some_iff.mp hk
  have hsplit : xs = xs.take k ++ (bound, a) :: xs.drop (k + 1) := by
    rw [← hget, ← List.drop_eq_getElem_cons hlength, List.take_append_drop]
  rw [hsplit, below_append, below_eq_none hprev, Option.none_or, below, if_pos hx]

/-- Leave out bounds that no place reaches, and join neighbours of equal
value. -/
def merge [DecidableEq α] : List (ℕ × α) → List (ℕ × α)
  | [] => []
  | (bound, a) :: rest =>
      match merge rest with
      | [] => [(bound, a)]
      | (next, b) :: rest =>
          if next ≤ bound then (bound, a) :: rest
          else if a = b then (next, b) :: rest
          else (bound, a) :: (next, b) :: rest

theorem below_merge
    [DecidableEq α] (xs : List (ℕ × α)) (x : ℕ) :
    below (merge xs) x = below xs x := by
  induction xs with
  | nil => rfl
  | cons entry xs ih =>
      obtain ⟨bound, a⟩ := entry
      rw [merge]
      split
      next hmerge =>
        rw [hmerge] at ih
        simp [below, ← ih]
      next next b rest hmerge =>
        rw [hmerge] at ih
        rw [below, ← ih, below]
        by_cases hdead : next ≤ bound
        · rw [if_pos hdead, below]
          by_cases hx : x < bound
          · rw [if_pos hx, if_pos hx]
          · have hnext : ¬x < next := by omega
            rw [if_neg hx, if_neg hx, if_neg hnext]
        · rw [if_neg hdead]
          by_cases hjoin : a = b
          · rw [if_pos hjoin, below, hjoin]
            by_cases hx : x < bound
            · have hnext : x < next := by omega
              rw [if_pos hx, if_pos hnext]
            · rw [if_neg hx]
          · rw [if_neg hjoin, below, below]

end Bounds

/-- The ends of runs. -/
def bounds (size : ℕ) : ℕ → List (ℕ × ℕ) → List (ℕ × ℕ)
  | _, [] => []
  | start, (count, a) :: runs =>
      (start + size * count, a) :: bounds size (start + size * count) runs

/-- The run of an entry is the one whose end is the first above the address. -/
theorem attributesAt_eq_below
    {size start x : ℕ} (hsize : 0 < size) (hstart : start ≤ x)
    (runs : List (ℕ × ℕ)) :
    attributesAt runs ((x - start) / size) = below (bounds size start runs) x := by
  induction runs generalizing start with
  | nil => rfl
  | cons run runs ih =>
      obtain ⟨count, a⟩ := run
      have hiff : (x - start) / size < count ↔ x < start + size * count := by
        rw [Nat.div_lt_iff_lt_mul hsize, Nat.mul_comm count]
        omega
      by_cases hx : x < start + size * count
      · rw [attributesAt, if_pos (hiff.mpr hx), bounds, below, if_pos hx]
      · have hle : start + size * count ≤ x := Nat.le_of_not_lt hx
        have hskip :
            (x - start) / size - count = (x - (start + size * count)) / size := by
          rw [← Nat.sub_sub, Nat.sub_mul_div]
        rw [attributesAt, if_neg (hx ∘ hiff.mp), bounds, below, if_neg hx, hskip]
        exact ih hle

/-! ## Flat entries -/

/-- Attributes of a usable block: bits below the twelfth and above the
forty-seventh, of block type and with the access flag set. -/
structure BlockAttributes (a : ℕ) : Prop where
  type : a % 4 = 1
  accessFlag : field a 10 10 = 1
  addressFree : a % 2 ^ 48 < 4096

/-- The address bits of a flat entry are those of its address. -/
theorem field_flat
    {a base below : ℕ} (hbelow : below ≤ 2) (ha : a % 2 ^ 48 < 4096)
    (hbase : base < 2 ^ 48) (haligned : base % entrySize below = 0) :
    field (base + a) 47 (12 + 9 * below) * entrySize below = base := by
  interval_cases below <;> simp only [field, entrySize] at * <;> omega

/-- The low bits of a flat entry are those of its attributes. -/
theorem field_flat_low
    {a base hi lo : ℕ} (hhi : hi < 12) (haligned : base % 4096 = 0) :
    field (base + a) hi lo = field a hi lo := by
  obtain ⟨k, rfl⟩ := Nat.dvd_of_mod_eq_zero haligned
  by_cases hlo : lo ≤ hi
  · have hpow : 4096 = 2 ^ lo * (2 ^ (hi + 1 - lo) * 2 ^ (11 - hi)) := by
      rw [← pow_add, ← pow_add]
      have hexp : lo + (hi + 1 - lo + (11 - hi)) = 12 := by omega
      rw [hexp]
      norm_num
    have hsplit :
        4096 * k + a =
          a + 2 ^ lo * (2 ^ (hi + 1 - lo) * (2 ^ (11 - hi) * k)) := by
      rw [hpow]
      ring
    have hpos : 0 < 2 ^ lo := Nat.two_pow_pos lo
    rw [field, field, hsplit, Nat.add_mul_div_left _ _ hpos,
      Nat.add_mul_mod_self_left]
  · have hzero : hi + 1 - lo = 0 := by omega
    simp only [field, hzero, pow_zero, Nat.mod_one]

/-- The bits of a flat entry above its address are those of its attributes. -/
theorem field_flat_high
    {a base hi lo : ℕ} (hlo : 48 ≤ lo) (ha : a % 2 ^ 48 < 4096)
    (hbase : base < 2 ^ 48) (haligned : base % 4096 = 0) :
    field (base + a) hi lo = field a hi lo := by
  have hdiv : (base + a) / 2 ^ 48 = a / 2 ^ 48 := by omega
  have hpow : 2 ^ lo = 2 ^ 48 * 2 ^ (lo - 48) := by
    rw [← pow_add]
    congr 1
    omega
  rw [field, field, hpow, ← Nat.div_div_eq_div_mul, ← Nat.div_div_eq_div_mul,
    hdiv]

/-- What an entry with given attributes says of an address it maps to itself. -/
def flatLeaf (neverBit a va : ℕ) : Leaf where
  output := va
  attrIndx := field a 4 2
  shareability := field a 9 8
  readOnly := field a 7 7 = 1
  executeNever := field a neverBit neverBit = 1

/-- A flat entry maps the addresses it stands for to themselves. -/
theorem checkedLeaf_flat
    {a never bits below va : ℕ} (hnever : 48 ≤ never) (hbelow : below ≤ 2)
    (ha : BlockAttributes a) (hva : va < 2 ^ bits) (hbits : bits ≤ 48) :
    checkedLeaf never bits (va / entrySize below * entrySize below + a) below va =
      some (flatLeaf never a va) := by
  have hle : va / entrySize below * entrySize below ≤ va := Nat.div_mul_le_self _ _
  have hva48 : va < 2 ^ 48 :=
    lt_of_lt_of_le hva (Nat.pow_le_pow_right (by decide) hbits)
  have hbase : va / entrySize below * entrySize below < 2 ^ 48 := by omega
  have haligned :
      va / entrySize below * entrySize below % entrySize below = 0 :=
    Nat.mul_mod_left _ _
  have hpage : va / entrySize below * entrySize below % 4096 = 0 := by
    have hsize : entrySize below = 4096 * 2 ^ (9 * below) := by
      rw [entrySize, pow_add]
      norm_num
    rw [hsize, ← Nat.mul_assoc, Nat.mul_right_comm, Nat.mul_mod_left]
  have hoffset :
      va / entrySize below * entrySize below + va % entrySize below = va := by
    rw [Nat.mul_comm]
    exact Nat.div_add_mod va _
  have hleaf :
      leaf never (va / entrySize below * entrySize below + a) below va =
        flatLeaf never a va := by
    rw [flatLeaf, leaf, field_flat hbelow ha.addressFree hbase haligned, hoffset,
      field_flat_low (by decide) hpage, field_flat_low (by decide) hpage,
      field_flat_low (by decide) hpage,
      field_flat_high hnever ha.addressFree hbase hpage]
  rw [checkedLeaf, hleaf, field_flat_low (by decide) hpage, ha.accessFlag]
  exact if_pos ⟨rfl, hva⟩

/-- A walk that ends at a flat block maps the address to itself. -/
theorem walk_flat_block
    {memory : ℕ → ℕ} {never bits below table va a : ℕ} (hnever : 48 ≤ never)
    (hbelow : below ≤ 1) (ha : BlockAttributes a) (hva : va < 2 ^ bits)
    (hbits : bits ≤ 48)
    (hentry :
      memory (table + 8 * index (below + 1) va) =
        va / entrySize (below + 1) * entrySize (below + 1) + a) :
    walk memory never bits (below + 1) table va =
      some (flatLeaf never a va) := by
  have htype : memory (table + 8 * index (below + 1) va) % 4 = 1 := by
    have hsize : entrySize (below + 1) = 4 * (1024 * 2 ^ (9 * (below + 1))) := by
      rw [entrySize, pow_add]
      ring
    have hmult :
        va / entrySize (below + 1) * entrySize (below + 1) =
          4 * (va / entrySize (below + 1) * (1024 * 2 ^ (9 * (below + 1)))) := by
      rw [hsize]
      ring
    rw [hentry, hmult, Nat.mul_add_mod, ha.type]
  rw [walk_block hbelow htype, hentry]
  exact checkedLeaf_flat hnever (by omega) ha hva hbits

end Stage1
