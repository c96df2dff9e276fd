import Bmboot.Lib.ByteMemory
import Mathlib.Data.Nat.Basic

/-!
# The layout of C structures

Members are placed in the order of their declaration, each at the next offset
that its alignment admits, and a structure is as large as its alignment asks.
`Layout` keeps what follows from it as fields: the members lie inside the
structure and do not overlap.  Structures may be members of structures.

The second part is about a structure in a byte memory.  A store to a part of one
member changes those bytes of that member, and nothing else.  This module is
independent of any particular structure.
-/

namespace CLayout

open ByteMemory

/-- The size and alignment of a type. -/
structure CType where
  size : ℕ
  align : ℕ
  align_pos : 0 < align

namespace CType

/-- An integer or pointer, aligned to its size. -/
def scalar (size : ℕ) (h : 0 < size) : CType :=
  { size := size, align := size, align_pos := h }

def array (t : CType) (length : ℕ) : CType :=
  { size := length * t.size, align := t.align, align_pos := t.align_pos }

end CType

/-- The next multiple of the alignment. -/
def alignUp (align n : ℕ) : ℕ := (n + (align - 1)) / align * align

theorem le_alignUp {align : ℕ} (h : 0 < align) (n : ℕ) : n ≤ alignUp align n := by
  have hdiv := Nat.div_add_mod (n + (align - 1)) align
  have hmod := Nat.mod_lt (n + (align - 1)) h
  rw [alignUp, Nat.mul_comm]
  omega

/-! ## Structures -/

/-- The places of the members of a structure. -/
structure Layout (ι : Type*) where
  offset : ι → ℕ
  size : ι → ℕ
  total : ℕ
  align : ℕ
  align_pos : 0 < align
  within : ∀ i, offset i + size i ≤ total
  apart : ∀ i j, i ≠ j →
    offset i + size i ≤ offset j ∨ offset j + size j ≤ offset i

namespace Layout

variable {ι : Type*}

def type (l : Layout ι) : CType :=
  { size := l.total, align := l.align, align_pos := l.align_pos }

section Struct

variable [DecidableEq ι] (type : ι → CType)

/-- The offset of a member, where the members in the list are placed from `start`
on. -/
def place : ℕ → List ι → ι → ℕ
  | start, [], _ => start
  | start, j :: js, i =>
      let offset := alignUp (type j).align start
      if i = j then offset else place (offset + (type j).size) js i

/-- Where the last of the members ends. -/
def finish : ℕ → List ι → ℕ
  | start, [] => start
  | start, j :: js => finish (alignUp (type j).align start + (type j).size) js

omit [DecidableEq ι] in
theorem le_finish (start : ℕ) (order : List ι) : start ≤ finish type start order := by
  induction order generalizing start with
  | nil => exact le_refl start
  | cons j js ih =>
      have halign := le_alignUp (type j).align_pos start
      have hrest := ih (alignUp (type j).align start + (type j).size)
      rw [finish]
      omega

theorem le_place (start : ℕ) (order : List ι) (i : ι) :
    start ≤ place type start order i := by
  induction order generalizing start with
  | nil => exact le_refl start
  | cons j js ih =>
      have halign := le_alignUp (type j).align_pos start
      rw [place]
      split
      · exact halign
      · have hrest := ih (alignUp (type j).align start + (type j).size)
        omega

theorem place_add_le {order : List ι} {i : ι} (hi : i ∈ order) (start : ℕ) :
    place type start order i + (type i).size ≤ finish type start order := by
  induction order generalizing start with
  | nil => cases hi
  | cons j js ih =>
      rw [place, finish]
      split
      next heq =>
        rw [heq]
        exact le_finish type _ js
      next hne => exact ih ((List.mem_cons.mp hi).resolve_left hne) _

theorem place_apart {order : List ι} {i j : ι} (hi : i ∈ order) (hj : j ∈ order)
    (hij : i ≠ j) (start : ℕ) :
    place type start order i + (type i).size ≤ place type start order j ∨
      place type start order j + (type j).size ≤ place type start order i := by
  induction order generalizing start with
  | nil => cases hi
  | cons k ks ih =>
      simp only [place]
      by_cases hik : i = k
      · rw [if_pos hik, if_neg (fun hjk => hij (hik.trans hjk.symm)), hik]
        exact .inl (le_place type _ ks j)
      · by_cases hjk : j = k
        · rw [if_neg hik, if_pos hjk, hjk]
          exact .inr (le_place type _ ks i)
        · rw [if_neg hik, if_neg hjk]
          exact ih ((List.mem_cons.mp hi).resolve_left hik)
            ((List.mem_cons.mp hj).resolve_left hjk) _

/-- The largest alignment of the members. -/
def maxAlign (order : List ι) : ℕ :=
  order.foldr (fun i align => max (type i).align align) 1

omit [DecidableEq ι] in
theorem maxAlign_pos (order : List ι) : 0 < maxAlign type order := by
  cases order with
  | nil => exact Nat.one_pos
  | cons i is => exact Nat.lt_of_lt_of_le (type i).align_pos (Nat.le_max_left _ _)

/-- A structure with all its members in the order of declaration. -/
def struct (order : List ι) (hall : ∀ i, i ∈ order) : Layout ι where
  offset := place type 0 order
  size := fun i => (type i).size
  total := alignUp (maxAlign type order) (finish type 0 order)
  align := maxAlign type order
  align_pos := maxAlign_pos type order
  within := fun i =>
    (place_add_le type (hall i) 0).trans (le_alignUp (maxAlign_pos type order) _)
  apart := fun _ _ hij => place_apart type (hall _) (hall _) hij 0

end Struct

/-- A structure of structures, down to the inner members. -/
def nest (outer : Layout ι) {κ : ι → Type*} (inner : ∀ i, Layout (κ i))
    (hfits : ∀ i, (inner i).total ≤ outer.size i) : Layout (Σ i, κ i) where
  offset := fun m => outer.offset m.1 + (inner m.1).offset m.2
  size := fun m => (inner m.1).size m.2
  total := outer.total
  align := outer.align
  align_pos := outer.align_pos
  within := by
    rintro ⟨i, k⟩
    have houter := outer.within i
    have hinner := (inner i).within k
    have hfit := hfits i
    simp only
    omega
  apart := by
    rintro ⟨i, k⟩ ⟨j, l⟩ hne
    by_cases hij : i = j
    · subst hij
      have hkl : k ≠ l := fun h => hne (h ▸ rfl)
      have happart := (inner i).apart k l hkl
      simp only
      omega
    · have happart := outer.apart i j hij
      have hi := (inner i).within k
      have hj := (inner j).within l
      have hfiti := hfits i
      have hfitj := hfits j
      simp only
      omega

/-! ## Structures in memory -/

variable {w : ℕ} (l : Layout ι) (m : Memory w) (base : BitVec w)

/-- The bytes of a member. -/
def bytes (i : ι) : List UInt8 :=
  read m (base + BitVec.ofNat w (l.offset i)) (l.size i)

/-- A store to a member, `k` bytes behind its beginning. -/
def store (i : ι) (k : ℕ) (data : List UInt8) : Memory w :=
  write m (base + BitVec.ofNat w (l.offset i + k)) data

@[simp] theorem length_bytes (i : ι) : (l.bytes m base i).length = l.size i :=
  length_read _ _ _

variable {l m base} {i j : ι} {k : ℕ} {data : List UInt8}

/-- Bytes before and behind a store are left alone. -/
theorem write_outside
    {n : ℕ} (hlt : n < 2 ^ w) (hn : n + data.length ≤ 2 ^ w) {a : BitVec w}
    (h : (a - base).toNat < n ∨ n + data.length ≤ (a - base).toNat) :
    write m (base + BitVec.ofNat w n) data a = m a := by
  apply write_of_le
  rw [toNat_sub_add base a hlt.le]
  split <;> omega

theorem read_write_apart
    {n p size : ℕ} (hlt : n < 2 ^ w) (hn : n + data.length ≤ 2 ^ w)
    (hp : p + size ≤ 2 ^ w) (h : p + size ≤ n ∨ n + data.length ≤ p) :
    read (write m (base + BitVec.ofNat w n) data) (base + BitVec.ofNat w p) size =
      read m (base + BitVec.ofNat w p) size := by
  apply read_congr
  intro x hx
  apply write_outside hlt hn
  rw [add_ofNat_add, toNat_add_sub base (by omega)]
  omega

section Stores

variable (hw : l.total < 2 ^ w)
include hw

theorem store_outside {a : BitVec w} (hk : k + data.length ≤ l.size i)
    (h : (a - base).toNat < l.offset i ∨
      l.offset i + l.size i ≤ (a - base).toNat) :
    l.store m base i k data a = m a := by
  have hwithin := l.within i
  apply write_outside <;> omega

theorem bytes_store_of_ne (hk : k + data.length ≤ l.size i) (hij : j ≠ i) :
    l.bytes (l.store m base i k data) base j = l.bytes m base j := by
  have hi := l.within i
  have hj := l.within j
  have happart := l.apart j i hij
  apply read_write_apart <;> omega

omit hw in
/-- A member is what stands before an offset, the bytes from there, and what
stands behind them. -/
theorem bytes_eq_append {n : ℕ} (hk : k + n ≤ l.size i) :
    l.bytes m base i =
      read m (base + BitVec.ofNat w (l.offset i)) k ++
        read m (base + BitVec.ofNat w (l.offset i + k)) n ++
        read m (base + BitVec.ofNat w (l.offset i + (k + n))) (l.size i - (k + n)) := by
  have hsize : l.size i = k + n + (l.size i - (k + n)) := by omega
  rw [← add_ofNat_add, ← add_ofNat_add base (l.offset i) (k + n), ← read_add,
    ← read_add, ← hsize]
  rfl

theorem bytes_store_self (hk : k + data.length ≤ l.size i) :
    l.bytes (l.store m base i k data) base i =
      (l.bytes m base i).take k ++ data ++
        (l.bytes m base i).drop (k + data.length) := by
  have hwithin := l.within i
  have hbefore : read (l.store m base i k data)
      (base + BitVec.ofNat w (l.offset i)) k =
        read m (base + BitVec.ofNat w (l.offset i)) k := by
    apply read_write_apart <;> omega
  have hat : read (l.store m base i k data)
      (base + BitVec.ofNat w (l.offset i + k)) data.length = data :=
    read_write _ _ (by omega)
  have hbehind : read (l.store m base i k data)
      (base + BitVec.ofNat w (l.offset i + (k + data.length)))
        (l.size i - (k + data.length)) =
      read m (base + BitVec.ofNat w (l.offset i + (k + data.length)))
        (l.size i - (k + data.length)) := by
    apply read_write_apart <;> omega
  have hold : l.bytes m base i = _ := bytes_eq_append hk
  have htake : (l.bytes m base i).take k =
      read m (base + BitVec.ofNat w (l.offset i)) k := by
    rw [hold, List.append_assoc]
    exact List.take_left' (length_read _ _ _)
  have hdrop : (l.bytes m base i).drop (k + data.length) =
      read m (base + BitVec.ofNat w (l.offset i + (k + data.length)))
        (l.size i - (k + data.length)) := by
    rw [hold]
    exact List.drop_left' (by simp)
  rw [bytes_eq_append hk, hbefore, hat, hbehind, htake, hdrop]

/-- A store to a whole member. -/
theorem bytes_store_all (hall : data.length = l.size i) :
    l.bytes (l.store m base i 0 data) base i = data := by
  rw [bytes_store_self hw (by omega), List.take_zero, List.nil_append,
    List.drop_of_length_le, List.append_nil]
  rw [length_bytes]
  omega

end Stores

end Layout

end CLayout
