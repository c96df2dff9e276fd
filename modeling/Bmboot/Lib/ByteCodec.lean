import Mathlib.Algebra.Order.Ring.Nat
import Mathlib.Data.List.Basic

/-!
# Little-endian words in byte strings

Words are written as their bytes, least significant first, and read off the
front of a byte string together with the rest of it.  This module is
independent of any particular format.
-/

namespace ByteCodec

/-- A reader takes a value off the front of a byte string. -/
abbrev Reader (α : Type*) := List UInt8 → Option (α × List UInt8)

/-- The reader gives back every value that the writer has written. -/
def Reads {α : Type*} (read : Reader α) (write : α → List UInt8) : Prop :=
  ∀ x rest, read (write x ++ rest) = some (x, rest)

/-! ## Numbers -/

/-- The `n` low bytes of a number. -/
def leBytes : ℕ → ℕ → List UInt8
  | 0, _ => []
  | n + 1, x => UInt8.ofNat x :: leBytes n (x / 256)

def leNat : List UInt8 → ℕ
  | [] => 0
  | b :: bytes => b.toNat + 256 * leNat bytes

@[simp] theorem length_leBytes (n x : ℕ) : (leBytes n x).length = n := by
  induction n generalizing x with
  | zero => rfl
  | succ n ih => simp [leBytes, ih]

/-- The low bytes and the ones above them. -/
theorem leBytes_add (n k x : ℕ) :
    leBytes (n + k) x = leBytes n x ++ leBytes k (x / 256 ^ n) := by
  induction n generalizing x with
  | zero => simp [leBytes]
  | succ n ih =>
      rw [Nat.succ_add, leBytes, ih, leBytes, Nat.div_div_eq_div_mul,
        Nat.pow_succ, Nat.mul_comm 256, List.cons_append]

theorem leNat_leBytes (n x : ℕ) : leNat (leBytes n x) = x % 256 ^ n := by
  induction n generalizing x with
  | zero => simp [leBytes, leNat, Nat.mod_one]
  | succ n ih =>
      have hbyte : (UInt8.ofNat x).toNat = x % 256 := by simp
      rw [leBytes, leNat, ih, hbyte, Nat.pow_succ, Nat.mul_comm (256 ^ n),
        Nat.mod_mul]

theorem leBytes_leNat (bytes : List UInt8) :
    leBytes bytes.length (leNat bytes) = bytes := by
  induction bytes with
  | nil => rfl
  | cons b bytes ih =>
      have hlt : b.toNat < 256 := b.toNat_lt
      have hlow : UInt8.ofNat (b.toNat + 256 * leNat bytes) = b := by
        apply UInt8.toNat_inj.mp
        rw [UInt8.toNat_ofNat']
        omega
      have hhigh : (b.toNat + 256 * leNat bytes) / 256 = leNat bytes := by omega
      rw [List.length_cons, leNat, leBytes, hlow, hhigh, ih]

/-! ## Readers -/

/-- Take `n` bytes. -/
def takeBytes (n : ℕ) : Reader (List UInt8) := fun bytes =>
  if n ≤ bytes.length then some (bytes.take n, bytes.drop n) else none

/-- Take a word of `n` bytes. -/
def takeWord (w n : ℕ) : Reader (BitVec w) := fun bytes =>
  (takeBytes n bytes).map fun (word, rest) => (BitVec.ofNat w (leNat word), rest)

/-- The bytes of a word. -/
def wordBytes {w : ℕ} (n : ℕ) (x : BitVec w) : List UInt8 := leBytes n x.toNat

@[simp] theorem length_wordBytes {w : ℕ} (n : ℕ) (x : BitVec w) :
    (wordBytes n x).length = n :=
  length_leBytes n _

theorem takeBytes_append (bytes rest : List UInt8) :
    takeBytes bytes.length (bytes ++ rest) = some (bytes, rest) := by
  simp [takeBytes]

theorem takeBytes_append_of_length
    {n : ℕ} {bytes : List UInt8} (h : bytes.length = n) (rest : List UInt8) :
    takeBytes n (bytes ++ rest) = some (bytes, rest) := by
  subst h
  exact takeBytes_append bytes rest

/-- Bytes are those of the word they make up. -/
theorem wordBytes_ofNat_leNat
    {w n : ℕ} {bytes : List UInt8} (hlength : bytes.length = n)
    (h : w = 8 * n) : wordBytes n (BitVec.ofNat w (leNat bytes)) = bytes := by
  subst hlength
  have hpow : 2 ^ w = 256 ^ bytes.length := by
    rw [h, Nat.pow_mul]
  have hmod : leNat bytes % 256 ^ bytes.length = leNat bytes := by
    rw [← leNat_leBytes, leBytes_leNat]
  rw [wordBytes, BitVec.toNat_ofNat, hpow, hmod, leBytes_leNat]

/-- A word is read off its bytes. -/
theorem ofNat_leNat_wordBytes {w n : ℕ} (h : w = 8 * n) (x : BitVec w) :
    BitVec.ofNat w (leNat (wordBytes n x)) = x := by
  have hpow : 256 ^ n = 2 ^ w := by
    rw [h, Nat.pow_mul]
  have hlt : x.toNat < 256 ^ n := by
    rw [hpow]
    exact x.isLt
  rw [wordBytes, leNat_leBytes, Nat.mod_eq_of_lt hlt, BitVec.ofNat_toNat,
    BitVec.setWidth_eq]

theorem takeWord_append
    {w n : ℕ} (h : w = 8 * n) (x : BitVec w) (rest : List UInt8) :
    takeWord w n (wordBytes n x ++ rest) = some (x, rest) := by
  rw [takeWord, takeBytes_append_of_length (length_wordBytes n x)]
  change some (BitVec.ofNat w (leNat (wordBytes n x)), rest) = _
  rw [ofNat_leNat_wordBytes h]

theorem takeWord_bind
    {β : Type} {w n : ℕ} (h : w = 8 * n) (x : BitVec w) (rest : List UInt8)
    (next : BitVec w × List UInt8 → Option β) :
    (takeWord w n (wordBytes n x ++ rest) >>= next) = next (x, rest) := by
  rw [takeWord_append h x rest, Option.bind_eq_bind, Option.bind_some]

/-- Take a number of values of one kind. -/
def takeMany {α : Type*} (read : Reader α) : ℕ → Reader (List α)
  | 0, bytes => some ([], bytes)
  | n + 1, bytes => do
      let (x, rest) ← read bytes
      let (xs, rest) ← takeMany read n rest
      some (x :: xs, rest)

theorem Reads.takeMany
    {α : Type*} {read : Reader α} {write : α → List UInt8}
    (h : Reads read write) (xs : List α) (rest : List UInt8) :
    ByteCodec.takeMany read xs.length (xs.flatMap write ++ rest) =
      some (xs, rest) := by
  induction xs with
  | nil => rfl
  | cons x xs ih =>
      simp [ByteCodec.takeMany, List.append_assoc, h x, ih]

theorem length_flatMap_of_const
    {α : Type*} {write : α → List UInt8} {n : ℕ}
    (h : ∀ x, (write x).length = n) (xs : List α) :
    (xs.flatMap write).length = n * xs.length := by
  induction xs with
  | nil => simp
  | cons x xs ih =>
      rw [List.flatMap_cons, List.length_append, h x, ih, List.length_cons,
        Nat.mul_succ, Nat.add_comm]

/-! ## Parts of a byte string -/

/-- The bytes from `offset` on, `size` of them, if they are there. -/
def slice (file : List UInt8) (offset size : ℕ) : Option (List UInt8) :=
  if offset + size ≤ file.length then some ((file.drop offset).take size)
  else none

theorem slice_append_append (before bytes after : List UInt8) :
    slice (before ++ (bytes ++ after)) before.length bytes.length =
      some bytes := by
  have hle : before.length + bytes.length ≤
      (before ++ (bytes ++ after)).length := by
    simp only [List.length_append]
    omega
  rw [slice, if_pos hle, List.drop_left, List.take_left]

end ByteCodec
