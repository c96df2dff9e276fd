import Bmboot.Lib.RegisterBank
import Mathlib.Data.Set.Insert

/-!
# Register banks with several writers

Agents add bits to a bank of words.  To add a bit an agent reads its word and
later writes the word back with the bit set, and in between other agents may
write the same word.  A bit that has been written is kept by every write-back
of a current copy and lost by the write-back of a copy made before it.  This
module is independent of any particular device.
-/

namespace SharedBank

open RegisterBank

variable {ι ω : Type*} [DecidableEq ι] {n : ℕ}

/-- The place of a bit in a bank. -/
@[ext]
structure Place (ω : Type*) where
  word : ω
  bit : ℕ
  deriving DecidableEq

/-- A bank, the copy that each agent holds of the word to which it is adding a
bit, and the bits that have been written. -/
@[ext]
structure View (ι ω : Type*) (n : ℕ) where
  bank : ω → BitVec n
  held : ι → Option (Place ω × BitVec n)
  written : Set (Place ω)

namespace View

def value (v : View ι ω n) (q : Place ω) : Bool := bit v.bank q.word q.bit

/-- Agent `i` reads the word to which it will add the bit at `p`. -/
def read (v : View ι ω n) (i : ι) (p : Place ω) : View ι ω n :=
  { v with held := Function.update v.held i (some (p, v.bank p.word)) }

/-- Agent `i` writes its copy `w` back with the bit at `p` set. -/
def write [DecidableEq ω] (v : View ι ω n) (i : ι) (p : Place ω) (w : BitVec n) :
    View ι ω n where
  bank := Function.update v.bank p.word (w ||| 1#n <<< p.bit)
  held := Function.update v.held i none
  written := insert p v.written

/-- Every copy is what the bank holds. -/
def Current (v : View ι ω n) : Prop :=
  ∀ i p w, v.held i = some (p, w) → w = v.bank p.word

/-- The bank holds what it held initially and all bits written since. -/
def Complete (init : ω → BitVec n) (v : View ι ω n) : Prop :=
  ∀ q : Place ω, q.bit < n →
    (v.value q = true ↔ bit init q.word q.bit = true ∨ q ∈ v.written)

/-- Bits that have not been written are as they were initially, in the bank and
in every copy. -/
structure Untouched (init : ω → BitVec n) (v : View ι ω n) : Prop where
  bank : ∀ q : Place ω, q ∉ v.written → v.value q = bit init q.word q.bit
  held : ∀ i p w, v.held i = some (p, w) → ∀ q : Place ω, q ∉ v.written →
    q.word = p.word → w.getLsbD q.bit = bit init q.word q.bit

/-- A bit has been written and is neither in the bank nor in any copy. -/
structure Lost (v : View ι ω n) (q : Place ω) : Prop where
  written : q ∈ v.written
  bank : v.value q = false
  held : ∀ i p w, v.held i = some (p, w) → q.word = p.word →
    w.getLsbD q.bit = false

/-! ## Reading -/

section Reads

variable {init : ω → BitVec n} {v : View ι ω n} {i : ι} {p q : Place ω}

theorem held_read {j : ι} {p' : Place ω} {w' : BitVec n}
    (h : (v.read i p).held j = some (p', w')) :
    p' = p ∧ w' = v.bank p.word ∨ v.held j = some (p', w') := by
  by_cases hj : j = i
  · subst hj
    simp only [read, Function.update_self, Option.some.injEq,
      Prod.mk.injEq] at h
    exact .inl ⟨h.1.symm, h.2.symm⟩
  · simp only [read, Function.update_of_ne hj] at h
    exact .inr h

theorem Current.read (hv : v.Current) : (v.read i p).Current := by
  intro j p' w' hheld
  rcases held_read hheld with ⟨rfl, rfl⟩ | hold
  · rfl
  · exact hv j p' w' hold

theorem Complete.read (hv : v.Complete init) :
    (v.read i p).Complete init :=
  hv

theorem Untouched.read (hv : v.Untouched init) :
    (v.read i p).Untouched init := by
  refine ⟨hv.bank, ?_⟩
  intro j p' w' hheld q hq hword
  rcases held_read hheld with ⟨rfl, rfl⟩ | hold
  · rw [← hword]
    exact hv.bank q hq
  · exact hv.held j p' w' hold q hq hword

theorem Lost.read (hv : v.Lost q) : (v.read i p).Lost q := by
  refine ⟨hv.written, hv.bank, ?_⟩
  intro j p' w' hheld hword
  rcases held_read hheld with ⟨rfl, rfl⟩ | hold
  · rw [← hword]
    exact hv.bank
  · exact hv.held j p' w' hold hword

end Reads

/-! ## Writing back -/

section Writes

variable [DecidableEq ω] {init : ω → BitVec n} {v : View ι ω n} {i : ι}
  {p q : Place ω} {w : BitVec n}

theorem held_write {j : ι} {p' : Place ω} {w' : BitVec n}
    (h : (v.write i p w).held j = some (p', w')) :
    j ≠ i ∧ v.held j = some (p', w') := by
  by_cases hj : j = i
  · subst hj
    simp [write] at h
  · simp only [write, Function.update_of_ne hj] at h
    exact ⟨hj, h⟩

theorem value_write_self (hp : p.bit < n) :
    (v.write i p w).value p = true := by
  simp [value, write, bit, getLsbD_one_shiftLeft hp]

/-- A write-back puts the copy in the place of the word. -/
theorem value_write_of_ne (hne : q ≠ p) :
    (v.write i p w).value q =
      if q.word = p.word then w.getLsbD q.bit else v.value q := by
  by_cases hword : q.word = p.word
  · have hbit : q.bit ≠ p.bit := fun heq => hne (Place.ext hword heq)
    rw [if_pos hword]
    by_cases hlt : q.bit < n
    · simp [value, write, bit, hword, getLsbD_one_shiftLeft hlt, hbit]
    · have hge := Nat.le_of_not_lt hlt
      simp [value, write, bit, BitVec.getLsbD_of_ge _ _ hge]
  · simp [value, write, bit, hword]

/-- The write-back of a current copy adds its bit and nothing else. -/
theorem Complete.write
    (hv : v.Complete init) (hw : w = v.bank p.word) :
    (v.write i p w).Complete init := by
  intro q hq
  by_cases hne : q = p
  · subst hne
    exact iff_of_true (value_write_self hq) (.inr (.inl rfl))
  · have hsame : (v.write i p w).value q = v.value q := by
      rw [value_write_of_ne hne]
      split_ifs with hword
      · rw [hw, ← hword]
        rfl
      · rfl
    rw [hsame, hv q hq]
    simp [View.write, hne]

/-- The other copies stay current if the write-back changes nothing or nobody
else holds the word. -/
theorem Current.write
    (hv : v.Current) (hw : w = v.bank p.word)
    (hfree : v.value p = true ∨
      ∀ j, j ≠ i → ∀ p' w', v.held j = some (p', w') → p'.word ≠ p.word) :
    (v.write i p w).Current := by
  intro j p' w' hheld
  obtain ⟨hj, hold⟩ := held_write hheld
  have hcurrent := hv j p' w' hold
  by_cases hword : p'.word = p.word
  · rcases hfree with hset | hothers
    · have hsame : w ||| 1#n <<< p.bit = w := by
        apply BitVec.eq_of_getLsbD_eq
        intro k hk
        rw [BitVec.getLsbD_or, getLsbD_one_shiftLeft hk]
        by_cases hkp : k = p.bit
        · have hbit : w.getLsbD p.bit = true := by
            rw [hw]
            exact hset
          simp [hkp, hbit]
        · simp [hkp]
      have hbank : (v.write i p w).bank p'.word = w ||| 1#n <<< p.bit := by
        rw [hword]
        exact Function.update_self ..
      rw [hbank, hsame, hcurrent, hword, hw]
    · exact absurd hword (hothers j hj p' w' hold)
  · have hbank : (v.write i p w).bank p'.word = v.bank p'.word :=
      Function.update_of_ne hword _ _
    rw [hbank]
    exact hcurrent

theorem Untouched.write
    (hv : v.Untouched init) (hheld : v.held i = some (p, w)) :
    (v.write i p w).Untouched init := by
  constructor
  · intro q hq
    have hne : q ≠ p := fun heq => hq (.inl heq)
    have hold : q ∉ v.written := fun hmem => hq (.inr hmem)
    rw [value_write_of_ne hne]
    split_ifs with hword
    · exact hv.held i p w hheld q hold hword
    · exact hv.bank q hold
  · intro j p' w' hj q hq hword
    have hold : q ∉ v.written := fun hmem => hq (.inr hmem)
    exact hv.held j p' w' (held_write hj).2 q hold hword

/-- A lost bit can only be brought back by writing it again. -/
theorem Lost.write
    (hv : v.Lost q) (hheld : v.held i = some (p, w)) (hne : q ≠ p) :
    (v.write i p w).Lost q := by
  refine ⟨.inr hv.written, ?_, ?_⟩
  · rw [value_write_of_ne hne]
    split_ifs with hword
    · exact hv.held i p w hheld hword
    · exact hv.bank
  · intro j p' w' hj hword
    exact hv.held j p' w' (held_write hj).2 hword

/-- The write-back of a copy that lacks a written bit of its word loses the bit
when nobody holds another copy of the word. -/
theorem lost_of_write
    (hq : q ∈ v.written) (hword : q.word = p.word) (hne : q ≠ p)
    (hbit : w.getLsbD q.bit = false)
    (halone : ∀ j, j ≠ i → ∀ p' w', v.held j = some (p', w') →
      p'.word ≠ p.word) :
    (v.write i p w).Lost q := by
  refine ⟨.inr hq, ?_, ?_⟩
  · rw [value_write_of_ne hne, if_pos hword]
    exact hbit
  · intro j p' w' hj hword'
    obtain ⟨hji, hold⟩ := held_write hj
    exact absurd (hword'.symm.trans hword) (halone j hji p' w' hold)

end Writes

end View

end SharedBank
