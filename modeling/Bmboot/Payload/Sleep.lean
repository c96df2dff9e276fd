import Mathlib.Algebra.Order.Ring.Nat

/-!
# Sleeping

`sleep` and `usleep` (`sleep.cpp`) on the counter of the built-in timer.  The
end of the wait is a value of the counter, computed in 64 bits from the duration
and the frequency and rounded up so as never to sleep shorter than requested.
-/

namespace Bmboot

def divideRoundingUp (dividend divisor : BitVec 64) : BitVec 64 :=
  (dividend + divisor - 1) / divisor

/-- The `end` of `usleep`. -/
def usleepEnd (useconds : BitVec 64) (frequency : BitVec 32)
    (start : BitVec 64) : BitVec 64 :=
  start + divideRoundingUp (useconds * frequency.zeroExtend 64) 1000000

/-- The wait loop of `usleep` over what `getBuiltinTimerValue` returns from turn
to turn, with the value it leaves at. -/
def waitFor (stop : BitVec 64) : List (BitVec 64) → Option (BitVec 64)
  | [] => none
  | value :: rest => if value < stop then waitFor stop rest else some value

inductive SleepCall
  | sleep (seconds : BitVec 32)
  | usleep (useconds : BitVec 64)

/-- What `usleep` is called with. -/
def SleepCall.useconds : SleepCall → BitVec 64
  | .sleep seconds => seconds.zeroExtend 64 * 1000000
  | .usleep useconds => useconds

/-- The requested microseconds, as a number. -/
def SleepCall.microseconds : SleepCall → ℕ
  | .sleep seconds => seconds.toNat * 1000000
  | .usleep useconds => useconds.toNat

/-- A call at some frequency and counter value, the exact end value of which
fits in 64 bits. -/
structure SleepRequest where
  call : SleepCall
  frequency : BitVec 32
  start : BitVec 64
  frequency_pos : 0 < frequency.toNat
  fits : start.toNat * 1000000 + call.microseconds * frequency.toNat ≤
    (2 ^ 64 - 1) * 1000000

namespace SleepRequest

/-- The requested time in millionths of a tick. -/
def exact (r : SleepRequest) : ℕ :=
  r.call.microseconds * r.frequency.toNat

def stop (r : SleepRequest) : BitVec 64 :=
  usleepEnd r.call.useconds r.frequency r.start

/-- Whatever the counter shows from its start value on, the call does not return
before the requested time has passed, and it waits for less than one tick more
than that. -/
def NeverShort (r : SleepRequest) : Prop :=
  (∀ (readings : List (BitVec 64)) (value : BitVec 64),
    (r.start :: readings).Pairwise (· ≤ ·) →
      waitFor r.stop readings = some value →
        r.exact ≤ (value.toNat - r.start.toNat) * 1000000) ∧
    r.stop.toNat * 1000000 < r.start.toNat * 1000000 + r.exact + 1000000

end SleepRequest

/-! ## The end value -/

theorem le_of_waitFor {stop value : BitVec 64} {readings : List (BitVec 64)}
    (h : waitFor stop readings = some value) : stop ≤ value := by
  induction readings with
  | nil => simp [waitFor] at h
  | cons reading rest ih =>
      rw [waitFor] at h
      split at h
      · exact ih h
      · rename_i hlt
        obtain rfl : reading = value := Option.some.inj h
        exact BitVec.not_lt.mp hlt

theorem SleepCall.useconds_toNat (c : SleepCall) :
    c.useconds.toNat = c.microseconds := by
  cases c with
  | usleep useconds => rfl
  | sleep seconds =>
      have hlt := seconds.isLt
      have hnumeral : (1000000 : BitVec 64).toNat = 1000000 := by decide
      have hseconds : (seconds.zeroExtend 64).toNat = seconds.toNat := by
        rw [BitVec.toNat_setWidth]
        exact Nat.mod_eq_of_lt (by omega)
      rw [SleepCall.useconds, SleepCall.microseconds, BitVec.toNat_mul,
        hnumeral, hseconds]
      exact Nat.mod_eq_of_lt (by omega)

theorem divideRoundingUp_toNat (dividend : BitVec 64) :
    (divideRoundingUp dividend 1000000).toNat =
      (dividend.toNat + 999999) % 2 ^ 64 / 1000000 := by
  have hnumerals : (999999 : BitVec 64).toNat = 999999 ∧
      (1000000 : BitVec 64).toNat = 1000000 := by decide
  have hsub : dividend + 1000000 - 1 = dividend + 999999 := by
    rw [BitVec.sub_eq_add_neg, BitVec.add_assoc]
    exact congrArg (dividend + ·) (by decide)
  rw [divideRoundingUp, hsub, BitVec.toNat_udiv, BitVec.toNat_add,
    hnumerals.1, hnumerals.2]

section Stop

variable (r : SleepRequest)

/-- The product and the addend of the rounding wrap together, and the final sum
does not. -/
theorem SleepRequest.stop_toNat :
    r.stop.toNat = r.start.toNat + (r.exact + 999999) % 2 ^ 64 / 1000000 := by
  have hfits := r.fits
  have hproduct : (r.call.useconds * r.frequency.zeroExtend 64).toNat =
      r.exact % 2 ^ 64 := by
    have hlt := r.frequency.isLt
    rw [BitVec.toNat_mul, SleepCall.useconds_toNat]
    simp only [BitVec.truncate_eq_setWidth, BitVec.toNat_setWidth]
    rw [Nat.mod_eq_of_lt (by omega : r.frequency.toNat < 2 ^ 64)]
    rfl
  have hwrap : (r.exact % 2 ^ 64 + 999999) % 2 ^ 64 =
      (r.exact + 999999) % 2 ^ 64 := Nat.mod_add_mod _ _ _
  rw [SleepRequest.stop, usleepEnd, BitVec.toNat_add, divideRoundingUp_toNat,
    hproduct, hwrap]
  apply Nat.mod_eq_of_lt
  change r.start.toNat * 1000000 + r.exact ≤ (2 ^ 64 - 1) * 1000000 at hfits
  have hmod := Nat.mod_le (r.exact + 999999) (2 ^ 64)
  omega

end Stop

/-- No call returns early exactly when the product, with what is added to it for
rounding, stays below `2 ^ 64`. -/
theorem neverShort_iff_product_lt (r : SleepRequest) :
    r.NeverShort ↔
      r.call.microseconds * r.frequency.toNat + 999999 < 2 ^ 64 := by
  change r.NeverShort ↔ r.exact + 999999 < 2 ^ 64
  have hstop := r.stop_toNat
  constructor
  · intro hshort
    apply Nat.lt_of_not_le
    intro hwraps
    -- a counter that shows the end value at once
    have hstart : r.start ≤ r.stop := by
      rw [BitVec.le_def]
      omega
    have hearly := hshort.1 [r.stop] r.stop (by simpa using hstart)
      (by simp [waitFor])
    rw [hstop] at hearly
    omega
  · intro hproduct
    rw [Nat.mod_eq_of_lt hproduct] at hstop
    constructor
    · intro readings value _ hvalue
      have hle := BitVec.le_def.mp (le_of_waitFor hvalue)
      omega
    · omega

/-- `sleep (200000)` at 100 MHz. -/
def longSleep : SleepRequest where
  call := .sleep 200000
  frequency := 100000000
  start := 0
  frequency_pos := by decide
  fits := by decide

theorem not_neverShort_longSleep : ¬∀ r : SleepRequest, r.NeverShort := by
  intro hshort
  have hearly := (hshort longSleep).1 [longSleep.stop] longSleep.stop
    (by decide) (by decide)
  exact absurd hearly (by decide)

end Bmboot
