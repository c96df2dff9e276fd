import Mathlib.Algebra.Order.Ring.Nat

/-!
# The periodic interrupt of a payload

`setupPeriodicInterrupt`, `startPeriodicInterrupt` and `handleTimerIrq`
(`payload_runtime.cpp`) on the timer of the core.  The first deadline is set
through `CNTP_TVAL_EL0`, of whose value the timer takes the low 32 bits with
their sign, and every further one through `CNTP_CVAL_EL0`.
-/

namespace Bmboot

/-! ## The timer -/

/-- The counter and the registers of the timer, with `timer_period_ticks` and
whether `timer_irq_handler` is set. -/
structure PeriodicTimer where
  counter : BitVec 64
  cval : BitVec 64
  ctl : BitVec 64
  periodTicks : BitVec 64
  handler : Bool

namespace PeriodicTimer

/-- Time passes. -/
def pass (t : PeriodicTimer) (ticks : BitVec 64) : PeriodicTimer :=
  { t with counter := t.counter + ticks }

def writeTval (t : PeriodicTimer) (value : BitVec 64) : PeriodicTimer :=
  { t with cval := t.counter + (value.truncate 32).signExtend 64 }

/-- `setupPeriodicInterrupt`, up to its call of `setupInterruptHandling`. -/
def setupPeriodicInterrupt (t : PeriodicTimer) (periodUs : BitVec 64)
    (cntfrq : BitVec 32) (handler : Bool) : PeriodicTimer :=
  { t with
    periodTicks := periodUs * cntfrq.zeroExtend 64 / 1000000
    handler := handler
    ctl := 0 }

/-- `startPeriodicInterrupt`, from where the interrupt is enabled. -/
def startPeriodicInterrupt (t : PeriodicTimer) : PeriodicTimer :=
  { t.writeTval t.periodTicks with ctl := 1 }

/-- `handleTimerIrq`, with the value it reads from `CNTP_CTL_EL0` and the time
that the user's handler takes. -/
def handleTimerIrq (t : PeriodicTimer) (ctl latency : BitVec 64) :
    PeriodicTimer :=
  if ctl &&& 4 = 0 then t
  else
    let t := if t.handler then t.pass latency else t
    { t with cval := t.cval + t.periodTicks }

end PeriodicTimer

/-- What happens to a timer that has been started. -/
inductive TimerEvent
  | pass (ticks : BitVec 64)
  | irq (ctl latency : BitVec 64)

def PeriodicTimer.step (t : PeriodicTimer) : TimerEvent → PeriodicTimer
  | .pass ticks => t.pass ticks
  | .irq ctl latency => t.handleTimerIrq ctl latency

/-- The timer has signalled the interrupt. -/
def TimerEvent.serviced : TimerEvent → Bool
  | .pass _ => false
  | .irq ctl _ => ctl &&& 4 ≠ 0

/-! ## Deadlines -/

/-- A period in microseconds and a timer frequency in hertz, with fewer than
`2 ^ 62` ticks to the period. -/
structure PeriodRequest where
  periodUs : BitVec 64
  cntfrq : BitVec 32
  ticks_lt : periodUs.toNat * cntfrq.toNat / 1000000 < 2 ^ 62

/-- The ticks of the period, in unbounded integers. -/
def PeriodRequest.ticks (r : PeriodRequest) : ℕ :=
  r.periodUs.toNat * r.cntfrq.toNat / 1000000

/-- Whenever the timer is started and whatever happens then, the deadline after
`n` serviced interrupts is `n + 1` periods after the start. -/
def PeriodRequest.KeepsDeadlines (r : PeriodRequest) : Prop :=
  ∀ (t : PeriodicTimer) (handler : Bool) (events : List TimerEvent),
    let t' := (t.setupPeriodicInterrupt r.periodUs r.cntfrq
      handler).startPeriodicInterrupt
    (events.foldl PeriodicTimer.step t').cval =
      t.counter +
        BitVec.ofNat 64 ((events.countP TimerEvent.serviced + 1) * r.ticks)

namespace PeriodicTimer

section Deadlines

variable {t : PeriodicTimer}

/-- An interrupt that the timer has signalled, whether there is a handler or
not. -/
theorem handleTimerIrq_of_signalled
    {ctl : BitVec 64} (latency : BitVec 64) (h : ¬ctl &&& 4 = 0) :
    ∃ counter, t.handleTimerIrq ctl latency =
      { t with counter := counter, cval := t.cval + t.periodTicks } := by
  rw [PeriodicTimer.handleTimerIrq, if_neg h]
  by_cases hhandler : t.handler = true
  · exact ⟨_, by rw [if_pos hhandler]; rfl⟩
  · exact ⟨_, by rw [if_neg hhandler]⟩

theorem step_periodTicks (e : TimerEvent) :
    (t.step e).periodTicks = t.periodTicks := by
  cases e with
  | pass ticks => rfl
  | irq ctl latency =>
      rw [PeriodicTimer.step]
      by_cases hsignalled : ctl &&& 4 = 0
      · rw [PeriodicTimer.handleTimerIrq, if_pos hsignalled]
      · obtain ⟨counter, h⟩ := handleTimerIrq_of_signalled (t := t) latency hsignalled
        rw [h]

/-- A serviced interrupt moves the deadline by one period, and nothing else
moves it. -/
theorem step_cval (e : TimerEvent) :
    (t.step e).cval = if e.serviced then t.cval + t.periodTicks else t.cval := by
  cases e with
  | pass ticks => rfl
  | irq ctl latency =>
      rw [PeriodicTimer.step]
      by_cases hsignalled : ctl &&& 4 = 0
      · rw [PeriodicTimer.handleTimerIrq, if_pos hsignalled, if_neg]
        simp only [TimerEvent.serviced, hsignalled, ne_eq, not_true_eq_false,
          decide_false, Bool.false_eq_true, not_false_eq_true]
      · obtain ⟨counter, h⟩ := handleTimerIrq_of_signalled (t := t) latency hsignalled
        rw [h, if_pos]
        exact decide_eq_true hsignalled

/-- The deadline after any run of a started timer. -/
theorem foldl_step_cval (events : List TimerEvent) :
    (events.foldl PeriodicTimer.step t).cval =
      t.cval + BitVec.ofNat 64 (events.countP TimerEvent.serviced) *
        t.periodTicks := by
  induction events generalizing t with
  | nil => simp
  | cons e rest ih =>
      rw [List.foldl_cons, ih, step_periodTicks, step_cval, List.countP_cons]
      by_cases hserviced : e.serviced = true
      · simp only [hserviced, if_true, BitVec.ofNat_add, BitVec.add_mul]
        rw [BitVec.add_assoc, BitVec.add_comm t.periodTicks]
        simp
      · simp [hserviced]

end Deadlines

end PeriodicTimer

section Ticks

variable (r : PeriodRequest)

theorem toNat_product_of_lt
    (h : r.ticks < 2 ^ 31) :
    (r.periodUs * r.cntfrq.zeroExtend 64 / 1000000).toNat = r.ticks := by
  have hproduct : r.periodUs.toNat * r.cntfrq.toNat < 2 ^ 64 := by
    simp only [PeriodRequest.ticks] at h
    omega
  have hfreq : (r.cntfrq.zeroExtend 64).toNat = r.cntfrq.toNat := by
    have hlt := r.cntfrq.isLt
    simp only [BitVec.truncate_eq_setWidth, BitVec.toNat_setWidth]
    omega
  rw [BitVec.toNat_udiv, BitVec.toNat_mul, hfreq, Nat.mod_eq_of_lt hproduct]
  rfl

/-- A number of ticks that fits into 32 bits with a sign goes through
`CNTP_TVAL_EL0` unchanged. -/
theorem signExtend_truncate_of_lt {n : ℕ} (h : n < 2 ^ 31) :
    ((BitVec.ofNat 64 n).truncate 32).signExtend 64 = BitVec.ofNat 64 n := by
  apply BitVec.eq_of_toInt_eq
  rw [BitVec.toInt_signExtend_of_le (by decide)]
  simp only [BitVec.toInt_eq_toNat_bmod, BitVec.truncate_eq_setWidth,
    BitVec.toNat_setWidth, BitVec.toNat_ofNat, Int.bmod_def]
  omega

/-- Nothing else does, short of the negative numbers. -/
theorem lt_of_signExtend_eq {x : BitVec 32} {n : ℕ} (hn : n < 2 ^ 62)
    (h : x.signExtend 64 = BitVec.ofNat 64 n) : n < 2 ^ 31 := by
  have hint := congrArg BitVec.toInt h
  have hx := x.toInt_lt
  rw [BitVec.toInt_signExtend_of_le (by decide)] at hint
  simp only [BitVec.toInt_eq_toNat_bmod (BitVec.ofNat 64 n),
    BitVec.toNat_ofNat, Int.bmod_def] at hint
  omega

end Ticks

/-- The deadlines are right exactly when the period has fewer than `2 ^ 31`
ticks. -/
theorem keepsDeadlines_iff_ticks_lt (r : PeriodRequest) :
    r.KeepsDeadlines ↔ r.ticks < 2 ^ 31 := by
  constructor
  · intro hkeeps
    let t : PeriodicTimer :=
      { counter := 0, cval := 0, ctl := 0, periodTicks := 0, handler := false }
    have hfirst := hkeeps t true []
    have htval : ((r.periodUs * r.cntfrq.zeroExtend 64 / 1000000).truncate
        32).signExtend 64 = BitVec.ofNat 64 r.ticks := by
      simpa [PeriodicTimer.startPeriodicInterrupt, PeriodicTimer.writeTval,
        PeriodicTimer.setupPeriodicInterrupt, t] using hfirst
    exact lt_of_signExtend_eq r.ticks_lt htval
  · intro hlt t handler events
    have hticks : r.periodUs * r.cntfrq.zeroExtend 64 / 1000000 =
        BitVec.ofNat 64 r.ticks := by
      rw [← toNat_product_of_lt r hlt, BitVec.ofNat_toNat, BitVec.setWidth_eq]
    simp only
    rw [PeriodicTimer.foldl_step_cval]
    simp only [PeriodicTimer.startPeriodicInterrupt, PeriodicTimer.writeTval,
      PeriodicTimer.setupPeriodicInterrupt]
    rw [hticks, signExtend_truncate_of_lt hlt, BitVec.add_assoc,
      ← BitVec.ofNat_mul, ← BitVec.ofNat_add, Nat.add_mul, Nat.one_mul,
      Nat.add_comm]

/-- A period of 30 seconds at 100 MHz. -/
def halfMinute : PeriodRequest where
  periodUs := 30000000
  cntfrq := 100000000
  ticks_lt := by decide

theorem not_keepsDeadlines_halfMinute :
    ¬∀ r : PeriodRequest, r.KeepsDeadlines := by
  intro hkeeps
  let t : PeriodicTimer :=
    { counter := 0, cval := 0, ctl := 0, periodTicks := 0, handler := false }
  exact absurd (hkeeps halfMinute t true []) (by decide)

end Bmboot
