import Bmboot.Gic.InterruptController

/-!
# One interrupt at a time

The words of the distributor hold the bits of 32 or 16 interrupts.  This module
compares what each operation of `GICD` (`gicv2.hpp`) does to the interrupt it
names, and to all others, with what it is meant to do.
-/

namespace Bmboot

open RegisterBank

/-- The number of interrupt ids that the banks of bytes cover. -/
def gicInterruptCount : ℕ := 1020

namespace Gicd

/-! ## The state of one interrupt -/

def pending (d : Gicd) (id : ℤ) : Bool :=
  bit d.pendr (id.tdiv 32) (id.tmod 32).toNat

/-- The upper bit of the field of the interrupt in `ICFGR`. -/
def edgeTriggered (d : Gicd) (id : ℤ) : Bool :=
  bit d.icfgr (id.tdiv 16) ((id.tmod 16 * 2).toNat + 1)

/-- What the distributor holds of one interrupt. -/
@[ext] structure Status where
  inGroup1 : Bool
  edgeTriggered : Bool
  enabled : Bool
  pending : Bool
  active : Bool
  priority : BitVec 8
  targets : BitVec 8
  deriving DecidableEq

def status (d : Gicd) (id : ℤ) : Status where
  inGroup1 := d.inGroup1 id
  edgeTriggered := d.edgeTriggered id
  enabled := d.enabled id
  pending := d.pending id
  active := d.active id
  priority := d.ipriorityr id
  targets := d.itargetsr id

/-! ## The operations -/

inductive Operation
  | setGroup (group : ℤ)
  | setTriggerEdge
  | setTriggerLevel
  | setEnable
  | clearEnable
  | clearPending
  | clearActive
  deriving DecidableEq

def Operation.run (d : Gicd) (id : ℤ) : Operation → Gicd
  | .setGroup group => d.setGroup id group
  | .setTriggerEdge => d.setTriggerEdge id
  | .setTriggerLevel => d.setTriggerLevel id
  | .setEnable => d.setEnable id
  | .clearEnable => d.clearEnable id
  | .clearPending => d.clearPending id
  | .clearActive => d.clearActive id

/-- What an operation is for. -/
def Operation.purpose (st : Status) : Operation → Status
  | .setGroup group => { st with inGroup1 := group ≠ 0 }
  | .setTriggerEdge => { st with edgeTriggered := true }
  | .setTriggerLevel => { st with edgeTriggered := false }
  | .setEnable => { st with enabled := true }
  | .clearEnable => { st with enabled := false }
  | .clearPending => { st with pending := false }
  | .clearActive => { st with active := false }

/-- The operation does what it is for, and nothing to any other interrupt. -/
structure Operation.AffectsOnlyOwn (op : Operation) (d : Gicd)
    (id : Fin gicInterruptCount) : Prop where
  own : (op.run d id).status id = op.purpose (d.status id)
  others : ∀ id' : Fin gicInterruptCount, id' ≠ id →
    (op.run d id).status id' = d.status id'

/-- The interrupts whose fields share the word of `ICFGR`, other than the
interrupt itself, are level-sensitive. -/
def LevelNeighbours (d : Gicd) (id : Fin gicInterruptCount) : Prop :=
  ∀ id' : Fin gicInterruptCount, id' ≠ id → id'.val / 16 = id.val / 16 →
    d.edgeTriggered id' = false

end Gicd

/-- The configuration of an interrupt changes no other interrupt. -/
def ConfiguresOnlyOwn (irq : Interrupts) (id : Fin gicInterruptCount)
    (trigger : InterruptTrigger) (targetCpu : ℕ) (group : InterruptGroup)
    (priority : ℤ) : Prop :=
  ∀ id' : Fin gicInterruptCount, id' ≠ id →
    (irq.configureSharedPeripheralInterruptAndRouteToCpu id trigger targetCpu
      group priority).gicd.status id' = irq.gicd.status id'

/-! ## Places -/

namespace Gicd

section Operations

variable (d : Gicd) {id id' : ℤ}

/-- Different interrupts have different places in a bank of 16 each. -/
theorem triggerPlace_eq_iff (h : 0 ≤ id) (h' : 0 ≤ id') :
    id'.tdiv 16 = id.tdiv 16 ∧
        (id'.tmod 16 * 2).toNat + 1 = (id.tmod 16 * 2).toNat + 1 ↔
      id' = id := by
  rw [Int.tdiv_eq_ediv_of_nonneg h, Int.tdiv_eq_ediv_of_nonneg h',
    Int.tmod_eq_emod_of_nonneg h, Int.tmod_eq_emod_of_nonneg h']
  omega

theorem triggerPlace_lt (h : 0 ≤ id) : (id.tmod 16 * 2).toNat + 1 < 32 := by
  rw [Int.tmod_eq_emod_of_nonneg h]
  omega

theorem pending_clearPending (h : 0 ≤ id) (h' : 0 ≤ id') :
    (d.clearPending id).pending id' = (d.pending id' && !decide (id' = id)) := by
  have hbit := bit_clearMask d.pendr (id.tdiv 32) (id'.tdiv 32)
    (k := (id.tmod 32).toNat) (place_lt h')
  rw [decide_place_eq h h'] at hbit
  exact hbit

theorem active_clearActive (h : 0 ≤ id) (h' : 0 ≤ id') :
    (d.clearActive id).active id' = (d.active id' && !decide (id' = id)) := by
  have hbit := bit_clearMask d.activer (id.tdiv 32) (id'.tdiv 32)
    (k := (id.tmod 32).toNat) (place_lt h')
  rw [decide_place_eq h h'] at hbit
  exact hbit

theorem active_clearActive_of_false (h' : 0 ≤ id')
    (hactive : d.active id' = false) : (d.clearActive id).active id' = false := by
  have hbit := bit_clearMask d.activer (id.tdiv 32) (id'.tdiv 32)
    (k := (id.tmod 32).toNat) (place_lt h')
  have hfalse : bit d.activer (id'.tdiv 32) (id'.tmod 32).toNat = false :=
    hactive
  rw [hfalse, Bool.false_and] at hbit
  exact hbit

theorem edgeTriggered_setTriggerEdge (h : 0 ≤ id) (h' : 0 ≤ id') :
    (d.setTriggerEdge id).edgeTriggered id' =
      (d.edgeTriggered id' || decide (id' = id)) := by
  have hbit := bit_setMask d.icfgr (id.tdiv 16) (id'.tdiv 16)
    (k := (id.tmod 16 * 2).toNat + 1) (triggerPlace_lt h')
  rw [decide_eq_decide.mpr (triggerPlace_eq_iff h h'), ← triggerMask_eq] at hbit
  exact hbit

/-- The mask is not complemented: the bit of the interrupt stays, and those of
the others in its word are cleared. -/
theorem edgeTriggered_setTriggerLevel (h : 0 ≤ id) (h' : 0 ≤ id') :
    (d.setTriggerLevel id).edgeTriggered id' =
      (d.edgeTriggered id' &&
        !decide (id'.tdiv 16 = id.tdiv 16 ∧ id' ≠ id)) := by
  have hbit := bit_keepMask d.icfgr (id.tdiv 16) (id'.tdiv 16)
    (k := (id.tmod 16 * 2).toNat + 1) (triggerPlace_lt h')
  rw [← triggerMask_eq] at hbit
  have hplace : id'.tdiv 16 = id.tdiv 16 ∧
      (id'.tmod 16 * 2).toNat + 1 ≠ (id.tmod 16 * 2).toNat + 1 ↔
        id'.tdiv 16 = id.tdiv 16 ∧ id' ≠ id :=
    and_congr_right fun hword => not_congr
      ⟨fun hk => (triggerPlace_eq_iff h h').mp ⟨hword, hk⟩,
        fun hid => ((triggerPlace_eq_iff h h').mpr hid).2⟩
  rw [decide_eq_decide.mpr hplace] at hbit
  exact hbit

end Operations

/-! ## What the operations do -/

section Status

variable (d : Gicd) {id id' : ℤ}

/-- All operations but one do exactly what they are for. -/
theorem status_run
    {op : Operation} (hop : op ≠ .setTriggerLevel)
    (h : 0 ≤ id) (h' : 0 ≤ id') :
    (op.run d id).status id' =
      if id' = id then op.purpose (d.status id') else d.status id' := by
  cases op with
  | setGroup group =>
      have hgroup := d.inGroup1_setGroup group h h'
      have hstatus : ((Operation.setGroup group).run d id).status id' =
          { d.status id' with
            inGroup1 := (d.setGroup id group).inGroup1 id' } := rfl
      rw [hstatus, hgroup]
      by_cases hid : id' = id
      · rw [if_pos hid, if_pos hid]
        rfl
      · rw [if_neg hid, if_neg hid]
        rfl
  | setTriggerEdge =>
      have hstatus : (Operation.setTriggerEdge.run d id).status id' =
          { d.status id' with
            edgeTriggered := (d.setTriggerEdge id).edgeTriggered id' } := rfl
      rw [hstatus, d.edgeTriggered_setTriggerEdge h h']
      by_cases hid : id' = id <;> simp [hid, Operation.purpose, status]
  | setTriggerLevel => exact absurd rfl hop
  | setEnable =>
      have hstatus : (Operation.setEnable.run d id).status id' =
          { d.status id' with enabled := (d.setEnable id).enabled id' } := rfl
      rw [hstatus, d.enabled_setEnable h h']
      by_cases hid : id' = id <;> simp [hid, Operation.purpose, status]
  | clearEnable =>
      have hstatus : (Operation.clearEnable.run d id).status id' =
          { d.status id' with enabled := (d.clearEnable id).enabled id' } := rfl
      rw [hstatus, d.enabled_clearEnable h h']
      by_cases hid : id' = id <;> simp [hid, Operation.purpose, status]
  | clearPending =>
      have hstatus : (Operation.clearPending.run d id).status id' =
          { d.status id' with pending := (d.clearPending id).pending id' } := rfl
      rw [hstatus, d.pending_clearPending h h']
      by_cases hid : id' = id <;> simp [hid, Operation.purpose, status]
  | clearActive =>
      have hstatus : (Operation.clearActive.run d id).status id' =
          { d.status id' with active := (d.clearActive id).active id' } := rfl
      rw [hstatus, d.active_clearActive h h']
      by_cases hid : id' = id <;> simp [hid, Operation.purpose, status]

theorem status_setTriggerLevel (h : 0 ≤ id) (h' : 0 ≤ id') :
    (d.setTriggerLevel id).status id' =
      { d.status id' with
        edgeTriggered := d.edgeTriggered id' &&
          !decide (id'.tdiv 16 = id.tdiv 16 ∧ id' ≠ id) } := by
  rw [← d.edgeTriggered_setTriggerLevel h h']
  rfl

end Status

section Ids

variable (d : Gicd) {id id' : Fin gicInterruptCount}

theorem natCast_eq_iff : ((id' : ℕ) : ℤ) = (id : ℕ) ↔ id' = id := by
  rw [Int.ofNat_inj, Fin.val_inj]

theorem tdiv_natCast_eq_iff :
    ((id' : ℕ) : ℤ).tdiv 16 = ((id : ℕ) : ℤ).tdiv 16 ↔
      id'.val / 16 = id.val / 16 := by
  rw [Int.tdiv_eq_ediv_of_nonneg (Int.natCast_nonneg _),
    Int.tdiv_eq_ediv_of_nonneg (Int.natCast_nonneg _)]
  omega

/-- What `setTriggerLevel` leaves of another interrupt. -/
theorem status_setTriggerLevel_eq_iff (hne : id' ≠ id) :
    (d.setTriggerLevel id).status id' = d.status id' ↔
      (id'.val / 16 = id.val / 16 → d.edgeTriggered id' = false) := by
  have hcast : ((id' : ℕ) : ℤ) ≠ (id : ℕ) := fun h => hne (natCast_eq_iff.mp h)
  have hplace : decide (((id' : ℕ) : ℤ).tdiv 16 = ((id : ℕ) : ℤ).tdiv 16 ∧
      ((id' : ℕ) : ℤ) ≠ (id : ℕ)) = decide (id'.val / 16 = id.val / 16) :=
    decide_eq_decide.mpr ((and_iff_left hcast).trans tdiv_natCast_eq_iff)
  rw [d.status_setTriggerLevel (Int.natCast_nonneg _) (Int.natCast_nonneg _),
    hplace, Status.ext_iff]
  by_cases hword : id'.val / 16 = id.val / 16
  · simp [hword, status]
  · simp [hword, status]

theorem status_setTriggerLevel_self :
    (d.setTriggerLevel id).status id = d.status id := by
  rw [d.status_setTriggerLevel (Int.natCast_nonneg _) (Int.natCast_nonneg _)]
  simp [status]

theorem affectsOnlyOwn_of_ne
    {op : Operation} (hop : op ≠ .setTriggerLevel) :
    op.AffectsOnlyOwn d id := by
  constructor
  · rw [status_run d hop (Int.natCast_nonneg _) (Int.natCast_nonneg _),
      if_pos rfl]
  · intro id' hne
    rw [status_run d hop (Int.natCast_nonneg _) (Int.natCast_nonneg _),
      if_neg fun h => hne (natCast_eq_iff.mp h)]

/-- `setTriggerLevel` changes nothing of its own interrupt. -/
theorem affectsOnlyOwn_setTriggerLevel_iff :
    Operation.setTriggerLevel.AffectsOnlyOwn d id ↔
      d.edgeTriggered id = false ∧ d.LevelNeighbours id := by
  have hown : (d.setTriggerLevel id).status id =
      Operation.setTriggerLevel.purpose (d.status id) ↔
        d.edgeTriggered id = false := by
    rw [status_setTriggerLevel_self, Status.ext_iff]
    simp [Operation.purpose, status]
  constructor
  · intro honly
    refine ⟨hown.mp honly.own, ?_⟩
    intro id' hne
    exact (d.status_setTriggerLevel_eq_iff hne).mp (honly.others id' hne)
  · rintro ⟨hlevel, hneighbours⟩
    refine ⟨hown.mpr hlevel, ?_⟩
    intro id' hne
    exact (d.status_setTriggerLevel_eq_iff hne).mpr (hneighbours id' hne)

end Ids

end Gicd

/-! ## Configuration -/

section Configuration

variable (irq : Interrupts) {id id' : ℤ} (group : InterruptGroup)

theorem status_setGroupForInterruptChannel
    (h : 0 ≤ id) (h' : 0 ≤ id') (hne : id' ≠ id) :
    (irq.setGroupForInterruptChannel id group).gicd.status id' =
      irq.gicd.status id' := by
  have hop : Gicd.Operation.setGroup (if group = .group0FiqEl3 then 0 else 1) ≠
      .setTriggerLevel := nofun
  rw [Interrupts.setGroupForInterruptChannel_gicd]
  exact (Gicd.status_run irq.gicd hop h h').trans (if_neg hne)

/-- Another interrupt after a configuration: only the trigger matters. -/
theorem status_configureSharedPeripheralInterruptAndRouteToCpu
    (trigger : InterruptTrigger) (targetCpu : ℕ) (priority : ℤ)
    (h : 0 ≤ id) (h' : 0 ≤ id') (hne : id' ≠ id) :
    (irq.configureSharedPeripheralInterruptAndRouteToCpu id trigger targetCpu
        group priority).gicd.status id' =
      (Interrupts.setTrigger irq.gicd id trigger).status id' := by
  let irq₁ := irq.setGroupForInterruptChannel id group
  let d₁ := irq₁.gicd.writePriority id (BitVec.ofInt 8 priority)
  let d₂ := d₁.writeTargets id (1#8 <<< targetCpu)
  have hbytes : d₂.status id' = irq₁.gicd.status id' := by
    refine Gicd.Status.ext rfl rfl rfl rfl rfl ?_ ?_
    · exact Function.update_of_ne hne _ _
    · exact Function.update_of_ne hne _ _
  have hbefore : d₂.status id' = irq.gicd.status id' :=
    hbytes.trans (status_setGroupForInterruptChannel irq group h h' hne)
  have hafter : (irq.configureSharedPeripheralInterruptAndRouteToCpu id trigger
      targetCpu group priority).gicd = Interrupts.setTrigger d₂ id trigger := rfl
  rw [hafter]
  cases trigger with
  | unchanged => exact hbefore
  | edge =>
      have hop : Gicd.Operation.setTriggerEdge ≠ .setTriggerLevel := nofun
      have hedge := fun d : Gicd => d.status_run hop h h'
      exact (hedge d₂).trans ((if_neg hne).trans
        (hbefore.trans ((hedge irq.gicd).trans (if_neg hne)).symm))
  | level =>
      have hlevel := fun d : Gicd => d.status_setTriggerLevel h h'
      have hword : d₂.edgeTriggered id' = irq.gicd.edgeTriggered id' :=
        congrArg Gicd.Status.edgeTriggered hbefore
      refine (hlevel d₂).trans (Eq.trans ?_ (hlevel irq.gicd).symm)
      rw [hbefore, hword]

end Configuration

theorem configuresOnlyOwn_iff
    (irq : Interrupts) (id : Fin gicInterruptCount)
    (trigger : InterruptTrigger) (targetCpu : ℕ) (group : InterruptGroup)
    (priority : ℤ) :
    ConfiguresOnlyOwn irq id trigger targetCpu group priority ↔
      (trigger = .level → irq.gicd.LevelNeighbours id) := by
  have hstatus : ∀ id' : Fin gicInterruptCount, id' ≠ id →
      (irq.configureSharedPeripheralInterruptAndRouteToCpu id trigger targetCpu
          group priority).gicd.status id' =
        (Interrupts.setTrigger irq.gicd id trigger).status id' := by
    intro id' hne
    exact status_configureSharedPeripheralInterruptAndRouteToCpu irq group
      trigger targetCpu priority (Int.natCast_nonneg _) (Int.natCast_nonneg _)
        fun h => hne (Gicd.natCast_eq_iff.mp h)
  cases trigger with
  | unchanged => exact iff_of_true hstatus nofun
  | edge =>
      refine iff_of_true ?_ nofun
      intro id' hne
      have honly : Gicd.Operation.setTriggerEdge.AffectsOnlyOwn irq.gicd id :=
        irq.gicd.affectsOnlyOwn_of_ne nofun
      exact (hstatus id' hne).trans (honly.others id' hne)
  | level =>
      constructor
      · intro honly _ id' hne
        rw [← irq.gicd.status_setTriggerLevel_eq_iff hne]
        exact (hstatus id' hne).symm.trans (honly id' hne)
      · intro hneighbours id' hne
        refine (hstatus id' hne).trans ?_
        exact (irq.gicd.status_setTriggerLevel_eq_iff hne).mpr
          (hneighbours rfl id' hne)

/-- Every operation affects its own interrupt only and does what it is for,
except that `setTriggerLevel` does so exactly when all interrupts in the word
are level-sensitive already; and a configuration changes no other interrupt,
except that one with a level trigger does so exactly when the other interrupts
in the word are level-sensitive. -/
theorem affectsOnlyOwn_iff_level
    (irq : Interrupts) (id : Fin gicInterruptCount) :
    (∀ op : Gicd.Operation, op.AffectsOnlyOwn irq.gicd id ↔
      (op = .setTriggerLevel → irq.gicd.edgeTriggered id = false ∧
        irq.gicd.LevelNeighbours id)) ∧
    ∀ trigger targetCpu group priority,
      ConfiguresOnlyOwn irq id trigger targetCpu group priority ↔
        (trigger = .level → irq.gicd.LevelNeighbours id) := by
  refine ⟨?_, configuresOnlyOwn_iff irq id⟩
  intro op
  by_cases hop : op = .setTriggerLevel
  · subst hop
    refine irq.gicd.affectsOnlyOwn_setTriggerLevel_iff.trans ?_
    exact ⟨fun h _ => h, fun h => h rfl⟩
  · exact iff_of_true (irq.gicd.affectsOnlyOwn_of_ne hop) fun h => absurd h hop

/-- Interrupts 121 and 122 are edge-triggered, and 121 is to become
level-sensitive. -/
theorem not_affectsOnlyOwn_setTriggerLevel :
    ¬∀ (op : Gicd.Operation) (d : Gicd) (id : Fin gicInterruptCount),
      op.AffectsOnlyOwn d id := by
  intro honly
  let d := (Interrupts.reset.gicd.setTriggerEdge 121).setTriggerEdge 122
  have hothers := (honly .setTriggerLevel d ⟨121, by decide⟩).others
    ⟨122, by decide⟩ (by decide)
  have hedge := congrArg Gicd.Status.edgeTriggered hothers
  exact absurd hedge (by decide)

end Bmboot
