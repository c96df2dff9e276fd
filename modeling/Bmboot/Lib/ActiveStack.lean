import Mathlib.Data.Finset.Card
import Mathlib.Order.Defs.LinearOrder

/-!
# Handlers that preempt each other

An interrupt preempts the handlers that are active only if it is more urgent
than all of them, so that the active interrupts form a stack whose levels grow
strictly outwards; a smaller level is more urgent.  This module is independent
of any particular interrupt controller: the items of the stack are arbitrary,
and a function gives their levels.

An `ActiveStack` carries its order.  The depth of such a stack is bounded by the
number of levels in use, whatever the items are.
-/

namespace Preemption

variable {α κ L : Type*} [LinearOrder L]

/-- The active interrupts, innermost first. -/
structure ActiveStack (level : α → L) where
  active : List α
  nested : active.Pairwise fun a b => level a < level b

namespace ActiveStack

variable {level : α → L}

def empty : ActiveStack level where
  active := []
  nested := .nil

/-- An interrupt of level `l` is more urgent than every active one. -/
def Preempts (s : ActiveStack level) (l : L) : Prop :=
  ∀ a ∈ s.active, l < level a

instance (s : ActiveStack level) (l : L) : Decidable (s.Preempts l) :=
  inferInstanceAs (Decidable (∀ a ∈ s.active, _))

def push (s : ActiveStack level) (a : α) (h : s.Preempts (level a)) :
    ActiveStack level where
  active := a :: s.active
  nested := .cons h s.nested

/-- The innermost interrupt ends. -/
def pop (s : ActiveStack level) : ActiveStack level where
  active := s.active.tail
  nested := s.nested.tail

@[simp] theorem active_empty : (empty : ActiveStack level).active = [] := rfl

@[simp] theorem active_push (s : ActiveStack level) (a : α)
    (h : s.Preempts (level a)) : (s.push a h).active = a :: s.active := rfl

@[simp] theorem active_pop (s : ActiveStack level) :
    s.pop.active = s.active.tail := rfl

/-- The levels of a stack are all different. -/
theorem nodup_levels (s : ActiveStack level) : (s.active.map level).Nodup := by
  rw [List.Nodup, List.pairwise_map]
  exact s.nested.imp fun hlt => hlt.ne

/-- A stack is at most as deep as there are levels in use. -/
theorem length_le_card (s : ActiveStack level) {levels : Finset L}
    (hlevels : ∀ a ∈ s.active, level a ∈ levels) :
    s.active.length ≤ levels.card := by
  have hsubset : (s.active.map level).toFinset ⊆ levels := by
    intro l hl
    obtain ⟨a, ha, rfl⟩ := List.mem_map.mp (List.mem_toFinset.mp hl)
    exact hlevels a ha
  calc s.active.length
      = (s.active.map level).length := (List.length_map level).symm
    _ = (s.active.map level).toFinset.card :=
        (List.toFinset_card_of_nodup s.nodup_levels).symm
    _ ≤ levels.card := Finset.card_le_card hsubset

/-- Whatever can still preempt a stack finds a level that is not in use. -/
theorem length_lt_card (s : ActiveStack level) {levels : Finset L} {l : L}
    (hlevels : ∀ a ∈ s.active, level a ∈ levels)
    (hl : l ∈ levels) (hpreempts : s.Preempts l) :
    s.active.length < levels.card := by
  have hrest : s.active.length ≤ (levels.erase l).card := by
    apply s.length_le_card
    intro a ha
    exact Finset.mem_erase.mpr ⟨(hpreempts a ha).ne', hlevels a ha⟩
  have hcard := Finset.card_erase_lt_of_mem hl
  omega

/-- Where the items of one key all have one level, no key is active twice. -/
theorem nodup_keys (s : ActiveStack level) (key : α → κ) (f : κ → L)
    (hkey : ∀ a ∈ s.active, level a = f (key a)) :
    (s.active.map key).Nodup := by
  have hlevels : (s.active.map key).map f = s.active.map level := by
    rw [List.map_map]
    exact List.map_congr_left fun a ha => (hkey a ha).symm
  apply List.Nodup.of_map f
  rw [hlevels]
  exact s.nodup_levels

end ActiveStack

end Preemption
