import Mathlib.Algebra.Group.Nat.Defs
import Mathlib.Tactic.SplitIfs
import MemoryPressure.Budget

/-!
# What the reserves hold back (`budget.h`, `core.cpp`)

`reserve_bytes` adds up the reserves in 64 bits, and `validate_budget` compares
the result with the hard capacity. The sum is the exact one as long as that fits
in 64 bits (`toNat_reserveBytes`); past that it wraps around, and a budget whose
reserves are many times its capacity passes the check (`reserves_held_iff`).

Of a budget that passes, `Fits` says part by part what the check makes sure of. Whether the
reserves are then held back is a question about the exact sum: if it fits in 64 bits, it is
what was compared, and what is usable is the rest of the capacity; if it does not, the
reserves exceed the capacity although the budget has passed its check.
-/

namespace MemoryPressure

/-- A running sum in 64 bits is the exact running sum, modulo 2^64. -/
theorem toNat_foldl_add {α : Type} (f : α → UInt64) (items : List α) {start : UInt64} {exact : Nat}
    (h : start.toNat = exact % 2 ^ 64) :
    (items.foldl (fun total item => total + f item) start).toNat
      = items.foldl (fun total item => total + (f item).toNat) exact % 2 ^ 64 := by
  induction items generalizing start exact with
  | nil => exact h
  | cons item items ih =>
    refine ih ?_
    rw [UInt64.toNat_add, h, Nat.mod_add_mod]

namespace Budget

/-- `reserve_bytes` in exact arithmetic. -/
def reserveTotal (b : Budget) : Nat :=
  b.reserves.foldl (fun total r => total + r.bytes.toNat) b.emergencyReserveBytes.toNat

theorem toNat_reserveBytes (b : Budget) : b.reserveBytes.toNat = b.reserveTotal % 2 ^ 64 :=
  toNat_foldl_add Reserve.bytes b.reserves
    (Nat.mod_eq_of_lt b.emergencyReserveBytes.toNat_lt).symm

/-- What `validate_budget` makes sure of in a governed budget. -/
structure Fits (b : Budget) : Prop where
  softCapacity : ∀ soft, b.softCapacity = some soft → soft ≤ b.hardCapacity
  reserveBytes : b.reserveBytes ≤ b.hardCapacity
  emergencyReserveBytes : b.emergencyReserveBytes ≤ b.hardCapacity
  minimumFreeReserve : b.minimumFreeReserve ≤ b.hardCapacity
  reclaimTarget : b.reclaimTarget ≤ b.hardCapacity
  demotionTarget : b.demotionTarget ≤ b.hardCapacity
  admissionHeadroom : b.admissionHeadroom ≤ b.hardCapacity

/-- **The check of a governed budget**: every part of it is at most its hard
capacity. -/
theorem validateBudget_iff {b : Budget} (hgov : b.hardCapacity ≠ 0) :
    validateBudget b = none ↔ b.Fits := by
  unfold validateBudget
  rw [if_neg hgov]
  constructor
  · intro h
    split_ifs at h with hsoft hres hemergency hfree hreclaim hdemotion hheadroom
    refine ⟨fun soft heq => ?_, UInt64.not_lt.mp hres, UInt64.not_lt.mp hemergency,
      UInt64.not_lt.mp hfree, UInt64.not_lt.mp hreclaim, UInt64.not_lt.mp hdemotion,
      UInt64.not_lt.mp hheadroom⟩
    rw [heq] at hsoft
    exact UInt64.not_lt.mp (of_decide_eq_false (Bool.eq_false_iff.mpr hsoft))
  · intro h
    have hsoft : ¬ b.softCapacity.any (fun soft => soft > b.hardCapacity) = true := by
      cases heq : b.softCapacity with
      | none => exact Bool.false_ne_true
      | some soft => simpa using h.softCapacity soft heq
    rw [if_neg hsoft, if_neg (UInt64.not_lt.mpr h.reserveBytes),
      if_neg (UInt64.not_lt.mpr h.emergencyReserveBytes),
      if_neg (UInt64.not_lt.mpr h.minimumFreeReserve), if_neg (UInt64.not_lt.mpr h.reclaimTarget),
      if_neg (UInt64.not_lt.mpr h.demotionTarget), if_neg (UInt64.not_lt.mpr h.admissionHeadroom)]

/-- What is usable beside reserves that fit. -/
theorem toNat_usableCapacity {b : Budget} (h : b.reserveBytes ≤ b.hardCapacity) :
    b.usableCapacity.toNat = b.hardCapacity.toNat - b.reserveBytes.toNat := by
  unfold usableCapacity
  rw [if_pos h]
  exact UInt64.toNat_sub_of_le _ _ h

end Budget

/-- **A budget holds its reserves, exactly when** their sum fits in 64 bits: of a governed
budget that passes the check, the reserves are then within the hard capacity and the rest
is usable. The check adds the reserves up in 64 bits before it compares the sum with the
capacity. -/
theorem reserves_held_iff {b : Budget} (hvalid : validateBudget b = none)
    (hgov : 0 < b.hardCapacity) :
    (b.reserveTotal ≤ b.hardCapacity.toNat ∧
        b.usableCapacity.toNat = b.hardCapacity.toNat - b.reserveTotal)
      ↔ b.reserveTotal < 2 ^ 64 := by
  have hres := ((Budget.validateBudget_iff (UInt64.pos_iff_ne_zero.mp hgov)).mp hvalid).reserveBytes
  constructor
  · intro h
    exact Nat.lt_of_le_of_lt h.1 b.hardCapacity.toNat_lt
  · intro h
    have hexact : b.reserveBytes.toNat = b.reserveTotal :=
      b.toNat_reserveBytes.trans (Nat.mod_eq_of_lt h)
    refine ⟨hexact ▸ UInt64.le_iff_toNat_le.mp hres, ?_⟩
    rw [Budget.toNat_usableCapacity hres, hexact]

/-- A budget of 1000 bytes with two reserves. -/
def reservedBudget : Budget :=
  { hardCapacity := 1000, emergencyReserveBytes := 100
    reserves := [{ kind := .migration, bytes := 200 }, { kind := .checkpoint, bytes := 300 }] }

/-- `reservedBudget` holds its 600 bytes back. -/
theorem reserves_held_reserved :
    reservedBudget.reserveTotal ≤ reservedBudget.hardCapacity.toNat ∧
      reservedBudget.usableCapacity.toNat
        = reservedBudget.hardCapacity.toNat - reservedBudget.reserveTotal :=
  (reserves_held_iff (b := reservedBudget) (by decide) (by decide)).mpr (by decide)

/-- **Not always**: two reserves of 2^63 bytes each add up to 0, and a budget of
100 bytes that is to hold them passes the check with all of it usable. -/
theorem reserves_not_held :
    let half : Reserve := { bytes := 9223372036854775808 }
    let b : Budget := { hardCapacity := 100, reserves := [half, half] }
    validateBudget b = none ∧ 0 < b.hardCapacity ∧ b.usableCapacity = 100 ∧
      ¬ (b.reserveTotal ≤ b.hardCapacity.toNat ∧
        b.usableCapacity.toNat = b.hardCapacity.toNat - b.reserveTotal) := by
  decide +kernel

end MemoryPressure
