import MemoryPressure.Types

/-!
# Governed budgets (`budget.h`, `core.cpp`)

A budget caps one domain; its reserves are held back from allocation. A budget whose hard
capacity is zero governs nothing. All sums are `std::uint64_t` sums and wrap around as in
the source: `reserve_bytes` adds up reserves of any size, and `usable_capacity` subtracts
them from the hard capacity unless they exceed it.

`validateBudget` is the check `set_budget` makes, with its messages, in the order of the
source. It bounds each reserve and target by the hard capacity, and the sum of the reserves
as well, but the sum as it wraps around: reserves whose true sum exceeds 64 bits can pass
(`Reserves.lean`, `Headroom.lean`).
-/

namespace MemoryPressure

/-- `ReserveKind` (budget.h:21). -/
inductive ReserveKind where
  | emergency | migration | checkpoint | transferStaging | recovery | fragmentation | system
  | application | custom
  deriving DecidableEq, Repr

/-- `Reserve` (budget.h:63). -/
structure Reserve where
  kind : ReserveKind := .custom
  name : String := ""
  bytes : UInt64 := 0
  deriving DecidableEq, Repr

/-- `Budget` (budget.h:74). -/
structure Budget where
  hardCapacity : UInt64 := 0
  softCapacity : Option UInt64 := none
  reserves : List Reserve := []
  emergencyReserveBytes : UInt64 := 0
  minimumFreeReserve : UInt64 := 0
  reclaimTarget : UInt64 := 0
  demotionTarget : UInt64 := 0
  admissionHeadroom : UInt64 := 0
  owner : String := ""
  version : UInt64 := 0
  deriving DecidableEq, Repr

namespace Budget

/-- `Budget::reserve_bytes` (budget.h:89). -/
def reserveBytes (b : Budget) : UInt64 :=
  b.reserves.foldl (fun total r => total + r.bytes) b.emergencyReserveBytes

/-- `Budget::usable_capacity` (budget.h:97). -/
def usableCapacity (b : Budget) : UInt64 :=
  let res := b.reserveBytes
  if b.hardCapacity ≥ res then b.hardCapacity - res else 0

end Budget

/-- `validate_budget` (core.cpp:51): the first problem found, if any. -/
def validateBudget (b : Budget) : Option String :=
  if b.hardCapacity = 0 then
    -- zero hard capacity means "ungoverned"; the soft limit is still checked
    if b.softCapacity.isSome ∧ b.softCapacity ≠ some 0 then
      some "soft capacity set but no hard capacity"
    else none
  else if b.softCapacity.any (fun soft => soft > b.hardCapacity) then
    some "soft capacity exceeds hard capacity"
  else if b.reserveBytes > b.hardCapacity then
    some "reserves exceed hard capacity"
  else if b.emergencyReserveBytes > b.hardCapacity then
    some "emergency reserve exceeds hard capacity"
  else if b.minimumFreeReserve > b.hardCapacity then
    some "minimum free reserve exceeds hard capacity"
  else if b.reclaimTarget > b.hardCapacity then
    some "reclaim target exceeds hard capacity"
  else if b.demotionTarget > b.hardCapacity then
    some "demotion target exceeds hard capacity"
  else if b.admissionHeadroom > b.hardCapacity then
    some "admission headroom exceeds hard capacity"
  else none

/-- `default_budget` (core.cpp:83): ungoverned. -/
def defaultBudget : Budget := { hardCapacity := 0 }

/-- The default budget passes its own check. -/
theorem validateBudget_defaultBudget : validateBudget defaultBudget = none := rfl

end MemoryPressure
