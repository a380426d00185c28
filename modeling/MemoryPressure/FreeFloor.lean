import MemoryPressure.BudgetsInForce
import MemoryPressure.Headroom

/-!
# The free floor (`budget.h`, `runtime.cpp`)

`minimum_free_reserve` is documented as a floor that must remain free, and as
subtracted from the usable capacity. The check of a budget reads it and nothing
else does: neither `refresh` nor `admit`. What stays free after an admission is
what the reserves hold back and what the level of the domain withholds of the
available bytes; the floor is respected exactly when these cover it
(`free_floor_iff`).

- `withinBudget_run`: the available bytes of a governed entry are what its budget leaves, in
  every snapshot of every run.
- `admissible_add_withheld`: a level splits the available bytes into what it admits and what
  it withholds. So the largest request that is let in leaves what is withheld.
- `FloorCovered`: the condition, on the entry and on the budget it bears. It has two
  entries in it because under an id reported twice `admit` reads the first entry only; where
  an entry is read itself it is one inequality (`floorCovered_self`).
-/

namespace MemoryPressure

variable {F : Type} [Double F]

/-! ## Governed entries -/

/-- The available bytes of a governed entry are what its budget leaves. -/
def WithinBudget (ds : DomainState F) : Prop :=
  ds.governed = true → ds.budget.hardCapacity ≠ 0 ∧
    ds.available.toNat = ds.budget.usableCapacity.toNat - ds.committed.toNat

theorem withinBudget_interpretStep (pol : PressurePolicy F) (budgets : Budgets) (nowMs : UInt64)
    (st : DomainRuntimeState F) (sight : Sighting F) :
    WithinBudget (interpretStep pol budgets nowMs st sight).2 := by
  intro hgov
  change isGoverned (budgets.lookup sight.2.id) = true at hgov
  show (effectiveBudget (budgets.lookup sight.2.id)).hardCapacity ≠ 0 ∧
    _ = (effectiveBudget (budgets.lookup sight.2.id)).usableCapacity.toNat - sight.2.committed.toNat
  rw [toNat_available]
  cases hb : budgets.lookup sight.2.id with
  | none =>
    rw [hb] at hgov
    cases hgov
  | some b =>
    rw [hb] at hgov
    have hne : b.hardCapacity ≠ 0 := by simpa [isGoverned] using hgov
    have hsame : effectiveBudget (some b) = b := if_pos hne
    rw [hsame, usableFor_governed hne]
    exact ⟨hne, rfl⟩

/-- **Every governed entry of a run is within its budget.** -/
theorem withinBudget_run (ops : List (Op F)) :
    ∀ ds ∈ (runFrom PressureRuntime.init ops).currentSnapshot.domains, WithinBudget ds := by
  refine Machine.run_invariant step ?_
    (I := fun rt => ∀ ds ∈ rt.currentSnapshot.domains, WithinBudget ds) fun _ h => by cases h
  intro rt op _ h
  exact entries_step (withinBudget_interpretStep rt.policy rt.budgets) (fun _ _ hds => hds)
    (fun _ _ hds => hds) h op

/-! ## What stays free -/

/-- How much of the available bytes a level keeps back from every request. -/
def withheld (level : PressureLevel) (avail : Nat) : Option Nat :=
  match level with
  | .normal => some 0
  | .elevated => some (avail - avail / 2)
  | .high => some (avail - avail / 4)
  | .critical | .exhausted | .unknown => none

/-- What a level admits and what it withholds make up what is available. -/
theorem admissible_add_withheld (level : PressureLevel) (avail : UInt64) :
    (admissible level avail = none ∧ withheld level avail.toNat = none) ∨
      ∃ bound kept, admissible level avail = some bound ∧ withheld level avail.toNat = some kept ∧
        bound.toNat + kept = avail.toNat := by
  cases level with
  | critical | exhausted | unknown => exact Or.inl ⟨rfl, rfl⟩
  | normal => exact Or.inr ⟨avail, 0, rfl, rfl, rfl⟩
  | elevated =>
    refine Or.inr ⟨avail / 2, avail.toNat - avail.toNat / 2, rfl, rfl, ?_⟩
    rw [UInt64.toNat_div]
    exact Nat.add_sub_cancel' (Nat.div_le_self _ _)
  | high =>
    refine Or.inr ⟨avail / 4, avail.toNat - avail.toNat / 4, rfl, rfl, ?_⟩
    rw [UInt64.toNat_div]
    exact Nat.add_sub_cancel' (Nat.div_le_self _ _)

/-- The floor of a governed entry is covered, when `first` is the entry that
`admit` reads: the level admits nothing, or the reserves, what the level withholds
and what `first` has committed make up the floor and what the entry has committed,
or, where nothing is available, the floor is free beside what is committed. -/
def FloorCovered (first ds : DomainState F) : Prop :=
  ∀ kept ∈ withheld first.level (first.budget.usableCapacity.toNat - first.committed.toNat),
    if first.committed < first.budget.usableCapacity then
      ds.committed.toNat + ds.budget.minimumFreeReserve.toNat
        ≤ first.committed.toNat + (first.budget.reserveBytes.toNat + kept)
    else
      ds.committed.toNat + ds.budget.minimumFreeReserve.toNat ≤ ds.budget.hardCapacity.toNat

instance (first ds : DomainState F) : Decidable (FloorCovered first ds) :=
  inferInstanceAs (Decidable
    (∀ kept ∈ withheld first.level (first.budget.usableCapacity.toNat - first.committed.toNat),
      if first.committed < first.budget.usableCapacity then
        ds.committed.toNat + ds.budget.minimumFreeReserve.toNat
          ≤ first.committed.toNat + (first.budget.reserveBytes.toNat + kept)
      else
        ds.committed.toNat + ds.budget.minimumFreeReserve.toNat ≤ ds.budget.hardCapacity.toNat))

/-- An entry that `admit` reads itself: the reserves and what the level withholds
cover the floor. -/
theorem floorCovered_self {ds : DomainState F} : FloorCovered ds ds ↔
    ∀ kept ∈ withheld ds.level (ds.budget.usableCapacity.toNat - ds.committed.toNat),
      if ds.committed < ds.budget.usableCapacity then
        ds.budget.minimumFreeReserve.toNat ≤ ds.budget.reserveBytes.toNat + kept
      else
        ds.committed.toNat + ds.budget.minimumFreeReserve.toNat ≤ ds.budget.hardCapacity.toNat := by
  unfold FloorCovered
  simp only [Nat.add_le_add_iff_left]

open PressureRuntime

/-- **The free floor is respected, exactly when it is covered**: after every run and for
every governed entry, whatever `admit` lets in under its id leaves the floor free exactly
when it is covered. `admit` reads the first entry under an id, `first`, and compares the
request with what is available of it. The floor is a field of its own that it does not
read, so whether it stays free is a matter of the numbers. -/
theorem free_floor_iff (ops : List (Op F)) (stats : AdmissionStats) {ds : DomainState F}
    (hds : ds ∈ (runFrom PressureRuntime.init ops).currentSnapshot.domains)
    (hgov : ds.governed = true) :
    (∀ n, (admitBytes (some (runFrom PressureRuntime.init ops).currentSnapshot) stats ds.id
          n).1.decision.letsIn = true →
        ds.committed.toNat + n.toNat + ds.budget.minimumFreeReserve.toNat
          ≤ ds.budget.hardCapacity.toNat)
      ↔ ∀ first, (runFrom PressureRuntime.init ops).currentSnapshot.findDomain ds.id = some first →
        FloorCovered first ds := by
  obtain ⟨first, hfirst⟩ := Option.isSome_iff_exists.mp
    (Snapshot.findDomain_isSome.mpr (List.mem_map_of_mem hds))
  obtain ⟨hmem, hid⟩ := Snapshot.findDomain_some hfirst
  obtain ⟨hgoverned, hbudget⟩ := sharedBudget_run ops first hmem ds hds hid
  obtain ⟨hne, havail⟩ := withinBudget_run ops first hmem (hgoverned.trans hgov)
  have hfits := (Budget.validateBudget_iff hne).mp ((budgetsValid_run ops).published first hmem)
  have husable := Budget.toNat_usableCapacity hfits.reserveBytes
  have hres := UInt64.le_iff_toNat_le.mp hfits.reserveBytes
  have honly : (∀ x, (runFrom PressureRuntime.init ops).currentSnapshot.findDomain ds.id = some x →
      FloorCovered x ds) ↔ FloorCovered first ds := by
    rw [hfirst]
    constructor
    · intro h
      exact h first rfl
    · intro h x hx
      exact Option.some.inj hx ▸ h
  rw [honly]
  unfold FloorCovered
  rw [← havail, ← hbudget]
  simp only [(admitBytes_eq hfirst stats _).1, admits_iff]
  rcases admissible_add_withheld first.level first.available with
    ⟨hnone, hnone'⟩ | ⟨bound, kept, hbound, hkept, hsum⟩
  · rw [hnone, hnone']
    exact iff_of_true (fun _ ⟨_, h, _⟩ => by cases h) (fun _ h => by cases h)
  · rw [hbound, hkept]
    -- the largest request let in decides
    have hlargest : (∀ n, (∃ b ∈ some bound, n ≤ b) → ds.committed.toNat + n.toNat
          + first.budget.minimumFreeReserve.toNat ≤ first.budget.hardCapacity.toNat)
        ↔ ds.committed.toNat + bound.toNat + first.budget.minimumFreeReserve.toNat
          ≤ first.budget.hardCapacity.toNat := by
      constructor
      · intro h
        exact h bound ⟨bound, rfl, UInt64.le_refl _⟩
      · rintro h n ⟨b, hb, hle⟩
        obtain rfl := Option.some.inj hb
        have hn := UInt64.le_iff_toNat_le.mp hle
        omega
    rw [hlargest]
    simp only [Option.mem_some_iff, forall_eq']
    split_ifs with hroom
    · rw [UInt64.lt_iff_toNat_lt] at hroom
      omega
    · rw [UInt64.lt_iff_toNat_lt] at hroom
      omega

/-- A host of 100 bytes that is to keep 50 free, with some reserved, and one
refresh of it. -/
def flooredHost (reserved : UInt64) : List (Op ℚ) :=
  [.registerProvider "host",
    .setBudget { high := 0, low := 1 }
      { hardCapacity := 100, emergencyReserveBytes := reserved, minimumFreeReserve := 50 },
    .refresh 1000 [{ name := "host", outcome := .returned { observations :=
      [{ id := { high := 0, low := 1 }, type := .hostMemory, totalCapacity := 100,
         committed := 10 }] } }]]

/-- With 60 bytes reserved the floor is covered: what is let in leaves it free. -/
theorem free_floor_reserved :
    ∃ ds ∈ (runFrom PressureRuntime.init (flooredHost 60)).currentSnapshot.domains,
      ∀ n, (admitBytes (some (runFrom PressureRuntime.init (flooredHost 60)).currentSnapshot) {}
          ds.id n).1.decision.letsIn = true →
        ds.committed.toNat + n.toNat + ds.budget.minimumFreeReserve.toNat
          ≤ ds.budget.hardCapacity.toNat := by
  refine ⟨_, List.mem_singleton_self _, ?_⟩
  refine (free_floor_iff (flooredHost 60) {} (List.mem_singleton_self _) (by decide +kernel)).mpr ?_
  intro first hfirst
  obtain rfl := Option.some.inj hfirst
  exact floorCovered_self.mpr (by decide +kernel)

/-- **Not always**: without reserves all of the 90 available bytes are let in, and
nothing stays free. -/
theorem free_floor_ignored :
    Machine.Along step Legal PressureRuntime.init (flooredHost 0) ∧
      ¬ ∀ ds ∈ (runFrom (PressureRuntime.init : PressureRuntime ℚ)
          (flooredHost 0)).currentSnapshot.domains, ds.governed = true →
        (admitBytes (some (runFrom (PressureRuntime.init : PressureRuntime ℚ)
          (flooredHost 0)).currentSnapshot) {} ds.id 90).1.decision.letsIn = true →
        ds.committed.toNat + 90 + ds.budget.minimumFreeReserve.toNat
          ≤ ds.budget.hardCapacity.toNat := by
  decide +kernel

end MemoryPressure
