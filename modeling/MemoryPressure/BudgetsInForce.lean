import MemoryPressure.Run

/-!
# Budgets in force (`runtime.cpp`)

`set_budget` checks a budget before it is set, and an entry carries the budget in
force when its domain was last observed. Between the two there is time: a budget may have
been replaced or cleared while an entry that bears it is still published, retained from an
earlier refresh.

- `budgetsValid_run`: every budget set or published passes its check. This includes the
  default budget, which governs nothing and is in force where none is set.
- `sharedBudget_run`: entries under one id carry one budget. An id that is observed twice
  has both entries made under the budget of that refresh, and an entry is retained only if
  its id was not observed at all.

Both are invariants of runs and support for the modules on reserves, relief and admission,
which start from what the budget of a published entry looks like.
-/

namespace MemoryPressure

variable {F : Type} [Double F]

/-! ## Checked budgets -/

/-- Every budget set in a runtime, and every budget it has published, passes its
check. -/
structure BudgetsValid (rt : PressureRuntime F) : Prop where
  set : ∀ d b, rt.budgets.lookup d = some b → validateBudget b = none
  published : ∀ ds ∈ rt.currentSnapshot.domains, validateBudget ds.budget = none

/-- The budget in force for a domain passes its check if the one set does. -/
theorem validateBudget_effectiveBudget {budget : Option Budget}
    (h : ∀ b ∈ budget, validateBudget b = none) :
    validateBudget (effectiveBudget budget) = none := by
  cases budget with
  | none => exact validateBudget_defaultBudget
  | some b =>
    show validateBudget (if b.hardCapacity ≠ 0 then b else defaultBudget) = none
    split_ifs
    · exact h b rfl
    · exact validateBudget_defaultBudget

theorem budgetsValid_init : BudgetsValid (PressureRuntime.init : PressureRuntime F) where
  set := fun _ _ h => by cases h
  published := fun _ h => by cases h

/-- **Only checked budgets get into a runtime**, whatever is called. -/
theorem budgetsValid_step {rt : PressureRuntime F} (h : BudgetsValid rt) (op : Op F) :
    BudgetsValid (step rt op).1 where
  set := by
    cases op with
    | setBudget id b =>
      show ∀ d b', (rt.setBudget id b).budgets.lookup d = some b' → _
      unfold PressureRuntime.setBudget
      split_ifs with hbad
      · exact h.set
      · intro d b' hb'
        by_cases hd : d = id
        · subst hd
          obtain rfl : b = b' := Option.some.inj ((Finmap.lookup_insert rt.budgets).symm.trans hb')
          simpa using hbad
        · exact h.set d b' ((Finmap.lookup_insert_of_ne _ hd).symm.trans hb')
    | clearBudget id =>
      intro d b hb
      by_cases hd : d = id
      · subst hd
        cases (Finmap.lookup_erase d rt.budgets).symm.trans hb
      · exact h.set d b ((Finmap.lookup_erase_ne hd).symm.trans hb)
    | setPolicy p =>
      show ∀ d b, (rt.setPolicy p).budgets.lookup d = some b → _
      rw [rt.setPolicy_eq p]
      exact h.set
    | setHistoryLimit | registerProvider => exact h.set
    | refresh nowMs polls =>
      show ∀ d b, (rt.refresh nowMs polls).1.budgets.lookup d = some b → _
      rcases rt.refresh_cases nowMs polls with ⟨log, hlog⟩ | ⟨-, log, heq⟩
      · rw [hlog.refresh_eq]
        exact h.set
      · rw [heq]
        exact h.set
  published :=
    -- observed now: the budget in force; carried over: the one it was published with
    entries_step (fun _ _ sight => validateBudget_effectiveBudget (h.set sight.2.id))
      (fun _ _ hds => hds) (fun _ _ hds => hds) h.published op

theorem budgetsValid_run (ops : List (Op F)) : BudgetsValid (runFrom PressureRuntime.init ops) :=
  Machine.run_invariant step (fun _ op _ h => budgetsValid_step h op) budgetsValid_init

/-! ## One budget for one id -/

/-- Entries under one id have one budget. -/
def SharedBudget (s : Snapshot F) : Prop :=
  ∀ x ∈ s.domains, ∀ y ∈ s.domains, x.id = y.id → x.governed = y.governed ∧ x.budget = y.budget

open PressureRuntime

/-- What an observation makes of a domain has the budget in force for its id. -/
theorem budget_fresh {pol : PressurePolicy F} {budgets : Budgets} {rt : PressureRuntime F}
    {nowMs : UInt64} {log : PollLog F} {ds : DomainState F}
    (h : ds ∈ (interpreted pol budgets rt nowMs log).2) :
    ds.id ∈ observedIds log ∧ ds.governed = isGoverned (budgets.lookup ds.id) ∧
      ds.budget = effectiveBudget (budgets.lookup ds.id) := by
  have hid : ds.id ∈ (interpreted pol budgets rt nowMs log).2.map DomainState.id :=
    List.mem_map_of_mem h
  rw [interpreted_ids] at hid
  refine ⟨hid, ?_⟩
  exact Keyed.feed_forall_outputs _ _ (interpretStep pol budgets nowMs)
    (Q := fun ds => ds.governed = isGoverned (budgets.lookup ds.id) ∧
      ds.budget = effectiveBudget (budgets.lookup ds.id))
    (fun _ _ => ⟨rfl, rfl⟩) log.sightings rt.domainStates ds h

/-- A refresh retains only what it did not observe, so entries under one id come
from one budget. -/
theorem sharedBudget_published {rt : PressureRuntime F} (h : SharedBudget rt.currentSnapshot)
    {pol : PressurePolicy F} {budgets : Budgets} {nowMs : UInt64} {log : PollLog F} :
    SharedBudget (published pol budgets rt nowMs log).snapshot := by
  intro x₀ hx₀ y₀ hy₀ hid
  obtain ⟨x, hx, rfl⟩ := List.mem_map.mp hx₀
  obtain ⟨y, hy, rfl⟩ := List.mem_map.mp hy₀
  change x.id = y.id at hid
  show x.governed = y.governed ∧ x.budget = y.budget
  have hretained : ∀ z, z ∈ (rt.currentSnapshot.domains.filter
        (retains log.health (observedIds log))).map (keeper nowMs) → z.id ∉ observedIds log ∧
      ∃ pd ∈ rt.currentSnapshot.domains, z = keeper nowMs pd := by
    intro z hz
    obtain ⟨pd, hpd, rfl⟩ := List.mem_map.mp hz
    obtain ⟨hold, hkeep⟩ := List.mem_filter.mp hpd
    exact ⟨by simpa [retains] using (Bool.and_eq_true_iff.mp hkeep).1, pd, hold, rfl⟩
  rw [swept_domains, List.mem_append] at hx hy
  -- both observed now, or both carried over: no id is both
  rcases hx with hx | hx
  · obtain ⟨hseen, hgov, hbudget⟩ := budget_fresh hx
    rcases hy with hy | hy
    · obtain ⟨-, hgov', hbudget'⟩ := budget_fresh hy
      rw [hgov, hgov', hbudget, hbudget', hid]
      exact ⟨rfl, rfl⟩
    · exact absurd (hid ▸ hseen) (hretained y hy).1
  · obtain ⟨hunseen, px, hpx, rfl⟩ := hretained x hx
    rcases hy with hy | hy
    · exact absurd (hid ▸ (budget_fresh hy).1) hunseen
    · obtain ⟨-, py, hpy, rfl⟩ := hretained y hy
      exact h px hpx py hpy hid

/-- **Entries under one id carry one budget**, along every run. -/
theorem sharedBudget_run (ops : List (Op F)) :
    SharedBudget (runFrom PressureRuntime.init ops).currentSnapshot := by
  refine Machine.run_invariant step ?_
    (I := fun rt => SharedBudget rt.currentSnapshot) fun _ h => by cases h
  intro rt op _ h
  rcases step_current rt op with hcur | ⟨nowMs, polls, log, -, -, hcur⟩
  · rw [hcur]
    exact h
  · rw [hcur]
    exact sharedBudget_published h

end MemoryPressure
