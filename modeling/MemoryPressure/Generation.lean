import MemoryPressure.Run

/-!
# The generation counter identifies material state

`refresh` compares only consecutive snapshots: it raises the generation when
`diff_snapshots` finds a difference. This module lifts that to any two
snapshots a run shows.

- `Material`: what a difference is about, as one value per snapshot.
- `any_eq_false_iff`: over distinct ids, `diff_snapshots` finds nothing exactly
  when the two values are equal, so finding nothing is an equivalence.
- `Follows`: how the next snapshot relates to the one before it; `counted_step` is the
  invariant that the counter is the generation of the current snapshot.
- `generation_identifies_material`: same generation, no difference, for any two
  snapshots of a run; generations never decrease, and consecutive ones differ exactly when
  the snapshots do.

A difference is defined by a loop over the domains both snapshots have and two over those
that only one has. To see that it is transitive it is turned into an equality first. That
needs distinct ids, as the loops find entries by id, and a comparison of scores that means
equality (`LawfulBEq`), which `==` on `double` does except for `NaN` and for the two
zeroes.
-/

namespace MemoryPressure

variable {F : Type} [Double F]

/-! ## Material state -/

/-- What `diff_snapshots` compares of one domain. -/
structure Facet where
  level : PressureLevel
  hardCapacity : UInt64
  reserveBytes : UInt64
  deriving DecidableEq, Repr

def DomainState.facet (ds : DomainState F) : Facet where
  level := ds.level
  hardCapacity := ds.budget.hardCapacity
  reserveBytes := ds.budget.reserveBytes

/-- What `diff_snapshots` compares of a whole snapshot. -/
@[ext] structure Material (F : Type) where
  domains : PressureDomainId → Option Facet
  aggregateLevel : PressureLevel
  aggregateScore : F
  policyVersion : UInt64
  providerHealth : Finmap (fun _ : String => ProviderStatus)

/-- The material state of a snapshot. -/
def Snapshot.material (s : Snapshot F) : Material F where
  domains := fun d => (s.findDomain d).map DomainState.facet
  aggregateLevel := s.aggregateLevel
  aggregateScore := s.aggregateScore
  policyVersion := s.policyVersion
  providerHealth := s.providerHealth

theorem Facet.eq_iff {f g : Facet} :
    f = g ↔ f.level = g.level ∧ f.hardCapacity = g.hardCapacity ∧
      f.reserveBytes = g.reserveBytes := by
  rw [Facet.mk.injEq]

/-- The three per-domain lists of a difference are empty exactly when the common
domains have equal facets. -/
theorem facets_unchanged_iff {a b : Snapshot F} :
    ((diffSnapshots a b).levelChanged = [] ∧ (diffSnapshots a b).budgetChanged = [] ∧
        (diffSnapshots a b).reserveChanged = []) ↔
      ∀ ps ∈ commonDomains a b, ps.1.facet = ps.2.facet := by
  simp only [diffSnapshots, List.map_eq_nil_iff, List.filter_eq_nil_iff, decide_eq_true_eq,
    not_not, not_or, Facet.eq_iff, DomainState.facet]
  constructor
  · rintro ⟨hlevel, hbudget, -⟩ ps hps
    exact ⟨hlevel ps hps, (hbudget ps hps).1, (hbudget ps hps).2⟩
  · intro h
    exact ⟨fun ps hps => (h ps hps).1, fun ps hps => (h ps hps).2, fun ps hps => (h ps hps).2.2⟩

/-- Nothing added, nothing removed: the same ids. -/
theorem ids_unchanged_iff {a b : Snapshot F} :
    ((diffSnapshots a b).addedDomains = [] ∧ (diffSnapshots a b).removedDomains = []) ↔
      ∀ d, d ∈ a.ids ↔ d ∈ b.ids := by
  simp only [diffSnapshots, List.map_eq_nil_iff, List.filter_eq_nil_iff, Option.isNone_iff_eq_none,
    Snapshot.findDomain_eq_none, not_not]
  constructor
  · rintro ⟨hadd, hrem⟩ d
    constructor
    · intro hd
      obtain ⟨ds, hds, rfl⟩ := List.mem_map.mp hd
      exact hrem ds hds
    · intro hd
      obtain ⟨ds, hds, rfl⟩ := List.mem_map.mp hd
      exact hadd ds hds
  · intro h
    exact ⟨fun ds hds => (h ds.id).mpr (List.mem_map_of_mem hds),
      fun ds hds => (h ds.id).mp (List.mem_map_of_mem hds)⟩

/-- Equal facets at every id: the same ids, and equal facets where both have one. -/
theorem material_domains_iff {a b : Snapshot F} :
    a.material.domains = b.material.domains ↔
      (∀ d, d ∈ a.ids ↔ d ∈ b.ids) ∧
        ∀ d pa pb, a.findDomain d = some pa → b.findDomain d = some pb → pa.facet = pb.facet := by
  simp only [Snapshot.material, funext_iff, ← Snapshot.findDomain_isSome, ← forall_and]
  refine forall_congr' ?_
  intro d
  cases a.findDomain d <;> cases b.findDomain d <;> simp

/-- **No difference is an equality**: over distinct ids and exact scores,
`diff_snapshots` finds nothing exactly when the material states are equal. -/
theorem any_eq_false_iff [LawfulBEq F] {a b : Snapshot F} (hb : b.ids.Nodup) :
    (diffSnapshots a b).any = false ↔ a.material = b.material := by
  have hdomains := material_domains_iff (a := a) (b := b)
  rw [← ids_unchanged_iff,
    ← forall_commonDomains_iff hb (P := fun pa pb => pa.facet = pb.facet),
    ← facets_unchanged_iff] at hdomains
  rw [Material.ext_iff, hdomains]
  simp only [SnapshotDiff.any, Bool.or_eq_false_iff, Bool.not_eq_false', List.isEmpty_iff]
  simp only [diffSnapshots, Snapshot.material, Bool.or_eq_false_iff, decide_eq_false_iff_not,
    bne_eq_false_iff_eq, not_not]
  tauto

/-! ## Consecutive snapshots -/

/-- How a published snapshot relates to the one published before it. -/
def Follows (a b : Snapshot F) : Prop :=
  if (diffSnapshots a b).any then b.generation = a.generation + 1 else b.generation = a.generation

/-- The counter of the runtime is the generation of its current snapshot, whose
ids are distinct. -/
structure Counted (rt : PressureRuntime F) : Prop where
  generation : rt.generation = rt.currentSnapshot.generation
  distinct : rt.currentSnapshot.ids.Nodup

theorem counted_init : Counted (PressureRuntime.init : PressureRuntime F) :=
  ⟨rfl, List.nodup_nil⟩

/-- **A step keeps the counter**, and what it publishes follows what was current. -/
theorem counted_step {rt : PressureRuntime F} (h : Counted rt) {op : Op F}
    (hop : op.observes.Nodup) : Counted (step rt op).1 ∧
      (((step rt op).2 = [] ∧ (step rt op).1.currentSnapshot = rt.currentSnapshot) ∨
        ∃ pub, (step rt op).2 = [pub] ∧ (step rt op).1.currentSnapshot = pub.snapshot ∧
          Follows rt.currentSnapshot pub.snapshot) := by
  have hdistinct := ids_nodup_step h.distinct hop
  cases op with
  | setPolicy p =>
    have hcurrent := congrArg PressureRuntime.currentSnapshot (rt.setPolicy_eq p)
    refine ⟨⟨?_, hdistinct⟩, Or.inl ⟨rfl, hcurrent⟩⟩
    show (rt.setPolicy p).generation = (rt.setPolicy p).currentSnapshot.generation
    rw [rt.setPolicy_eq p]
    exact h.generation
  | setBudget id b =>
    have hcurrent := congrArg PressureRuntime.currentSnapshot (rt.setBudget_eq id b)
    refine ⟨⟨?_, hdistinct⟩, Or.inl ⟨rfl, hcurrent⟩⟩
    show (rt.setBudget id b).generation = (rt.setBudget id b).currentSnapshot.generation
    rw [rt.setBudget_eq id b]
    exact h.generation
  | clearBudget | setHistoryLimit | registerProvider =>
    exact ⟨⟨h.generation, hdistinct⟩, Or.inl ⟨rfl, rfl⟩⟩
  | refresh nowMs polls =>
    change Counted (rt.refresh nowMs polls).1 ∧ (((rt.refresh nowMs polls).2 = [] ∧
      (rt.refresh nowMs polls).1.currentSnapshot = _) ∨ ∃ pub, (rt.refresh nowMs polls).2 = [pub] ∧
        (rt.refresh nowMs polls).1.currentSnapshot = _ ∧ _)
    change (rt.refresh nowMs polls).1.currentSnapshot.ids.Nodup at hdistinct
    rcases rt.refresh_cases nowMs polls with ⟨log, hlog⟩ | ⟨-, log, heq⟩
    · rw [hlog.refresh_eq] at hdistinct ⊢
      refine ⟨⟨rfl, hdistinct⟩, Or.inr ⟨_, rfl, rfl, ?_⟩⟩
      -- the draft that was compared differs from what is published in its
      -- generation and event count only
      show if PressureRuntime.changed rt.policy rt.budgets rt nowMs log = true then _ else _
      by_cases hc : PressureRuntime.changed rt.policy rt.budgets rt nowMs log = true
      · rw [if_pos hc, ← h.generation]
        exact if_pos hc
      · rw [if_neg hc, ← h.generation]
        exact if_neg hc
    · rw [heq]
      exact ⟨⟨h.generation, h.distinct⟩, Or.inl ⟨rfl, rfl⟩⟩

/-! ## Any two snapshots of a run -/

/-- The snapshots a run shows: the empty one a runtime starts with, then every
published one. -/
def snapshotsOf (ops : List (Op F)) : List (Snapshot F) :=
  (PressureRuntime.init : PressureRuntime F).currentSnapshot ::
    (publishedBy PressureRuntime.init ops).map Published.snapshot

theorem snapshotsOf_follows {ops : List (Op F)} (hops : ∀ op ∈ ops, op.observes.Nodup) :
    (snapshotsOf ops).IsChain fun a b => Follows a b :=
  Machine.chain_outputs step PressureRuntime.currentSnapshot Published.snapshot (I := Counted)
    (fun _ op hop h => counted_step h (hops op hop)) counted_init

theorem snapshotsOf_distinct {ops : List (Op F)} (hops : ∀ op ∈ ops, op.observes.Nodup) :
    ∀ s ∈ snapshotsOf ops, s.ids.Nodup := by
  rw [snapshotsOf, List.forall_mem_cons, List.forall_mem_map]
  refine ⟨List.nodup_nil, ?_⟩
  intro pub hpub
  obtain ⟨pre, op, post, rfl, hmem⟩ := Machine.exists_step_of_mem_outputs step hpub
  have hcounted : Counted (runFrom PressureRuntime.init pre) :=
    Machine.run_invariant step (fun _ op hop h => (counted_step h (hops op (by simp [hop]))).1)
      counted_init
  exact (step_ids_nodup_iff hcounted.distinct op).mpr (hops op (by simp)) pub hmem

/-- Later in the run: a higher generation, or the same one and the same material
state. -/
def LaterThan (a b : Snapshot F) : Prop :=
  a.generation < b.generation ∨ a.generation = b.generation ∧ a.material = b.material

instance : Trans (LaterThan (F := F)) LaterThan LaterThan where
  trans := by
    rintro a b c (hab | ⟨hab, hmab⟩) (hbc | ⟨hbc, hmbc⟩)
    · exact Or.inl (hab.trans hbc)
    · exact Or.inl (hbc ▸ hab)
    · exact Or.inl (hab ▸ hbc)
    · exact Or.inr ⟨hab.trans hbc, hmab.trans hmbc⟩

theorem Follows.laterThan [LawfulBEq F] {a b : Snapshot F} (h : Follows a b) (hb : b.ids.Nodup) :
    LaterThan a b := by
  unfold Follows at h
  -- a difference counts the generation up; without one the material state is kept
  split_ifs at h with hdiff
  · left
    omega
  · exact Or.inr ⟨h.symm, (any_eq_false_iff hb).mp (Bool.eq_false_iff.mpr hdiff)⟩

/-- **Later in the run**: of any two snapshots, the later one has the higher generation, or the
same generation and the same material state. -/
theorem snapshotsOf_pairwise [LawfulBEq F] {ops : List (Op F)}
    (hops : ∀ op ∈ ops, op.observes.Nodup) : (snapshotsOf ops).Pairwise LaterThan := by
  rw [← List.isChain_iff_pairwise]
  have hdistinct := snapshotsOf_distinct hops
  exact (snapshotsOf_follows hops).imp_of_mem_imp fun _ b _ hb hab =>
    hab.laterThan (hdistinct b hb)

/-- **The generation identifies the material state.** In a run in which no
refresh observes an id twice, scores being exact: snapshots of the same
generation do not differ; generations never decrease; and consecutive snapshots
carry different generations exactly when they differ, the later one then the
next generation. -/
theorem generation_identifies_material [LawfulBEq F] (ops : List (Op F))
    (hops : ∀ op ∈ ops, op.observes.Nodup) :
    (∀ a ∈ snapshotsOf ops, ∀ b ∈ snapshotsOf ops, a.generation = b.generation →
        (diffSnapshots a b).any = false ∧ (diffSnapshots b a).any = false) ∧
      (snapshotsOf ops).Pairwise (fun a b => a.generation ≤ b.generation) ∧
      (snapshotsOf ops).IsChain fun a b =>
        (a.generation ≠ b.generation ↔ (diffSnapshots a b).any = true) ∧
          ((diffSnapshots a b).any = true → b.generation = a.generation + 1) := by
  have hdistinct := snapshotsOf_distinct hops
  have hpair := snapshotsOf_pairwise hops
  refine ⟨?_, ?_, ?_⟩
  -- equal generations leave only the second half of `LaterThan`
  · have hsame : ∀ a ∈ snapshotsOf ops, ∀ b ∈ snapshotsOf ops, a.generation = b.generation →
        a.material = b.material := by
      refine List.Pairwise.forall_of_forall_of_flip (fun _ _ _ => rfl) ?_ ?_
      · refine hpair.imp fun {a b} hab hgen => ?_
        rcases hab with hlt | ⟨-, hmat⟩
        · omega
        · exact hmat
      · refine hpair.imp fun {a b} hab hgen => ?_
        rcases hab with hlt | ⟨-, hmat⟩
        · omega
        · exact hmat.symm
    intro a ha b hb hgen
    exact ⟨(any_eq_false_iff (hdistinct b hb)).mpr (hsame a ha b hb hgen),
      (any_eq_false_iff (hdistinct a ha)).mpr (hsame b hb a ha hgen.symm)⟩
  · refine hpair.imp fun {a b} hab => ?_
    rcases hab with hlt | ⟨hgen, -⟩
    · exact hlt.le
    · exact hgen.le
  · refine (snapshotsOf_follows hops).imp fun {a b} hab => ?_
    unfold Follows at hab
    split_ifs at hab with hdiff
    · exact ⟨iff_of_true (by omega) hdiff, fun _ => hab⟩
    · exact ⟨iff_of_false (by omega) hdiff, fun h => absurd h hdiff⟩

/-- A host reported at 10 percent twice, then at 95 percent, then gone. -/
def hostComesAndGoes : List (Op ℚ) :=
  let poll (observations : List (DomainObservation ℚ)) : List (Poll ℚ) :=
    [{ name := "host", outcome := .returned { observations := observations } }]
  let reading (committed : UInt64) : DomainObservation ℚ :=
    { id := { high := 0, low := 1 }, type := .hostMemory, totalCapacity := 100,
      committed := committed }
  [.registerProvider "host", .refresh 1000 (poll [reading 10]), .refresh 2000 (poll [reading 10]),
    .refresh 3000 (poll [reading 95]), .refresh 4000 (poll [])]

/-- The run shows generations 0, 1, 1, 2 and 3, and they identify its states. -/
theorem generation_identifies_material_host :
    (snapshotsOf hostComesAndGoes).map Snapshot.generation = [0, 1, 1, 2, 3] ∧
      (∀ a ∈ snapshotsOf hostComesAndGoes, ∀ b ∈ snapshotsOf hostComesAndGoes,
        a.generation = b.generation →
          (diffSnapshots a b).any = false ∧ (diffSnapshots b a).any = false) :=
  ⟨by decide +kernel, (generation_identifies_material hostComesAndGoes (by decide +kernel)).1⟩

end MemoryPressure
