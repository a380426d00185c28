import MemoryPressure.Run

/-!
# Demotion across tiers

When a published accelerator domain recommends demotion, and when the refresh
announces it. The recommendation is right for every entry of every snapshot
(`responses_iff_feasible`). The announcement names its domain by id only, so it
is right for domains that a refresh observes at most once
(`demotion_iff_feasible`); an id published twice, with different
levels or types, is announced for both entries when one of them asks.

The rule (`DemotionFeasible`) is on a snapshot alone: the domain is `critical` or worse,
there is a host tier, and none of it is. In the source the second pass computes the worst
host-like severity with a sentinel for "no host", and takes the demotion back from
accelerators from `high` on when that blocks. `hostBlocked_eq_false` says what the
computation comes to, and `mem_respond` what is left of the actions of a level. The pass
leaves types and levels alone, so the rule can be read off the snapshot as published.
-/

namespace MemoryPressure

variable {F : Type} [Double F]

/-- The cross-tier rule: the domain is `critical` or worse, there is a host tier
and none of it is. -/
def DemotionFeasible (s : Snapshot F) (d : DomainState F) : Prop :=
  (d.level = .critical ∨ d.level = .exhausted) ∧
    (∃ h ∈ s.domains, isHostlike h.type = true) ∧
    ∀ h ∈ s.domains, isHostlike h.type = true →
      severityRank h.level < severityRank .critical

/-- The batch asks for a demotion of a domain. -/
def DemotionAnnounced (d : PressureDomainId) (es : List PressureEvent) : Prop :=
  ∃ e ∈ es, e.type = .demotionRequested ∧ e.domain = some d

instance (s : Snapshot F) (d : DomainState F) : Decidable (DemotionFeasible s d) :=
  inferInstanceAs (Decidable (_ ∧ (∃ h ∈ s.domains, _) ∧ ∀ h ∈ s.domains, _ → _))

instance (d : PressureDomainId) (es : List PressureEvent) : Decidable (DemotionAnnounced d es) :=
  inferInstanceAs (Decidable (∃ e ∈ es, _))

/-! ## The host tier -/

theorem hostSev_fold_lt {n : Nat} (domains : List (DomainState F)) (acc : Nat) :
    domains.foldl
        (fun acc d => if isHostlike d.type then max acc (severityFloor d.level) else acc) acc < n
      ↔ acc < n ∧ ∀ d ∈ domains, isHostlike d.type = true → severityFloor d.level < n := by
  induction domains generalizing acc with
  | nil => simp
  | cons d ds ih =>
    rw [List.foldl_cons, ih, List.forall_mem_cons]
    by_cases hh : isHostlike d.type = true
    · rw [if_pos hh]
      simp [hh, and_assoc]
    · rw [if_neg hh]
      simp [hh]

/-- The host tier takes demotions exactly when there is one and none of it is
critical. -/
theorem hostBlocked_eq_false {domains : List (DomainState F)} :
    hostBlocked domains = false ↔
      (∃ h ∈ domains, isHostlike h.type = true) ∧
        ∀ h ∈ domains, isHostlike h.type = true →
            severityRank h.level < severityRank .critical := by
  have hfloor : ∀ l : PressureLevel, severityFloor l < 3 ↔
      severityRank l < severityRank .critical := by
    intro l
    cases l <;> decide
  have hsev : ¬ (hostSev domains : Int) ≥ severityRank .critical ↔ hostSev domains < 3 := by
    rw [show severityRank .critical = ((3 : Nat) : Int) from rfl, ge_iff_le, Nat.cast_le, not_le]
  rw [hostBlocked, Bool.or_eq_false_iff, Bool.not_eq_false', decide_eq_false_iff_not, hsev,
    hostSev, hostSev_fold_lt, hostPresent, List.any_eq_true]
  simp only [hfloor, Nat.zero_lt_succ, true_and]

/-- The second pass leaves types and levels alone, so the host tier reads the
same off the published domains. -/
theorem hostBlocked_crossTier (domains : List (DomainState F)) :
    hostBlocked (crossTier domains) = hostBlocked domains := by
  have hmem : ∀ P : DomainType → PressureLevel → Prop,
      (∀ h ∈ crossTier domains, P h.type h.level) ↔ ∀ h ∈ domains, P h.type h.level := fun P => by
    simp [crossTier]
  have hex : (∃ h ∈ crossTier domains, isHostlike h.type = true)
      ↔ ∃ h ∈ domains, isHostlike h.type = true := by
    simp [crossTier]
  rw [Bool.eq_iff_iff, ← not_iff_not, Bool.not_eq_true, Bool.not_eq_true, hostBlocked_eq_false,
    hostBlocked_eq_false, hex,
    hmem fun t l => isHostlike t = true → severityRank l < severityRank .critical]

/-! ## The recommendation -/

/-- A level whose actions include demotion is `critical` or `exhausted`, and such
a level is at least `high`. -/
theorem demotion_mem_initialActions (l : PressureLevel) :
    ResponseAction.requestDemotion ∈ initialActions l ↔ l = .critical ∨ l = .exhausted := by
  cases l <;> decide

theorem high_of_critical {level : PressureLevel} (h : level = .critical ∨ level = .exhausted) :
    severityRank .high ≤ severityRank level := by
  rcases h with rfl | rfl <;> decide

/-- **What the second pass recommends**: the actions of the level, but no demotion
of an accelerator from `high` on when the host tier is blocked. -/
theorem mem_respond {blocked : Bool} {d : DomainState F} {a : ResponseAction} :
    a ∈ (respond blocked d).responses ↔ a ∈ initialActions d.level ∧
      ¬ (a = .requestDemotion ∧ isAccelerator d.type = true ∧
        severityRank .high ≤ severityRank d.level ∧ blocked = true) := by
  show a ∈ (if _ then _ else _ : List ResponseAction) ↔ _
  by_cases hdrop : isAccelerator d.type ∧ severityRank d.level ≥ severityRank .high ∧ blocked
  · rw [if_pos hdrop, List.mem_filter, decide_eq_true_eq]
    exact and_congr_right fun _ => not_congr (and_iff_left hdrop).symm
  · rw [if_neg hdrop]
    exact (and_iff_left fun h => hdrop h.2).symm

theorem demotion_mem_respond {blocked : Bool} {d : DomainState F}
    (hacc : d.type = .acceleratorMemory) :
    ResponseAction.requestDemotion ∈ (respond blocked d).responses ↔
      (d.level = .critical ∨ d.level = .exhausted) ∧ blocked = false := by
  have hisacc : isAccelerator d.type = true := by simp [isAccelerator, hacc]
  rw [mem_respond, demotion_mem_initialActions]
  refine and_congr_right ?_
  intro hlevel
  rw [and_iff_right rfl, and_iff_right hisacc, and_iff_right (high_of_critical hlevel),
    Bool.not_eq_true]

section

open PressureRuntime

variable {pol : PressurePolicy F} {budgets : Budgets} {rt : PressureRuntime F} {nowMs : UInt64}
  {log : PollLog F}

/-- **The recommendation is the rule**, for every entry of every snapshot. -/
theorem responses_iff_feasible {d : DomainState F}
    (hd : d ∈ (published pol budgets rt nowMs log).snapshot.domains)
    (hacc : d.type = .acceleratorMemory) :
    ResponseAction.requestDemotion ∈ d.responses ↔
      DemotionFeasible (published pol budgets rt nowMs log).snapshot d := by
  have hdomains : (published pol budgets rt nowMs log).snapshot.domains
      = crossTier (swept pol budgets rt nowMs log).domains := rfl
  rw [hdomains] at hd
  obtain ⟨d₀, -, rfl⟩ := List.mem_map.mp hd
  rw [demotion_mem_respond (d := d₀) hacc, DemotionFeasible, ← hostBlocked_eq_false, hdomains,
    hostBlocked_crossTier]
  rfl

/-! ## The announcement -/

theorem demotion_mem_requestEvents {generation : Nat} {ds : DomainState F} :
    (∃ e ∈ requestEvents generation nowMs ds, e.type = .demotionRequested) ↔
      ResponseAction.requestDemotion ∈ ds.responses := by
  constructor
  · rintro ⟨e, he, ht⟩
    obtain ⟨a, ha, hae⟩ := List.mem_filterMap.mp he
    cases a with
    | requestDemotion => exact ha
    | requestReclaim | reduceAdmission | rejectNewWork =>
      obtain rfl := Option.some.inj hae
      cases ht
    | _ => cases hae
  · intro h
    exact ⟨_, List.mem_filterMap.mpr ⟨_, h, rfl⟩, rfl⟩

/-- A demotion of an id is announced exactly when an entry under that id
recommends it. -/
theorem demotionAnnounced_iff (hlog : ∀ e ∈ log.events, e.domain = none) (d : PressureDomainId) :
    DemotionAnnounced d (published pol budgets rt nowMs log).events ↔
      ∃ ds ∈ (published pol budgets rt nowMs log).snapshot.entriesOf d,
        ResponseAction.requestDemotion ∈ ds.responses := by
  have hon : DemotionAnnounced d (published pol budgets rt nowMs log).events ↔
      ∃ e ∈ eventsOn d (draftEvents pol budgets rt nowMs log), e.type = .demotionRequested := by
    refine (exists_mem_stampIds (fun _ _ => Iff.rfl) _ _).trans ?_
    simp only [eventsOn, List.mem_filter, decide_eq_true_eq, and_assoc]
    exact exists_congr fun e => and_congr_right fun _ => and_comm
  rw [hon, eventsOn_draftEvents hlog]
  constructor
  · rintro ⟨e, he, ht⟩
    rcases List.mem_append.mp he with he | hreq
    · -- no other loop makes this type
      rcases List.mem_append.mp he with he | hlevel
      · rcases List.mem_append.mp he with hsweep | hadded
        · obtain ⟨pd, -, hpd⟩ := List.mem_filterMap.mp hsweep
          rcases sweepEvent_type hpd with h | h <;> rw [ht] at h <;> cases h
        · have h := addedEvents_type hadded
          rw [ht] at h
          cases h
      · obtain ⟨ds, -, hds⟩ := List.mem_filterMap.mp hlevel
        have h := (levelEvent_spec hds).2
        rw [ht] at h
        cases h
    · obtain ⟨ds, hds, hmem⟩ := List.mem_flatMap.mp hreq
      exact ⟨ds, hds, demotion_mem_requestEvents.mp ⟨e, hmem, ht⟩⟩
  · rintro ⟨ds, hds, hresp⟩
    obtain ⟨e, he, ht⟩ := demotion_mem_requestEvents.mpr hresp
    exact ⟨e, List.mem_append_right _ (List.mem_flatMap.mpr ⟨ds, hds, he⟩), ht⟩

end

/-- **When demotion is recommended and announced**, along every run: an accelerator entry
recommends it exactly when the rule says so, and the batch announces it exactly then,
unless some refresh of the run observed the domain's id twice. The rule is that of the
second pass: `Critical` or `Exhausted`, and for an accelerator a host tier that can take
what is demoted. With an id observed twice the batch is about the first entry, and the
recommendation about each. -/
theorem demotion_iff_feasible (ops : List (Op F)) {pub : Published F}
    (hpub : pub ∈ publishedBy PressureRuntime.init ops) {d : DomainState F}
    (hd : d ∈ pub.snapshot.domains) (hacc : d.type = .acceleratorMemory) :
    (ResponseAction.requestDemotion ∈ d.responses ↔ DemotionFeasible pub.snapshot d) ∧
      ((∀ op ∈ ops, op.observes.count d.id ≤ 1) →
        (DemotionAnnounced d.id pub.events ↔ DemotionFeasible pub.snapshot d)) := by
  obtain ⟨pre, op, post, rfl, hstep⟩ := Machine.exists_step_of_mem_outputs step hpub
  obtain ⟨nowMs, polls, log, rfl, hlog, rfl⟩ := step_publishes hstep
  have hresp := responses_iff_feasible hd hacc
  refine ⟨hresp, ?_⟩
  intro hops
  -- the id has one entry before the refresh, hence after it
  have hbefore : ((runFrom PressureRuntime.init pre).currentSnapshot.entriesOf d.id).length ≤ 1 :=
    Machine.run_invariant step
      (I := fun rt : PressureRuntime F => (rt.currentSnapshot.entriesOf d.id).length ≤ 1)
      (fun rt op hop hlen => entriesOf_length_step hlen (hops op (by simp [hop])))
      (Nat.zero_le 1)
  have hafter := entriesOf_length_step hbefore (hops (.refresh nowMs polls) (by simp))
  have hcur : (step (runFrom PressureRuntime.init pre) (.refresh nowMs polls)).1.currentSnapshot
      = (PressureRuntime.published (runFrom PressureRuntime.init pre).policy
          (runFrom PressureRuntime.init pre).budgets (runFrom PressureRuntime.init pre) nowMs
          log).snapshot :=
    congrArg (fun r => r.1.currentSnapshot) hlog.refresh_eq
  rw [hcur] at hafter
  have hall := Snapshot.entriesOf_eq_singleton hafter (Snapshot.mem_entriesOf.mpr ⟨hd, rfl⟩)
  rw [demotionAnnounced_iff hlog.events, ← hresp, hall]
  simp

/-- A calm host next to a full accelerator. -/
def fullAcceleratorRun : List (Op ℚ) :=
  [.registerProvider "host", .registerProvider "cuda",
    .refresh 1000
      [{ name := "host", outcome := .returned { observations :=
          [{ id := { high := 0, low := 1 }, type := .hostMemory, totalCapacity := 100,
             committed := 10 }] } },
       { name := "cuda", outcome := .returned { observations :=
          [{ id := { high := 0, low := 2 }, type := .acceleratorMemory, totalCapacity := 100,
             committed := 100 }] } }]]

/-- For the full accelerator the demotion is recommended and announced. -/
theorem demotion_iff_feasible_full :
    ∃ pub ∈ publishedBy PressureRuntime.init fullAcceleratorRun,
      ∃ d ∈ pub.snapshot.domains, DemotionFeasible pub.snapshot d ∧
        (ResponseAction.requestDemotion ∈ d.responses ↔ DemotionFeasible pub.snapshot d) ∧
        (DemotionAnnounced d.id pub.events ↔ DemotionFeasible pub.snapshot d) := by
  have hrun : ∃ pub ∈ publishedBy PressureRuntime.init fullAcceleratorRun,
      ∃ d ∈ pub.snapshot.domains,
        d.type = .acceleratorMemory ∧ DemotionFeasible pub.snapshot d := by decide +kernel
  have honce : ∀ op ∈ fullAcceleratorRun, op.observes.Nodup := by decide +kernel
  obtain ⟨pub, hpub, d, hd, hacc, hfeasible⟩ := hrun
  obtain ⟨hresp, hevent⟩ := demotion_iff_feasible fullAcceleratorRun hpub hd hacc
  exact ⟨pub, hpub, d, hd, hfeasible, hresp,
    hevent fun op hop => List.nodup_iff_count_le_one.mp (honce op hop) d.id⟩

/-- One provider reports id 2 twice: as a calm accelerator and as an exhausted
pool of its own. -/
def twiceReportedRun : List (Op ℚ) :=
  [.registerProvider "cuda",
    .refresh 1000
      [{ name := "cuda", outcome := .returned { observations :=
          [{ id := { high := 0, low := 2 }, type := .acceleratorMemory, totalCapacity := 100,
             committed := 10 },
           { id := { high := 0, low := 2 }, type := .custom, totalCapacity := 100,
             committed := 100 }] } }]]

/-- In `twiceReportedRun` a demotion of domain 2 is announced although the accelerator
entry of domain 2 is at `normal` and no host tier exists. -/
theorem demotion_announced_not_feasible :
    Machine.Along step Legal PressureRuntime.init twiceReportedRun ∧
      ¬ (∀ pub ∈ publishedBy PressureRuntime.init twiceReportedRun,
        ∀ d ∈ pub.snapshot.domains, d.type = .acceleratorMemory →
          (ResponseAction.requestDemotion ∈ d.responses ↔ DemotionFeasible pub.snapshot d) ∧
            (DemotionAnnounced d.id pub.events ↔ DemotionFeasible pub.snapshot d)) := by
  decide +kernel

end MemoryPressure
