import MemoryPressure.Run

/-!
# The evidence of a snapshot (`runtime.cpp`, `snapshot.h`)

Three places of `refresh` say how good a snapshot's evidence is: the flags come
from how the providers' samples ended and from retention, the confidence from
one of the flags, and the evidence of each domain from its own observation.

- `evidence_published`: the evidence of the published domains, read off the
  observations and the retained entries.
- `flags_published`, `pollsConfidence`: the flags and the confidence, read off the polls.
- `honest_evidence_iff`: the three agree exactly when every unusable observation
  comes with a sample that is marked, and some observation is as confident as
  the snapshot.

A snapshot is honest (`HonestEvidence`) if it claims no better evidence than it holds: a
domain that is not valid sets a flag, and the confidence is that of some domain at least.
The condition is one on the polls of a refresh and on what it retains (`EvidenceGiven`), so
that it can be asked before the refresh is made. Retained entries are stale with low
confidence and set a flag themselves; they never carry the confidence of the snapshot.
-/

namespace MemoryPressure

variable {F : Type} [Double F]

/-- The evidence of a domain: how valid it is, and how confident. -/
def DomainState.evidence (ds : DomainState F) : Validity × Confidence :=
  (ds.validity, ds.confidence)

def DomainObservation.evidence (obs : DomainObservation F) : Validity × Confidence :=
  (obs.validity, obs.confidence)

/-- **A snapshot claims no better evidence than it holds**: a domain that is not
valid sets a flag, and the confidence is not above that of every domain. -/
structure HonestEvidence (s : Snapshot F) : Prop where
  flagged : ∀ ds ∈ s.domains, ds.validity ≠ .valid → s.staleData = true ∨ s.partialData = true
  confidence : s.domains ≠ [] →
    ∃ ds ∈ s.domains, s.confidence.strength ≤ ds.confidence.strength

/-- A refresh with these polls retains an entry of the current snapshot. -/
def retainsSome (rt : PressureRuntime F) (polls : List (Poll F)) : Bool :=
  rt.currentSnapshot.domains.any (retains (healthAfter rt.providerHealth polls)
    ((sightingsOf polls).map fun sight => sight.2.id))

/-- The confidence of the snapshot that polls make (runtime.cpp:396). -/
def pollsConfidence (polls : List (Poll F)) : Confidence :=
  if polls.any Poll.marksPartial then .medium else .high

/-- What polls have to give for the evidence of the snapshot to be honest: the
observations are valid, or a sample is marked or an entry retained; and some
observation is as confident as the snapshot, unless there is nothing in it. -/
structure EvidenceGiven (rt : PressureRuntime F) (polls : List (Poll F)) : Prop where
  marked : (∀ sight ∈ sightingsOf polls, sight.2.validity = .valid) ∨
    polls.any Poll.marksStale = true ∨ polls.any Poll.marksPartial = true ∨
    retainsSome rt polls = true
  confident : (sightingsOf polls = [] ∧ retainsSome rt polls = false) ∨
    ∃ sight ∈ sightingsOf polls,
      (pollsConfidence polls).strength ≤ sight.2.confidence.strength

open PressureRuntime (CompletesWith published swept interpreted observedIds)

/-- An observation's evidence is published as it is. -/
theorem interpretStep_evidence (pol : PressurePolicy F) (budgets : Budgets) (nowMs : UInt64)
    (st : DomainRuntimeState F) (sight : Sighting F) :
    (interpretStep pol budgets nowMs st sight).2.evidence = sight.2.evidence := rfl

/-- **The evidence of the published domains**: what each observation has, then
stale with low confidence for each retained entry. -/
theorem evidence_published {pol : PressurePolicy F} {budgets : Budgets} {rt : PressureRuntime F}
    {nowMs : UInt64} {log : PollLog F} :
    (published pol budgets rt nowMs log).snapshot.domains.map DomainState.evidence
      = log.sightings.map (fun sight => sight.2.evidence)
        ++ (rt.currentSnapshot.domains.filter (retains log.health (observedIds log))).map
            fun _ => (.stale, .low) := by
  have hfresh : (interpreted pol budgets rt nowMs log).2.map DomainState.evidence
      = log.sightings.map fun sight => sight.2.evidence :=
    Keyed.feed_outputs_map _ _ _ (interpretStep_evidence pol budgets nowMs) _ _
  show (crossTier (swept pol budgets rt nowMs log).domains).map DomainState.evidence = _
  rw [crossTier, List.map_map, PressureRuntime.swept_domains, List.map_append, List.map_map]
  exact congrArg₂ _ hfresh rfl

section

variable {rt : PressureRuntime F} {nowMs : UInt64} {polls : List (Poll F)} {log : PollLog F}

/-- Some published domain has evidence of a kind when some observation does, or
an entry is retained and stale, low evidence is of that kind. -/
theorem exists_evidence_iff (h : CompletesWith rt nowMs polls log)
    {P : Validity × Confidence → Prop} :
    (∃ ds ∈ (published rt.policy rt.budgets rt nowMs log).snapshot.domains, P ds.evidence) ↔
      (∃ sight ∈ sightingsOf polls, P sight.2.evidence) ∨
        (retainsSome rt polls = true ∧ P (.stale, .low)) := by
  have hkept : retainsSome rt polls
      = rt.currentSnapshot.domains.any (retains log.health (observedIds log)) := by
    rw [retainsSome, h.health, h.observedIds_eq]
  have hmap : (∃ ds ∈ (published rt.policy rt.budgets rt nowMs log).snapshot.domains,
        P ds.evidence)
      ↔ ∃ e ∈ (published rt.policy rt.budgets rt nowMs log).snapshot.domains.map
          DomainState.evidence, P e := by
    simp only [List.mem_map, exists_exists_and_eq_and]
  rw [hmap, evidence_published, hkept, ← h.sightings]
  simp only [List.mem_append, List.mem_map, List.mem_filter, List.any_eq_true, or_and_right,
    exists_or, exists_exists_and_eq_and, exists_and_right]
  refine or_congr_right ⟨?_, ?_⟩
  · rintro ⟨_, ⟨hsome, rfl⟩, hP⟩
    exact ⟨hsome, hP⟩
  · rintro ⟨hsome, hP⟩
    exact ⟨_, ⟨hsome, rfl⟩, hP⟩

/-- The flags of a published snapshot. -/
theorem flags_published (h : CompletesWith rt nowMs polls log) :
    let s := (published rt.policy rt.budgets rt nowMs log).snapshot
    s.staleData = (polls.any Poll.marksStale || retainsSome rt polls) ∧
      s.partialData = polls.any Poll.marksPartial ∧ s.confidence = pollsConfidence polls := by
  intro s
  obtain ⟨-, hstale, hpartial⟩ := pollAll_adds h.polled
  have hlog : log.partialData = polls.any Poll.marksPartial := hpartial
  refine ⟨?_, hlog, ?_⟩
  · show (sweepAll _ _ _ _ _).staleData = _
    rw [sweepAll_staleData, retainsSome, ← h.health, ← h.observedIds_eq, hstale]
    rfl
  · show (if log.partialData then Confidence.medium else .high) = _
    rw [hlog]
    rfl

/-- The flags are honest when the observations are valid, or something is marked. -/
theorem flagged_iff (h : CompletesWith rt nowMs polls log) :
    let s := (published rt.policy rt.budgets rt nowMs log).snapshot
    (∀ ds ∈ s.domains, ds.validity ≠ .valid → s.staleData = true ∨ s.partialData = true) ↔
      (∀ sight ∈ sightingsOf polls, sight.2.validity = .valid) ∨
        polls.any Poll.marksStale = true ∨ polls.any Poll.marksPartial = true ∨
        retainsSome rt polls = true := by
  intro s
  obtain ⟨hstale, hpartial, -⟩ := flags_published h
  have hinvalid := exists_evidence_iff h (P := fun e => e.1 ≠ .valid)
  rw [show s.staleData = _ from hstale, show s.partialData = _ from hpartial, Bool.or_eq_true]
  constructor
  · intro hflagged
    by_cases hall : ∀ sight ∈ sightingsOf polls, sight.2.validity = .valid
    · exact Or.inl hall
    · obtain ⟨sight, hsight, hne⟩ : ∃ sight ∈ sightingsOf polls, sight.2.validity ≠ .valid := by
        simpa using hall
      obtain ⟨ds, hds, hbad⟩ := hinvalid.mpr (Or.inl ⟨sight, hsight, hne⟩)
      rcases hflagged ds hds hbad with (hmarked | hkept) | hmarked
      · exact Or.inr (Or.inl hmarked)
      · exact Or.inr (Or.inr (Or.inr hkept))
      · exact Or.inr (Or.inr (Or.inl hmarked))
  · rintro (hall | hmarked | hmarked | hkept) ds hds hbad
    -- all that is not valid is what was retained
    · rcases hinvalid.mp ⟨ds, hds, hbad⟩ with ⟨sight, hsight, hne⟩ | ⟨hkept, -⟩
      · exact absurd (hall sight hsight) hne
      · exact Or.inl (Or.inr hkept)
    · exact Or.inl (Or.inl hmarked)
    · exact Or.inr hmarked
    · exact Or.inl (Or.inr hkept)

/-- What is retained is never as confident as the snapshot. -/
theorem pollsConfidence_above_low (polls : List (Poll F)) :
    ¬ (pollsConfidence polls).strength ≤ Confidence.low.strength := by
  unfold pollsConfidence
  split_ifs <;> decide

/-- The confidence is honest when some observation has it, or there is no domain. -/
theorem confidence_iff (h : CompletesWith rt nowMs polls log) :
    let s := (published rt.policy rt.budgets rt nowMs log).snapshot
    (s.domains ≠ [] → ∃ ds ∈ s.domains, s.confidence.strength ≤ ds.confidence.strength) ↔
      (sightingsOf polls = [] ∧ retainsSome rt polls = false) ∨
        ∃ sight ∈ sightingsOf polls,
          (pollsConfidence polls).strength ≤ sight.2.confidence.strength := by
  intro s
  obtain ⟨-, -, hconfidence⟩ := flags_published h
  have hany := exists_evidence_iff h (P := fun _ => True)
  have hstrong := exists_evidence_iff h
    (P := fun e => (pollsConfidence polls).strength ≤ e.2.strength)
  rw [show s.confidence = _ from hconfidence]
  constructor
  · intro hconfident
    by_cases hempty : s.domains = []
    · left
      have hnone : ¬ ∃ ds ∈ s.domains, True := by simp [hempty]
      rw [hany, not_or] at hnone
      obtain ⟨hsights, hkept⟩ := hnone
      refine ⟨List.eq_nil_iff_forall_not_mem.mpr fun sight hsight =>
        hsights ⟨sight, hsight, trivial⟩, ?_⟩
      exact Bool.eq_false_iff.mpr fun hsome => hkept ⟨hsome, trivial⟩
    · obtain ⟨ds, hds, hle⟩ := hconfident hempty
      rcases hstrong.mp ⟨ds, hds, hle⟩ with hsight | ⟨-, hlow⟩
      · exact Or.inr hsight
      · exact absurd hlow (pollsConfidence_above_low polls)
  · rintro (⟨hnil, hkept⟩ | hsight) hne
    · obtain ⟨ds, hds⟩ := List.exists_mem_of_ne_nil _ hne
      rcases hany.mp ⟨ds, hds, trivial⟩ with ⟨sight, hsight, -⟩ | ⟨hsome, -⟩
      · rw [hnil] at hsight
        cases hsight
      · rw [hkept] at hsome
        cases hsome
    · exact hstrong.mpr (Or.inl hsight)

end

/-- **A snapshot claims no better evidence than it holds, exactly when** every observation
that is not valid comes with a marked sample or a retained entry, and some observation is
as confident as the snapshot. The flags and the confidence of a snapshot come from the
statuses of the samples and from retention; what the observations themselves say of their
validity and confidence is not read. -/
theorem honest_evidence_iff (ops : List (Op F)) (nowMs : UInt64) (polls : List (Poll F))
    {pub : Published F}
    (hpub : pub ∈ (step (runFrom PressureRuntime.init ops) (.refresh nowMs polls)).2) :
    HonestEvidence pub.snapshot ↔ EvidenceGiven (runFrom PressureRuntime.init ops) polls := by
  obtain ⟨_, _, log, heq, hlog, rfl⟩ := step_publishes hpub
  obtain ⟨rfl, rfl⟩ := Op.refresh.inj heq
  have hflagged := flagged_iff hlog
  have hconfident := confidence_iff hlog
  constructor
  · rintro ⟨hmarks, hclaim⟩
    exact ⟨hflagged.mp hmarks, hconfident.mp hclaim⟩
  · rintro ⟨hmarks, hclaim⟩
    exact ⟨hflagged.mpr hmarks, hconfident.mpr hclaim⟩

/-- Two devices of one provider, one of which could not be read. -/
def deviceSample (status : ProviderStatus) : Poll ℚ :=
  { name := "devices", outcome := .returned { status := status, observations :=
    [{ id := { high := 0, low := 1 }, type := .acceleratorMemory, totalCapacity := 100,
       committed := 10, confidence := .high },
     { id := { high := 0, low := 2 }, type := .acceleratorMemory, totalCapacity := 0,
       committed := 0, confidence := .unknown, validity := .failed }] } }

/-- A sample marked partial makes a snapshot that is, of medium confidence. -/
theorem honest_evidence_marked :
    ∃ pub ∈ (step (runFrom PressureRuntime.init [.registerProvider "devices"])
        (.refresh 1000 [deviceSample .partialData])).2,
      pub.snapshot.domains.map DomainState.evidence = [(.valid, .high), (.failed, .unknown)] ∧
        HonestEvidence pub.snapshot := by
  have hrun : ∃ pub ∈ (step (runFrom PressureRuntime.init [.registerProvider "devices"])
        (.refresh 1000 [deviceSample .partialData])).2,
      pub.snapshot.domains.map DomainState.evidence = [(.valid, .high), (.failed, .unknown)] := by
    decide +kernel
  obtain ⟨pub, hpub, hevidence⟩ := hrun
  refine ⟨pub, hpub, hevidence, ?_⟩
  refine (honest_evidence_iff [.registerProvider "devices"] 1000 _ hpub).mpr ⟨?_, Or.inr ?_⟩
  · exact Or.inr (Or.inr (Or.inl (by decide +kernel)))
  · decide +kernel

/-- A device that could not be read, in a sample said to be healthy. -/
def unreadDevice : Poll ℚ :=
  { name := "devices", outcome := .returned { observations :=
    [{ id := { high := 0, low := 2 }, type := .acceleratorMemory, totalCapacity := 0,
       committed := 0, confidence := .unknown, validity := .failed }] } }

/-- **Not always**: a healthy sample with one failed observation of unknown
confidence makes a snapshot without a flag, of high confidence. -/
theorem evidence_fabricated :
    Machine.Along step Legal PressureRuntime.init
        [.registerProvider "devices", .refresh 1000 [unreadDevice]] ∧
      ∃ pub ∈ (step (runFrom PressureRuntime.init [.registerProvider "devices"])
          (.refresh 1000 [unreadDevice])).2,
        pub.snapshot.domains.map DomainState.evidence = [(.failed, .unknown)] ∧
          pub.snapshot.staleData = false ∧ pub.snapshot.partialData = false ∧
          pub.snapshot.confidence = .high ∧ ¬ HonestEvidence pub.snapshot := by
  have hrun : ∃ pub ∈ (step (runFrom PressureRuntime.init [.registerProvider "devices"])
          (.refresh 1000 [unreadDevice])).2,
        pub.snapshot.domains.map DomainState.evidence = [(.failed, .unknown)] ∧
          pub.snapshot.staleData = false ∧ pub.snapshot.partialData = false ∧
          pub.snapshot.confidence = .high := by decide +kernel
  obtain ⟨pub, hpub, hevidence, hstale, hpartial, hconfidence⟩ := hrun
  refine ⟨by decide +kernel, pub, hpub, hevidence, hstale, hpartial, hconfidence, ?_⟩
  intro h
  obtain ⟨ds, hdomains, hds⟩ := List.map_eq_singleton_iff.mp hevidence
  have hbad : ds.validity ≠ .valid := by
    rw [show ds.validity = .failed from congrArg Prod.fst hds]
    decide
  have hflag := h.flagged ds (hdomains ▸ List.mem_singleton_self ds) hbad
  rw [hstale, hpartial] at hflag
  revert hflag
  decide

end MemoryPressure
