import MemoryPressure.Run

/-!
# Unusable evidence

An observation marked `Failed` or `Unavailable` says nothing about its domain,
but `refresh` interprets it like any other: a failed sample with no capacity
reads as utilization zero, and enough of them walk the level down.
`never_relieves_iff` is the exact extent.

The level an observation publishes is the raw level it commits, or the one its machine is
resolved at (`interpretStep_level`). So a call relieves nothing on unusable evidence exactly
when that evidence commits no lower raw level and the machine does not stand below what is
published already, as it does after `set_policy` (`neverRelieves_iff`, one call). The
condition speaks of the raw level, which is a function of the observation, the budget and
the policy, and of the machine before the step; along a run it is asked of every refresh
(`Machine.along_iff`).

Only the first observation of a domain in a refresh is asked about, because `find_domain`
and the events go by the first entry under an id.
-/

namespace MemoryPressure

variable {F : Type} [Double F]

/-- The observation carries no usable evidence. -/
def Validity.unusable : Validity → Bool
  | .failed | .unavailable => true
  | _ => false

/-- A refresh is given unusable evidence of `d`. -/
def UnusableEvidence (d : PressureDomainId) (polls : List (Poll F)) : Prop :=
  ∃ sight ∈ sightingsOf polls, sight.2.id = d ∧ sight.2.validity.unusable = true

instance (d : PressureDomainId) (polls : List (Poll F)) : Decidable (UnusableEvidence d polls) :=
  inferInstanceAs (Decidable (∃ sight ∈ sightingsOf polls, _))

/-- A refresh given unusable evidence of `d` publishes it no lower than before,
or as `unknown`. -/
def NeverRelieves (d : PressureDomainId) (rt : PressureRuntime F) : Op F → Prop
  | .refresh nowMs polls =>
    Completes polls → UnusableEvidence d polls →
      ∀ before ∈ rt.currentSnapshot.levelOf d,
        ∀ after ∈ (rt.refresh nowMs polls).1.currentSnapshot.levelOf d,
          after = .unknown ∨ severityRank before ≤ severityRank after
  | _ => True

instance (d : PressureDomainId) (rt : PressureRuntime F) (op : Op F) :
    Decidable (NeverRelieves d rt op) := by
  cases op <;> unfold NeverRelieves <;> infer_instance

/-- The debounce machine the next observation of `d` meets. -/
def debounceOf (rt : PressureRuntime F) (d : PressureDomainId) : HysteresisState F :=
  ((rt.domainStates.lookup d).getD (DomainRuntimeState.new rt.policy.hysteresis 16)).hysteresis

/-- A refresh given unusable evidence of `d` does not let its first observation
of `d` commit a raw level below the published one, nor finds the machine
resolved below it. -/
def CommitsNoRelief (d : PressureDomainId) (rt : PressureRuntime F) : Op F → Prop
  | .refresh nowMs polls =>
    Completes polls → UnusableEvidence d polls →
      ∀ before ∈ rt.currentSnapshot.levelOf d,
        ∀ sight ∈ (sightingsFor d (sightingsOf polls)).head?,
          let machine := debounceOf rt d
          let raw := rawLevel rt.policy (rt.budgets.lookup sight.2.id) sight.2 machine.level
          if machine.emergency raw ∨ machine.confirms raw nowMs then
            severityRank before ≤ severityRank raw
          else severityRank before ≤ severityRank machine.level
  | _ => True

/-- The level an observation resolves to: the raw level it commits, or the one
the machine is resolved at. -/
theorem interpretStep_level (pol : PressurePolicy F) (budgets : Budgets) (nowMs : UInt64)
    (st : DomainRuntimeState F) (sight : Sighting F) :
    (interpretStep pol budgets nowMs st sight).2.level =
      let raw := rawLevel pol (budgets.lookup sight.2.id) sight.2 st.hysteresis.level
      if st.hysteresis.emergency raw ∨ st.hysteresis.confirms raw nowMs then raw
      else st.hysteresis.level := by
  show (st.hysteresis.update _ nowMs).level = _
  rw [HysteresisState.update_level]
  dsimp only
  by_cases hcommit : st.hysteresis.emergency
        (rawLevel pol (budgets.lookup sight.2.id) sight.2 st.hysteresis.level) ∨
      st.hysteresis.confirms
        (rawLevel pol (budgets.lookup sight.2.id) sight.2 st.hysteresis.level) nowMs
  · rw [if_pos hcommit]
    exact if_pos (Or.inr hcommit)
  · rw [if_neg hcommit]
    -- an observation that reads the current level confirms it
    by_cases hcur :
        rawLevel pol (budgets.lookup sight.2.id) sight.2 st.hysteresis.level = st.hysteresis.level
    · exact (if_pos (Or.inl hcur)).trans hcur
    · exact if_neg (not_or.mpr ⟨hcur, hcommit⟩)

/-- **One call**: unusable evidence relieves nothing exactly when it commits no
relief. -/
theorem neverRelieves_iff {rt : PressureRuntime F} (hs : Sound rt) (d : PressureDomainId)
    (op : Op F) : NeverRelieves d rt op ↔ CommitsNoRelief d rt op := by
  cases op with
  | refresh nowMs polls =>
    refine imp_congr_right fun hc => imp_congr_right fun hev => ?_
    refine forall_congr' fun before => imp_congr_right fun _ => ?_
    rcases rt.refresh_cases nowMs polls with ⟨log, hlog⟩ | ⟨hnc, -⟩
    · obtain ⟨sight₀, hsight₀, hid₀, -⟩ := hev
      have hmem : sight₀ ∈ sightingsFor d (sightingsOf polls) :=
        List.mem_filter.mpr ⟨hsight₀, by simpa using hid₀⟩
      cases hseen : sightingsFor d (sightingsOf polls) with
      | nil =>
        rw [hseen] at hmem
        cases hmem
      | cons sight rest =>
        -- of the entries of `d` the first is the one found, so the first sighting counts
        have hafter : (rt.refresh nowMs polls).1.currentSnapshot.levelOf d
            = some (interpretStep rt.policy rt.budgets nowMs
                ((rt.domainStates.lookup d).getD
                  (DomainRuntimeState.new rt.policy.hysteresis 16)) sight).2.level := by
          rw [hlog.refresh_eq]
          exact PressureRuntime.levelOf_seen (hlog.sightings ▸ hseen)
        have hsound : (debounceOf rt d).level ≠ .unknown := by
          unfold debounceOf
          cases hl : rt.domainStates.lookup d with
          | none => simp
          | some st => exact (hs.states d st hl).resolved
        simp only [hafter, Option.mem_some_iff, forall_eq', List.head?_cons]
        rw [interpretStep_level]
        show (if _ then _ else _ : PressureLevel) = _ ∨ _ ↔ _
        dsimp only
        split_ifs with hcommit hcommit' hcommit'
        · exact or_iff_right (rawLevel_ne_unknown _ _ _ _)
        · exact absurd hcommit hcommit'
        · exact absurd hcommit' hcommit
        · exact or_iff_right hsound
    · exact absurd hc hnc
  | _ => exact Iff.rfl

/-- **When unusable evidence relieves nothing**, along every run: exactly when no refresh
of it lets unusable evidence commit relief. Whether a refresh lets relief commit is read
off the first observation of the domain and the debounce machine it meets, before anything
is published. -/
theorem never_relieves_iff (d : PressureDomainId) (ops : List (Op F)) :
    Machine.Along step (NeverRelieves d) PressureRuntime.init ops
      ↔ Machine.Along step (CommitsNoRelief d) PressureRuntime.init ops :=
  Machine.along_iff step (I := Sound) (fun _ op _ h _ => sound_step h op)
    (fun _ op _ h => neverRelieves_iff h d op) sound_init

/-- A device at 90 percent for two refreshes, whose memory query then fails
twice. -/
def failingQueryRun : List (Op ℚ) :=
  let poll (status : ProviderStatus) (obs : DomainObservation ℚ) : Poll ℚ :=
    { name := "cuda", outcome := .returned { status := status, observations := [obs] } }
  let good : DomainObservation ℚ :=
    { id := { high := 0, low := 2 }, type := .acceleratorMemory, totalCapacity := 100,
      committed := 90 }
  let failed : DomainObservation ℚ :=
    { id := { high := 0, low := 2 }, type := .acceleratorMemory, validity := .failed }
  [.registerProvider "cuda", .refresh 1000 [poll .healthy good],
    .refresh 2000 [poll .healthy good], .refresh 3000 [poll .partialData failed],
    .refresh 4000 [poll .partialData failed]]

/-- Two failed queries take the device from `high` down to `elevated`. -/
theorem failed_queries_relieve :
    Machine.Along step Legal PressureRuntime.init failingQueryRun ∧
      (∀ op ∈ failingQueryRun, op.setsPolicy = false) ∧
      ¬ Machine.Along step (NeverRelieves { high := 0, low := 2 }) PressureRuntime.init
        failingQueryRun := by
  decide +kernel

end MemoryPressure
