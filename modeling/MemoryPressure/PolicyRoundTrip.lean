import MemoryPressure.Json.Printer
import MemoryPressure.PolicyCodec

/-!
# Policy round trips

A policy that passes its check and whose integers are at most `2 ^ 53` is read back
from its document, and passes the check again (`validatePolicy_reread`). It is the
policy it was exactly when the fields the reader has no line for are at their
defaults (`policy_round_trip_iff`, `policy_not_round_trip`).

What is read is `PressurePolicy.reread`, so the proof has two parts. The default values
pass the part of the check that is about them, so that a policy with some of its fields
replaced by defaults passes if the policy did. And the reread policy is equal to the policy
exactly where the replaced fields were at their defaults: the penalties of the
aggregation and the freshness bounds (`UnreadAtDefault`).

The bound on relief is left as a hypothesis of the general lemma
(`reread_eq_iff_of_relief`), since there are two reasons for it to be read back: that it is
at most `2 ^ 53`, as here, or that it is unlimited, as in `PolicyText.lean`.
-/

namespace MemoryPressure

/-- What of a policy its reader leaves at the default. -/
structure PressurePolicy.UnreadAtDefault {F : Type} [Double F] (p : PressurePolicy F) : Prop where
  bottleneckPenalty : p.aggregate.bottleneckPenalty = 1.0
  reserveExhaustionPenalty : p.aggregate.reserveExhaustionPenalty = 1.25
  responseFeasibilityPenalty : p.aggregate.responseFeasibilityPenalty = 0.75
  freshness : p.freshness = {}

/-- A policy that passes its check has thresholds to be read. -/
theorem allIn01_of_valid {F : Type} [Double F] {p : PressurePolicy F}
    (h : validatePolicy p = none) : p.thresholds.allIn01 = true := by
  rw [validatePolicy] at h
  split_ifs at h with hbad
  exact by simpa using hbad

variable {F : Type} [JsonDouble F] [ExactIntegers F]

/-- What is read passes the check that was passed. -/
theorem validatePolicy_reread {p : PressurePolicy F} (hvalid : validatePolicy p = none)
    (hqueued : p.maxQueuedEvents.toNat ≤ 2 ^ 53) (version : UInt64) :
    validatePolicy (p.reread version) = none := by
  have hmax : (p.reread version).maxQueuedEvents = p.maxQueuedEvents := by
    show (stored F p.maxQueuedEvents).getD 4096 = p.maxQueuedEvents
    rw [stored_of_le hqueued, Option.getD_some]
  rw [validatePolicy, hmax]
  exact hvalid

/-- **A policy is read as it was** exactly when what is not read is at its default, if
its bound on relief is read back. -/
theorem PressurePolicy.reread_eq_iff_of_relief {p : PressurePolicy F}
    (hqueued : p.maxQueuedEvents.toNat ≤ 2 ^ 53)
    (hrelief : (stored F p.maxReliefBytes).getD 18446744073709551615 = p.maxReliefBytes) :
    p.reread p.version = p ↔ p.UnreadAtDefault := by
  rw [PressurePolicy.reread, stored_of_le hqueued, hrelief, Option.getD_some]
  constructor
  · intro h
    have haggregate := congrArg PressurePolicy.aggregate h
    exact ⟨(congrArg AggregateConfig.bottleneckPenalty haggregate).symm,
      (congrArg AggregateConfig.reserveExhaustionPenalty haggregate).symm,
      (congrArg AggregateConfig.responseFeasibilityPenalty haggregate).symm,
      (congrArg PressurePolicy.freshness h).symm⟩
  · rintro ⟨hbottleneck, hreserve, hresponse, hfreshness⟩
    rw [← hbottleneck, ← hreserve, ← hresponse, ← hfreshness]

theorem PressurePolicy.reread_eq_iff {p : PressurePolicy F}
    (hqueued : p.maxQueuedEvents.toNat ≤ 2 ^ 53) (hrelief : p.maxReliefBytes.toNat ≤ 2 ^ 53) :
    p.reread p.version = p ↔ p.UnreadAtDefault :=
  p.reread_eq_iff_of_relief hqueued (by rw [stored_of_le hrelief, Option.getD_some])

/-- What a checked policy is read as. -/
theorem policyFromJson_of_valid {p : PressurePolicy F} (hvalid : validatePolicy p = none)
    (hversion : p.version.toNat ≤ 2 ^ 53) (hqueued : p.maxQueuedEvents.toNat ≤ 2 ^ 53) :
    policyFromJson (policyToJson p) = some (p.reread p.version) := by
  rw [policyFromJson_policyToJson (allIn01_of_valid hvalid), stored_of_le hversion,
    Option.bind_some,
    validatePolicy_reread hvalid hqueued]
  rfl

/-- **Which policies come back.** A policy that passes its check and whose integers are at
most `2 ^ 53` is read back equal in every field exactly when the penalties of its
aggregation and its freshness bounds are the default ones. Those are the fields that
`policy_to_json` writes and `policy_from_json` does not read. -/
theorem policy_round_trip_iff (p : PressurePolicy F) (hvalid : validatePolicy p = none)
    (hversion : p.version.toNat ≤ 2 ^ 53) (hqueued : p.maxQueuedEvents.toNat ≤ 2 ^ 53)
    (hrelief : p.maxReliefBytes.toNat ≤ 2 ^ 53) :
    policyFromJson (policyToJson p) = some p ↔ p.UnreadAtDefault := by
  rw [policyFromJson_of_valid hvalid hversion hqueued, Option.some_inj,
    PressurePolicy.reread_eq_iff hqueued hrelief]

/-- A policy of its own rules, weights and name. -/
def tunedPolicy (bottleneckPenalty : ℚ) : PressurePolicy ℚ :=
  { defaultPolicy with
    version := 7
    name := "tuned"
    aggregate :=
      { considerHierarchy := false
        roleWeight := (∅ : Finmap fun _ : TierRole => ℚ).insert .accelerator 2
        bottleneckPenalty := bottleneckPenalty }
    maxReliefBytes := 1099511627776 }

/-- `tunedPolicy` with the default penalty comes back. -/
theorem policy_round_trip_tuned :
    policyFromJson (policyToJson (tunedPolicy 1.0)) = some (tunedPolicy 1.0) :=
  (policy_round_trip_iff (tunedPolicy 1.0) (by decide +kernel) (by decide) (by decide)
    (by decide)).mpr ⟨rfl, rfl, rfl, rfl⟩

/-- `tunedPolicy` with a penalty of its own does not come back. -/
theorem policy_not_round_trip :
    validatePolicy (tunedPolicy 2) = none ∧ (tunedPolicy 2).version.toNat ≤ 2 ^ 53 ∧
      (tunedPolicy 2).maxQueuedEvents.toNat ≤ 2 ^ 53 ∧
      (tunedPolicy 2).maxReliefBytes.toNat ≤ 2 ^ 53 ∧
      policyFromJson (policyToJson (tunedPolicy 2)) ≠ some (tunedPolicy 2) := by
  have hvalid : validatePolicy (tunedPolicy 2) = none := by decide +kernel
  refine ⟨hvalid, by decide, by decide, by decide, ?_⟩
  rw [policyFromJson_of_valid hvalid (by decide) (by decide)]
  intro h
  have hunread := (PressurePolicy.reread_eq_iff (by decide) (by decide)).mp (Option.some.inj h)
  exact absurd hunread.bottleneckPenalty (by decide +kernel)

end MemoryPressure
