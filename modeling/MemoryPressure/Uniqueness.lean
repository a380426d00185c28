import MemoryPressure.Codec
import MemoryPressure.Run

/-!
# One entry per domain

`Snapshot::domains` is documented as "one interpreted domain per entry" and the
reader refuses a document that repeats an id, but `refresh` appends one
`DomainState` per observation and does not check whether the id has been seen
in this refresh. `domains_distinct_iff` is the exact extent: the snapshots of a
run have distinct ids, and survive the reader, exactly when no completed
refresh of it observes an id twice.

That the condition is enough is the invariant `ids_nodup_step` of `Run.lean`: what is
retained from the last snapshot has distinct ids by induction, and is retained only if it
was not observed. That it is needed is read off the published ids, which are the observed
ones in order, followed by the retained ones. `domains_not_distinct` is such a run, two
providers that report one device.
-/

namespace MemoryPressure

variable {F : Type} [Double F]

/-- A snapshot with one entry per domain, whose written ids the reader takes. -/
def OneEntryPerDomain (s : Snapshot F) : Prop :=
  s.ids.Nodup ∧ readDomainIds [] (writtenIds s) = some s.ids

instance (s : Snapshot F) : Decidable (OneEntryPerDomain s) :=
  inferInstanceAs (Decidable (_ ∧ _))

/-- A snapshot has one entry per domain exactly when its ids are distinct: the reader of its
document asks for no more. -/
theorem oneEntryPerDomain_iff {s : Snapshot F} : OneEntryPerDomain s ↔ s.ids.Nodup := by
  refine ⟨fun h => h.1, fun h => ⟨h, ?_⟩⟩
  rw [writtenIds, readDomainIds_toHex _ _ List.nodup_nil, List.nil_append, if_pos h]

/-- **Exactly when every published snapshot has one entry per domain**: when no completed
refresh of the run observes one id twice. A refresh publishes one entry for each
observation and keeps retained entries only of domains that were not observed, so nothing
but a repeated observation repeats an id. -/
theorem domains_distinct_iff (ops : List (Op F)) :
    (∀ pub ∈ publishedBy PressureRuntime.init ops, OneEntryPerDomain pub.snapshot)
      ↔ ∀ op ∈ ops, op.observes.Nodup := by
  simp only [oneEntryPerDomain_iff]
  rw [Machine.forall_outputs_iff, ← Machine.along_const_iff step]
  refine Machine.along_iff step (I := fun rt => rt.currentSnapshot.ids.Nodup)
    (fun rt op _ hnd hpub => ?_) (fun rt op _ hnd => step_ids_nodup_iff hnd op) List.nodup_nil
  exact ids_nodup_step hnd ((step_ids_nodup_iff hnd op).mp hpub)

/-- Two providers report domain 7 in one refresh. -/
def sharedDomainRun : List (Op ℚ) :=
  let obs : DomainObservation ℚ :=
    { id := { high := 0, low := 7 }, type := .hostMemory, totalCapacity := 100, committed := 10 }
  [.registerProvider "host", .registerProvider "psi",
    .refresh 1000
      [{ name := "host", outcome := .returned { observations := [obs] } },
       { name := "psi", outcome := .returned { observations := [obs] } }]]

/-- A run the code can make publishes domain 7 twice, and the reader refuses
what is written of that snapshot. -/
theorem domains_not_distinct :
    Machine.Along step Legal PressureRuntime.init sharedDomainRun ∧
      ¬ (∀ pub ∈ publishedBy PressureRuntime.init sharedDomainRun,
        OneEntryPerDomain pub.snapshot) := by
  decide +kernel

end MemoryPressure
