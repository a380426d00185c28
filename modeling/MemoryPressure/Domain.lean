import MemoryPressure.Budget
import MemoryPressure.Policy

/-!
# Observations, interpreted domains and snapshots (`domain.h`, `snapshot.h`)

A `DomainObservation` is what a provider reported, a `DomainState` what the
runtime made of it, a `Snapshot` the list of all of them with what is said of them
together. `diffSnapshots` is the material difference that drives the generation.

A snapshot is a list of entries, and nothing in its type keeps two entries from bearing
the same id. The source has a vector there too, and both readers of it matter:
`find_domain` answers with the first entry under an id, while the loops of `refresh`
visit all of them. So the module has both views, `findDomain` and `entriesOf`, and says
how they hang together:

- `findDomain_some`, `findDomain_of_mem`: the entry found has the id asked for, and with
  distinct ids every entry is found under its own.
- `findDomain_eq_head?`, `levelOf_eq_head?`: what is found is the first of the entries.
- `entriesOf_eq_singleton`: with one entry at most, any of them is all of them.

The members of a snapshot that nothing modelled reads or writes are left out.
-/

namespace MemoryPressure

/-- `DomainObservation` (domain.h:24). -/
structure DomainObservation (F : Type) [Double F] where
  id : PressureDomainId := {}
  type : DomainType := .unknown
  provider : String := ""
  nativeResourceId : String := ""
  totalCapacity : UInt64 := 0
  committed : UInt64 := 0
  resident : UInt64 := 0
  reclaimable : Option UInt64 := none
  unavailable : UInt64 := 0
  available : UInt64 := 0
  usableCapacity : Option UInt64 := none
  reserved : Option UInt64 := none
  confidence : Confidence := .unknown
  provenance : Provenance := .unknown
  validity : Validity := .valid
  observedAtMs : UInt64 := 0
  allocationFailures : Int32 := 0
  growthBytesPerS : F := 0.0
  detail : String := ""

/-- `DomainState` (domain.h:54). -/
structure DomainState (F : Type) [Double F] where
  id : PressureDomainId := {}
  type : DomainType := .unknown
  provider : String := ""
  nativeResourceId : String := ""
  budget : Budget := {}
  governed : Bool := false
  totalCapacity : UInt64 := 0
  usableCapacity : UInt64 := 0
  reservedBytes : UInt64 := 0
  committed : UInt64 := 0
  resident : UInt64 := 0
  available : UInt64 := 0
  reclaimable : UInt64 := 0
  utilization : F := 0.0
  level : PressureLevel := .unknown
  previousLevel : PressureLevel := .unknown
  inHysteresisHold : Bool := false
  levelHoldObservations : Nat := 0
  score : F := 0.0
  utilizationComponent : F := 0.0
  freeDeficitComponent : F := 0.0
  reserveDeficitComponent : F := 0.0
  growthComponent : F := 0.0
  allocationFailureComponent : F := 0.0
  stigma : F := 0.0
  trend : TrendDirection := .unknown
  trendRate : F := 0.0
  trendConfidence : F := 0.0
  trendWindowSamples : Nat := 0
  confidence : Confidence := .unknown
  provenance : Provenance := .unknown
  validity : Validity := .valid
  timestampMs : UInt64 := 0
  responses : List ResponseAction := []
  explanation : String := ""
  enteredLevelAtMs : UInt64 := 0
  peakLevel : Nat := 0

/-- `SnapshotEventSummary` (snapshot.h:20). -/
structure SnapshotEventSummary where
  classes : List String := []
  count : UInt32 := 0
  dropped : UInt32 := 0

/-- `Snapshot` (snapshot.h:26). -/
structure Snapshot (F : Type) [Double F] where
  id : Nat := 0
  generation : Nat := 0
  timestampMs : UInt64 := 0
  domains : List (DomainState F) := []
  providerHealth : Finmap (fun _ : String => ProviderStatus) := ∅
  aggregateLevel : PressureLevel := .unknown
  aggregateScore : F := 0.0
  aggregateExplanation : String := ""
  policyVersion : UInt64 := 0
  policyName : String := ""
  warnings : List String := []
  staleData : Bool := false
  partialData : Bool := false
  confidence : Confidence := .unknown
  provenance : Provenance := .unknown
  events : SnapshotEventSummary := {}

variable {F : Type} [Double F]

namespace Snapshot

/-- `Snapshot::find_domain` (core.cpp:421): the first entry under an id. -/
def findDomain (s : Snapshot F) (d : PressureDomainId) : Option (DomainState F) :=
  s.domains.find? fun ds => ds.id = d

/-- The ids of a snapshot's entries, in order. -/
def ids (s : Snapshot F) : List PressureDomainId := s.domains.map DomainState.id

/-- The level a snapshot publishes for a domain, if it has the domain. -/
def levelOf (s : Snapshot F) (d : PressureDomainId) : Option PressureLevel :=
  (s.findDomain d).map DomainState.level

/-- The entries a snapshot has under an id. -/
def entriesOf (s : Snapshot F) (d : PressureDomainId) : List (DomainState F) :=
  s.domains.filter fun ds => ds.id = d

theorem findDomain_isSome {s : Snapshot F} {d : PressureDomainId} :
    (s.findDomain d).isSome ↔ d ∈ s.ids := by
  simp [findDomain, ids, List.find?_isSome]

theorem findDomain_eq_none {s : Snapshot F} {d : PressureDomainId} :
    s.findDomain d = none ↔ d ∉ s.ids := by
  rw [← findDomain_isSome, Option.not_isSome_iff_eq_none]

/-- `find_domain` answers with an entry under the id asked for. -/
theorem findDomain_some {s : Snapshot F} {d : PressureDomainId} {ds : DomainState F}
    (h : s.findDomain d = some ds) : ds ∈ s.domains ∧ ds.id = d :=
  ⟨List.mem_of_find?_eq_some h, by simpa using List.find?_some h⟩

/-- With distinct ids, `find_domain` finds every entry under its own id. -/
theorem findDomain_of_mem {s : Snapshot F} (hnd : s.ids.Nodup) {ds : DomainState F}
    (h : ds ∈ s.domains) : s.findDomain ds.id = some ds := by
  have hsome : (s.findDomain ds.id).isSome :=
    findDomain_isSome.mpr (List.mem_map_of_mem h)
  obtain ⟨ds', hds'⟩ := Option.isSome_iff_exists.mp hsome
  obtain ⟨hmem, hid⟩ := findDomain_some hds'
  rw [hds', List.inj_on_of_nodup_map hnd hmem h hid]

theorem mem_entriesOf {s : Snapshot F} {d : PressureDomainId} {ds : DomainState F} :
    ds ∈ s.entriesOf d ↔ ds ∈ s.domains ∧ ds.id = d := by
  simp [entriesOf]

/-- `find_domain` answers with the first of the entries under the id. -/
theorem findDomain_eq_head? (s : Snapshot F) (d : PressureDomainId) :
    s.findDomain d = (s.entriesOf d).head? :=
  (List.head?_filter ..).symm

/-- The level published for a domain, read off its entries. -/
theorem levelOf_eq_head? (s : Snapshot F) (d : PressureDomainId) :
    s.levelOf d = (s.entriesOf d).head?.map DomainState.level := by
  rw [levelOf, findDomain_eq_head?]

theorem entriesOf_eq_nil {s : Snapshot F} {d : PressureDomainId} :
    s.entriesOf d = [] ↔ d ∉ s.ids := by
  rw [← findDomain_eq_none, findDomain_eq_head?, List.head?_eq_none_iff]

theorem length_entriesOf (s : Snapshot F) (d : PressureDomainId) :
    (s.entriesOf d).length = s.ids.count d := by
  rw [ids, List.count_eq_countP, List.countP_map, List.countP_eq_length_filter]
  rfl

/-- Where an id has at most one entry, any entry under it is all of them. -/
theorem entriesOf_eq_singleton {s : Snapshot F} {d : PressureDomainId} {ds : DomainState F}
    (hlen : (s.entriesOf d).length ≤ 1) (h : ds ∈ s.entriesOf d) : s.entriesOf d = [ds] := by
  have hpos := List.length_pos_of_mem h
  obtain ⟨ds', hds'⟩ := List.length_eq_one_iff.mp (by omega : (s.entriesOf d).length = 1)
  rw [hds'] at h ⊢
  rw [List.mem_singleton.mp h]

end Snapshot

/-! ## Structural difference -/

/-- `SnapshotDiff` (snapshot.h:56). -/
structure SnapshotDiff where
  addedDomains : List PressureDomainId := []
  removedDomains : List PressureDomainId := []
  levelChanged : List PressureDomainId := []
  budgetChanged : List String := []
  reserveChanged : List PressureDomainId := []
  aggregateChanged : Bool := false
  policyChanged : Bool := false
  providerHealthChanged : Bool := false
  deriving DecidableEq, Repr

/-- `SnapshotDiff::any` (snapshot.h:65). -/
def SnapshotDiff.any (d : SnapshotDiff) : Bool :=
  !d.addedDomains.isEmpty || !d.removedDomains.isEmpty || !d.levelChanged.isEmpty ||
    !d.budgetChanged.isEmpty || !d.reserveChanged.isEmpty || d.aggregateChanged ||
    d.policyChanged || d.providerHealthChanged

/-- The domains of `b` that `a` has too, with the state `a` has for them
(the third loop of core.cpp:438). -/
def commonDomains (a b : Snapshot F) : List (DomainState F × DomainState F) :=
  b.domains.filterMap fun s => (a.findDomain s.id).map fun pa => (pa, s)

/-- Over distinct ids, the common domains are the ids both snapshots find. -/
theorem forall_commonDomains_iff {a b : Snapshot F} (hb : b.ids.Nodup)
    {P : DomainState F → DomainState F → Prop} : (∀ ps ∈ commonDomains a b, P ps.1 ps.2) ↔
      ∀ d pa pb, a.findDomain d = some pa → b.findDomain d = some pb → P pa pb := by
  constructor
  · intro h d pa pb hpa hpb
    obtain ⟨hmem, rfl⟩ := Snapshot.findDomain_some hpb
    exact h (pa, pb) (List.mem_filterMap.mpr ⟨pb, hmem, by rw [hpa]; rfl⟩)
  · intro h ps hps
    obtain ⟨s, hs, hpair⟩ := List.mem_filterMap.mp hps
    obtain ⟨pa, hpa, rfl⟩ := Option.map_eq_some_iff.mp hpair
    exact h s.id pa s hpa (Snapshot.findDomain_of_mem hb hs)

/-- `diff_snapshots` (core.cpp:430). -/
def diffSnapshots (a b : Snapshot F) : SnapshotDiff where
  removedDomains := (a.domains.filter fun s => (b.findDomain s.id).isNone).map DomainState.id
  addedDomains := (b.domains.filter fun s => (a.findDomain s.id).isNone).map DomainState.id
  levelChanged :=
    ((commonDomains a b).filter fun ps => ps.1.level ≠ ps.2.level).map fun ps => ps.2.id
  budgetChanged :=
    ((commonDomains a b).filter fun ps =>
      ps.1.budget.hardCapacity ≠ ps.2.budget.hardCapacity ∨
        ps.1.budget.reserveBytes ≠ ps.2.budget.reserveBytes).map fun ps => ps.2.id.toHex
  reserveChanged :=
    ((commonDomains a b).filter fun ps =>
      ps.1.budget.reserveBytes ≠ ps.2.budget.reserveBytes).map fun ps => ps.2.id
  aggregateChanged := a.aggregateLevel ≠ b.aggregateLevel || a.aggregateScore != b.aggregateScore
  policyChanged := a.policyVersion ≠ b.policyVersion
  providerHealthChanged := a.providerHealth ≠ b.providerHealth

end MemoryPressure
