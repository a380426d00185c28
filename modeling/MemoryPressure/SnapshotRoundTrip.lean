import MemoryPressure.BudgetsInForce
import MemoryPressure.Json.Printer
import MemoryPressure.SnapshotCodec

/-!
# Snapshot round trips

A snapshot whose integers are at most `2 ^ 53` comes back as it was, if its
budgets pass their check, it names no event classes and no provider of it is
partial (`Snapshot.reread_eq_iff`). Of a published snapshot the first two always
hold: only checked budgets get into a runtime (`budgetsValid_run`), and `refresh`
names no classes. The third does not: a partial provider comes back as
unavailable (`snapshot_round_trip_iff`, `snapshot_not_round_trip`). A checked budget
by itself always comes back (`budget_round_trip`).

- `Budget.integers`, `DomainState.integers`, `Snapshot.integers`: the unsigned fields of a
  record, absent ones as `none`; `AtMost` bounds all of them at once.
- `Snapshot.Writable`: what a snapshot must be for its text to hold all of it, the statuses
  of its providers apart. It is what the two facts about runs give
  (`writable_published`).
- `Snapshot.Writable.round_trip_iff`: the reader refuses a repeated id, so distinct ids are
  asked for; `ids_published_nodup` says when a refresh publishes such.

The argument goes field by field only in the reading lemmas of `SnapshotCodec.lean`. Here
it is about `reread`, record inside record: a list of domains comes back if each domain
does, a domain if its budget does, a health map exactly if no status in it is partial.
-/

namespace MemoryPressure

/-! ## Integer fields -/

/-- The unsigned integer fields of a budget, absent ones as `none`. -/
def Budget.integers (b : Budget) : List (Option Nat) :=
  [some b.version.toNat, some b.hardCapacity.toNat, b.softCapacity.map UInt64.toNat,
   some b.emergencyReserveBytes.toNat, some b.minimumFreeReserve.toNat,
   some b.reclaimTarget.toNat, some b.demotionTarget.toNat, some b.admissionHeadroom.toNat]
    ++ b.reserves.map fun rv => some rv.bytes.toNat

section

variable {F : Type} [Double F]

/-- The unsigned integer fields of a domain state and its budget. -/
def DomainState.integers (d : DomainState F) : List (Option Nat) :=
  d.budget.integers ++
    [some d.totalCapacity.toNat, some d.usableCapacity.toNat, some d.reservedBytes.toNat,
     some d.committed.toNat, some d.resident.toNat, some d.available.toNat,
     some d.reclaimable.toNat, some d.levelHoldObservations, some d.trendWindowSamples,
     some d.timestampMs.toNat, some d.enteredLevelAtMs.toNat, some d.peakLevel]

/-- The unsigned integer fields of a snapshot and its domains. -/
def Snapshot.integers (s : Snapshot F) : List (Option Nat) :=
  [some s.id, some s.generation, some s.timestampMs.toNat, some s.policyVersion.toNat,
   some s.events.count.toNat, some s.events.dropped.toNat]
    ++ s.domains.flatMap DomainState.integers

end

/-- No field that is there exceeds a bound. -/
def AtMost (bound : Nat) (fields : List (Option Nat)) : Prop :=
  ∀ x ∈ fields, ∀ n ∈ x, n ≤ bound

instance (bound : Nat) (fields : List (Option Nat)) : Decidable (AtMost bound fields) :=
  inferInstanceAs (Decidable (∀ x ∈ fields, ∀ n ∈ x, n ≤ bound))

theorem atMost_append {bound : Nat} {l l' : List (Option Nat)} :
    AtMost bound (l ++ l') ↔ AtMost bound l ∧ AtMost bound l' :=
  List.forall_mem_append

theorem atMost_cons {bound : Nat} {x : Option Nat} {l : List (Option Nat)} :
    AtMost bound (x :: l) ↔ (∀ n ∈ x, n ≤ bound) ∧ AtMost bound l :=
  List.forall_mem_cons

theorem forall_mem_some {bound n : Nat} : (∀ k ∈ some n, k ≤ bound) ↔ n ≤ bound := by
  simp

/-! ## What comes back -/

variable {F : Type} [JsonDouble F] [ExactIntegers F]

theorem Budget.reread_eq {b : Budget} (hint : AtMost (2 ^ 53) b.integers) :
    b.reread F b.hardCapacity = b := by
  simp only [Budget.integers, List.cons_append, List.nil_append, atMost_cons,
    forall_mem_some] at hint
  obtain ⟨hversion, -, hsoft, hemergency, hmin, hreclaim, hdemotion, hheadroom, hreserves⟩ := hint
  have hsoft' : b.softCapacity.bind (stored F) = b.softCapacity := by
    cases hs : b.softCapacity with
    | none => rfl
    | some n =>
      rw [hs] at hsoft
      exact stored_of_le (hsoft n.toNat rfl)
  have hreserves' : b.reserves.map (fun rv => { rv with bytes := kept F rv.bytes })
      = b.reserves := by
    refine (List.map_congr_left ?_).trans (List.map_id _)
    intro rv hrv
    rw [kept_of_le (hreserves _ (List.mem_map_of_mem hrv) _ rfl)]
    rfl
  rw [Budget.reread, hsoft', hreserves', kept_of_le hversion, kept_of_le hemergency,
    kept_of_le hmin, kept_of_le hreclaim, kept_of_le hdemotion, kept_of_le hheadroom]

/-- **A budget comes back as it was**, if it passes its check. -/
theorem Budget.rereadOrDefault_of_valid {b : Budget} (hint : AtMost (2 ^ 53) b.integers)
    (hvalid : validateBudget b = none) : b.rereadOrDefault F = b := by
  have hhard : b.hardCapacity.toNat ≤ 2 ^ 53 :=
    hint _ (List.mem_cons_of_mem _ List.mem_cons_self) _ rfl
  rw [Budget.rereadOrDefault, budgetFromJson_budgetToJson, stored_of_le hhard, Option.bind_some,
    Budget.reread_eq hint, hvalid]
  rfl

/-- **A budget that passes its check comes back from its document**, every field and the
reserves in their order. The bound on the integers is the one the reader checks; a larger
hard capacity refuses the document, and any other larger number is read as absent or 0. -/
theorem budget_round_trip {b : Budget} (hvalid : validateBudget b = none)
    (hint : AtMost (2 ^ 53) b.integers) :
    budgetFromJson (budgetToJson b : Json String F) = some b := by
  -- the hard capacity is the second of the integers
  have hhard : b.hardCapacity.toNat ≤ 2 ^ 53 :=
    hint _ (List.mem_cons_of_mem _ List.mem_cons_self) _ rfl
  rw [budgetFromJson_budgetToJson, stored_of_le hhard, Option.bind_some, Budget.reread_eq hint,
    hvalid]
  rfl

/-- A budget with a soft capacity, an owner and two reserves, at the bound. -/
theorem budget_round_trip_reserved :
    let b : Budget :=
      { hardCapacity := 9007199254740992, softCapacity := some 4096, owner := "host"
        reserves := [{ kind := .emergency, name := "panic", bytes := 512 },
          { kind := .transferStaging, name := "", bytes := 64 }] }
    budgetFromJson (budgetToJson b : Json String ℚ) = some b :=
  budget_round_trip (by decide) (by decide)

theorem toNat_kept_ofNat {n : Nat} (hn : n ≤ 2 ^ 53) : (kept F (UInt64.ofNat n)).toNat = n := by
  have hnat : (UInt64.ofNat n).toNat = n := by
    rw [UInt64.toNat_ofNat']
    omega
  rw [kept_of_le (by rw [hnat]; exact hn), hnat]

theorem toUInt32_kept (n : UInt32) : (kept F n.toUInt64).toUInt32 = n := by
  have hlt := n.toNat_lt
  rw [kept_of_le (by rw [UInt32.toNat_toUInt64]; omega), UInt32.toUInt32_toUInt64]

/-- **A domain state comes back as it was**, if its budget passes its check. -/
theorem DomainState.reread_eq {d : DomainState F} (hint : AtMost (2 ^ 53) d.integers)
    (hvalid : validateBudget d.budget = none) : d.reread = d := by
  simp only [DomainState.integers, atMost_append, atMost_cons, forall_mem_some] at hint
  obtain ⟨hbudget, htotal, husable, hreserved, hcommitted, hresident, havailable,
    hreclaimable, hhold,
    htrend, htime, hentered, hpeak, -⟩ := hint
  rw [DomainState.reread, Budget.rereadOrDefault_of_valid hbudget hvalid, kept_of_le htotal,
    kept_of_le husable, kept_of_le hreserved, kept_of_le hcommitted, kept_of_le hresident,
    kept_of_le havailable, kept_of_le hreclaimable, toNat_kept_ofNat hhold,
    toNat_kept_ofNat htrend, kept_of_le htime, kept_of_le hentered, toNat_kept_ofNat hpeak]

/-- What a snapshot must be for its text to hold all of it, but for the statuses of
its providers. -/
structure Snapshot.Writable (s : Snapshot F) : Prop where
  integers : AtMost (2 ^ 53) s.integers
  budgets : ∀ d ∈ s.domains, validateBudget d.budget = none
  classes : s.events.classes = []

/-- **A snapshot comes back as it was exactly when no provider of it is partial.** -/
theorem Snapshot.reread_eq_iff {s : Snapshot F} (hs : s.Writable) :
    s.reread = s ↔ ∀ name, s.providerHealth.lookup name ≠ some .partialData := by
  have hint := hs.integers
  simp only [Snapshot.integers, atMost_append, atMost_cons, forall_mem_some] at hint
  obtain ⟨⟨hid, hgen, htime, hpolicy, -, -, -⟩, hdomains⟩ := hint
  have hdomains' : s.domains.map DomainState.reread = s.domains := by
    refine (List.map_congr_left ?_).trans (List.map_id _)
    intro d hd
    refine DomainState.reread_eq ?_ (hs.budgets d hd)
    exact fun x hx => hdomains x (List.mem_flatMap.mpr ⟨d, hd, hx⟩)
  have hevents : ({ count := (kept F s.events.count.toUInt64).toUInt32
                    dropped := (kept F s.events.dropped.toUInt64).toUInt32 } :
      SnapshotEventSummary) = s.events := by
    rw [toUInt32_kept, toUInt32_kept, ← hs.classes]
  have hreread : s.reread =
      { s with providerHealth := Keyed.mapVal ProviderStatus.reread s.providerHealth } := by
    rw [Snapshot.reread, hdomains', hevents, toNat_kept_ofNat hid, toNat_kept_ofNat hgen,
      kept_of_le htime, kept_of_le hpolicy]
  have hhealth : s.reread = s ↔
      Keyed.mapVal ProviderStatus.reread s.providerHealth = s.providerHealth := by
    rw [hreread]
    constructor
    · intro h
      exact congrArg Snapshot.providerHealth h
    · intro h
      rw [h]
  rw [hhealth]
  -- what is left is the one table that is not one to one
  constructor
  · intro h name hname
    have hlook := congrArg (Finmap.lookup name) h
    rw [Keyed.lookup_mapVal, hname] at hlook
    cases hlook
  · intro h
    refine Finmap.ext_lookup ?_
    intro name
    rw [Keyed.lookup_mapVal]
    cases hname : s.providerHealth.lookup name with
    | none => rfl
    | some v =>
      have hv : v ≠ .partialData := fun hv => h name (hv ▸ hname)
      rw [Option.map_some, ProviderStatus.reread_eq_iff.mpr hv]

/-- **The round trip of a snapshot with distinct ids.** -/
theorem Snapshot.Writable.round_trip_iff {s : Snapshot F} (hs : s.Writable) (hids : s.ids.Nodup) :
    snapshotFromJson (snapshotToJson s) = some s ↔
      ∀ name, s.providerHealth.lookup name ≠ some .partialData := by
  rw [snapshotFromJson_snapshotToJson, if_pos hids, Option.some_inj, Snapshot.reread_eq_iff hs]

/-! ## Published snapshots -/

omit [ExactIntegers F] in
/-- A published snapshot whose integers are at most `2 ^ 53` is writable. -/
theorem writable_published {ops : List (Op F)} {pub : Published F}
    (hpub : pub ∈ publishedBy PressureRuntime.init ops)
    (hint : AtMost (2 ^ 53) pub.snapshot.integers) : pub.snapshot.Writable := by
  obtain ⟨pre, op, post, rfl, hstep⟩ := Machine.exists_step_of_mem_outputs step hpub
  have hbudgets := (budgetsValid_step (budgetsValid_run pre) op).published
  rw [current_of_published hstep] at hbudgets
  obtain ⟨nowMs, polls, log, rfl, hlog, rfl⟩ := step_publishes hstep
  exact ⟨hint, hbudgets, rfl⟩

/-- **Which published snapshots come back.** After every run, a published snapshot whose
ids are distinct and whose integers are at most `2 ^ 53` is read back equal in every field
exactly when it records no provider as partial. That its budgets pass their check and that
it names no event classes need not be asked: a published snapshot always has both. -/
theorem snapshot_round_trip_iff (ops : List (Op F)) (pub : Published F)
    (hpub : pub ∈ publishedBy PressureRuntime.init ops) (hids : pub.snapshot.ids.Nodup)
    (hint : AtMost (2 ^ 53) pub.snapshot.integers) :
    snapshotFromJson (snapshotToJson pub.snapshot) = some pub.snapshot ↔
      ∀ name, pub.snapshot.providerHealth.lookup name ≠ some .partialData :=
  (writable_published hpub hint).round_trip_iff hids

/-- A governed host with a reserve, polled once. -/
def hostGoverned (status : ProviderStatus) : List (Op ℚ) :=
  [.registerProvider "host",
    .setBudget { high := 0, low := 1 }
      { hardCapacity := 1000, softCapacity := some 900,
        reserves := [{ kind := .recovery, name := "r", bytes := 10 }] },
    .refresh 1000 [{ name := "host", outcome := .returned { status := status, observations :=
      [{ id := { high := 0, low := 1 }, type := .hostMemory, totalCapacity := 1000,
         committed := 950 }] } }]]

theorem hostGoverned_publishes (status : ProviderStatus) :
    publishedBy PressureRuntime.init (hostGoverned status) ≠ [] := by
  cases status <;> exact List.ne_nil_of_length_pos (by decide +kernel)

/-- The snapshot of a governed host comes back if it was polled from a healthy provider. -/
theorem snapshot_round_trip_healthy :
    ∃ pub ∈ publishedBy PressureRuntime.init (hostGoverned .healthy),
      snapshotFromJson (snapshotToJson pub.snapshot) = some pub.snapshot := by
  refine ⟨_, List.head_mem (hostGoverned_publishes .healthy), ?_⟩
  refine (snapshot_round_trip_iff (hostGoverned .healthy) _ (List.head_mem _) (by decide +kernel)
    (by decide +kernel)).mpr ?_
  intro name hname
  have hhealth : ((publishedBy PressureRuntime.init (hostGoverned .healthy)).head
      (hostGoverned_publishes .healthy)).snapshot.providerHealth =
        (∅ : Finmap fun _ : String => ProviderStatus).insert "host" .healthy := by decide +kernel
  rw [hhealth] at hname
  by_cases h : name = "host"
  · rw [h, Finmap.lookup_insert] at hname
    cases hname
  · rw [Finmap.lookup_insert_of_ne _ h] at hname
    cases hname

/-- The snapshot of a governed host does not come back if it was polled from a partial
provider. -/
theorem snapshot_not_round_trip :
    Machine.Along step Legal PressureRuntime.init (hostGoverned .partialData) ∧
      ∃ pub ∈ publishedBy PressureRuntime.init (hostGoverned .partialData),
        pub.snapshot.ids.Nodup ∧ AtMost (2 ^ 53) pub.snapshot.integers ∧
          snapshotFromJson (snapshotToJson pub.snapshot) ≠ some pub.snapshot := by
  refine ⟨by decide +kernel, _, List.head_mem (hostGoverned_publishes .partialData),
    by decide +kernel, by decide +kernel, ?_⟩
  intro h
  have hwritable := writable_published (List.head_mem (hostGoverned_publishes .partialData))
    (by decide +kernel)
  exact (hwritable.round_trip_iff (by decide +kernel)).mp h "host" (by decide +kernel)

end MemoryPressure
