import MemoryPressure.CrossTier

/-!
# Relief requests (`response.h`, `runtime.cpp`)

`response_for` turns the recommended actions of a published domain into at most
one relief request, whose size `relief_bytes_for` takes from the budget.

- `relief_bounded_iff`: the size is bounded by the policy and free of overflow
  exactly when the amount the budget asks for at that level is; the policy's
  bound is not read.
- `relief_grows_iff`: the budgets under which relief grows with the level.
- `relief_reaches_iff`: one slot holds the last request of the list, so a
  recommended demotion never reaches a consumer.

The three are questions about different parts. The first is about runs: which budget and
which policy stand behind a published entry, and at which of its levels it asks for relief
at all (`relief_published`). The second is about a budget alone, with the eight cases of
two targets and a capacity that may each be zero. The third is about the loop of
`response_for`: it overwrites one slot, so what reaches a consumer is the last request
among the actions (`responseFor_relief`), and from `High` on that is the one for reclaim
(`getLast?_requests`).

`reliefTotal` is the amount in exact arithmetic. The source adds targets in 64 bits, where
two of them can come to nothing.
-/

namespace MemoryPressure

variable {F : Type} [Double F]

/-! ## The response of a domain -/

/-- `ReliefRequest::Kind` (response.h:45). -/
inductive ReliefKind where
  | reclaim | demotion
  deriving DecidableEq, Repr

/-- `ReliefRequest` (response.h:44). -/
structure ReliefRequest where
  kind : ReliefKind := .reclaim
  domain : PressureDomainId := {}
  targetBytes : UInt64 := 0
  urgency : PressureLevel := .unknown
  generation : Nat := 0
  reason : String := ""
  minimumUsefulRelief : UInt64 := 0
  preferredTier : Option DomainType := none
  deadlineUs : UInt64 := 0
  confidence : Confidence := .unknown
  deriving DecidableEq, Repr

/-- `DomainResponse` (response.h:67). -/
structure DomainResponse where
  domain : PressureDomainId := {}
  level : PressureLevel := .unknown
  actions : List ResponseAction := []
  explanation : String := ""
  relief : Option ReliefRequest := none
  deriving DecidableEq, Repr

/-- `relief_bytes_for` (runtime.cpp:36). -/
def reliefBytesFor (level : PressureLevel) (b : Budget) : UInt64 :=
  match level with
  | .high =>
    if b.reclaimTarget ≠ 0 then b.reclaimTarget
    else if b.hardCapacity ≠ 0 then b.hardCapacity / 8 else 0
  | .critical =>
    if b.reclaimTarget ≠ 0 then b.reclaimTarget + b.demotionTarget
    else if b.hardCapacity ≠ 0 then b.hardCapacity / 4 else 0
  | .exhausted =>
    if b.demotionTarget ≠ 0 then b.demotionTarget
    else if b.hardCapacity ≠ 0 then b.hardCapacity / 2 else 0
  | .normal | .elevated | .unknown => 0

/-- The relief request of one recommended action (runtime.cpp:561–575), if it is
one. -/
def reliefRequest (generation : Nat) (id : PressureDomainId) (ds : DomainState F)
    (a : ResponseAction) : Option ReliefRequest :=
  let target := reliefBytesFor ds.level ds.budget
  match a with
  | .requestReclaim =>
    some
      { kind := .reclaim
        domain := id
        urgency := ds.level
        generation := generation
        targetBytes := target
        minimumUsefulRelief := min (if target ≠ 0 then target / 2 else 0) (max 1 (ds.committed / 2))
        reason := "reclaim " ++ toString target.toNat ++ " bytes" }
  | .requestDemotion =>
    some
      { kind := .demotion
        domain := id
        urgency := ds.level
        generation := generation
        targetBytes := target
        reason := "demote " ++ toString target.toNat ++ " bytes"
        preferredTier := some .pinnedHostMemory }
  | _ => none

namespace PressureRuntime

/-- `PressureRuntime::response_for` (runtime.cpp:550) on the snapshot it loaded. -/
def responseFor (snap : Option (Snapshot F)) (id : PressureDomainId) : DomainResponse :=
  match snap with
  | none => { domain := id }
  | some s =>
    match s.findDomain id with
    | none => { domain := id }
    | some ds =>
      { domain := id
        level := ds.level
        actions := ds.responses
        explanation := ds.explanation
        relief := ds.responses.foldl
          (fun relief a => (reliefRequest s.generation id ds a).or relief) none }

end PressureRuntime

open PressureRuntime

/-- A slot that each request overwrites ends up with the last one. -/
theorem foldl_or_eq_getLast? {α β : Type} (f : α → Option β) (l : List α) (start : Option β) :
    l.foldl (fun slot a => (f a).or slot) start = (l.filterMap f).getLast?.or start := by
  induction l generalizing start with
  | nil => rfl
  | cons a l ih =>
    rw [List.foldl_cons, ih]
    cases hf : f a with
    | none => rw [List.filterMap_cons_none hf, Option.none_or]
    | some b =>
      rw [List.filterMap_cons_some hf, List.getLast?_cons, Option.some_or, Option.some_or]
      cases (l.filterMap f).getLast? <;> rfl

/-- **One slot**: the relief of a response is the last request among the actions. -/
theorem responseFor_relief {s : Snapshot F} {id : PressureDomainId} {ds : DomainState F}
    (h : s.findDomain id = some ds) : (responseFor (some s) id).relief
      = (ds.responses.filterMap (reliefRequest s.generation id ds)).getLast? := by
  simp only [responseFor, h]
  rw [foldl_or_eq_getLast?, Option.or_none]

/-! ## How much -/

/-- What a budget asks for at a level, in exact arithmetic. -/
def reliefTotal (level : PressureLevel) (b : Budget) : Nat :=
  match level with
  | .high => if b.reclaimTarget ≠ 0 then b.reclaimTarget.toNat else b.hardCapacity.toNat / 8
  | .critical =>
    if b.reclaimTarget ≠ 0 then b.reclaimTarget.toNat + b.demotionTarget.toNat
    else b.hardCapacity.toNat / 4
  | .exhausted => if b.demotionTarget ≠ 0 then b.demotionTarget.toNat else b.hardCapacity.toNat / 2
  | .normal | .elevated | .unknown => 0

/-- A fraction of the hard capacity, which is 0 without one. -/
theorem toNat_fraction (hard : UInt64) (k : UInt64) :
    (if hard ≠ 0 then hard / k else 0).toNat = hard.toNat / k.toNat := by
  split_ifs with h
  · exact UInt64.toNat_div _ _
  · rw [not_not.mp h]
    exact (Nat.zero_div _).symm

theorem toNat_reliefBytesFor (level : PressureLevel) (b : Budget) :
    (reliefBytesFor level b).toNat = reliefTotal level b % 2 ^ 64 := by
  have hfraction : ∀ k, b.hardCapacity.toNat / k % 2 ^ 64 = b.hardCapacity.toNat / k := fun k =>
    Nat.mod_eq_of_lt (Nat.lt_of_le_of_lt (Nat.div_le_self _ _) b.hardCapacity.toNat_lt)
  cases level with
  | high =>
    unfold reliefBytesFor reliefTotal
    dsimp only
    by_cases h : b.reclaimTarget ≠ 0
    · rw [if_pos h, if_pos h]
      exact (Nat.mod_eq_of_lt b.reclaimTarget.toNat_lt).symm
    · rw [if_neg h, if_neg h, toNat_fraction, hfraction]
      rfl
  | critical =>
    unfold reliefBytesFor reliefTotal
    dsimp only
    by_cases h : b.reclaimTarget ≠ 0
    · rw [if_pos h, if_pos h]
      exact UInt64.toNat_add _ _
    · rw [if_neg h, if_neg h, toNat_fraction, hfraction]
      rfl
  | exhausted =>
    unfold reliefBytesFor reliefTotal
    dsimp only
    by_cases h : b.demotionTarget ≠ 0
    · rw [if_pos h, if_pos h]
      exact (Nat.mod_eq_of_lt b.demotionTarget.toNat_lt).symm
    · rw [if_neg h, if_neg h, toNat_fraction, hfraction]
      rfl
  | normal | elevated | unknown => rfl

/-! ## What a published domain asks for -/

/-- The actions of a published entry are those of the second pass over the
published domains. -/
theorem responses_published {pol : PressurePolicy F} {budgets : Budgets} {rt : PressureRuntime F}
    {nowMs : UInt64} {log : PollLog F} {ds : DomainState F}
    (h : ds ∈ (published pol budgets rt nowMs log).snapshot.domains) :
    ds.responses
      = (respond (hostBlocked (published pol budgets rt nowMs log).snapshot.domains)
          ds).responses := by
  have hdomains : (published pol budgets rt nowMs log).snapshot.domains
      = crossTier (swept pol budgets rt nowMs log).domains := rfl
  rw [hdomains] at h ⊢
  rw [hostBlocked_crossTier]
  obtain ⟨ds₀, -, rfl⟩ := List.mem_map.mp h
  rfl

/-- The last request of a level's actions is for reclaim, from `High` on, whether
the demotion is dropped or not. -/
theorem getLast?_requests (blocked : Bool) (generation : Nat) (id : PressureDomainId)
    (ds : DomainState F) :
    ((respond blocked ds).responses.filterMap (reliefRequest generation id ds)).getLast?
      = if severityRank .high ≤ severityRank ds.level then
          reliefRequest generation id ds .requestReclaim
        else none := by
  have hall : ∀ level, ((initialActions level).filterMap (reliefRequest generation id ds)).getLast?
      = if severityRank .high ≤ severityRank level then
          reliefRequest generation id ds .requestReclaim
        else none := by
    intro level
    cases level <;> rfl
  have hdropped : ∀ level, (((initialActions level).filter fun a => a ≠ .requestDemotion).filterMap
        (reliefRequest generation id ds)).getLast?
      = if severityRank .high ≤ severityRank level then
          reliefRequest generation id ds .requestReclaim
        else none := by
    intro level
    cases level <;> rfl
  show ((if _ then _ else _ : List ResponseAction).filterMap _).getLast? = _
  by_cases hdrop : isAccelerator ds.type ∧ severityRank ds.level ≥ severityRank .high ∧ blocked
  · rw [if_pos hdrop]
    exact hdropped ds.level
  · rw [if_neg hdrop]
    exact hall ds.level

/-- **Relief by level**: a domain of a published snapshot asks for reclaim from
`High` on, and for nothing below. -/
theorem relief_published {pol : PressurePolicy F} {budgets : Budgets} {rt : PressureRuntime F}
    {nowMs : UInt64} {log : PollLog F} {id : PressureDomainId} {ds : DomainState F}
    (h : (published pol budgets rt nowMs log).snapshot.findDomain id = some ds) :
    (responseFor (some (published pol budgets rt nowMs log).snapshot) id).relief
      = if severityRank .high ≤ severityRank ds.level then
          reliefRequest (published pol budgets rt nowMs log).snapshot.generation id ds
            .requestReclaim
        else none := by
  rw [responseFor_relief h, responses_published (Snapshot.findDomain_some h).1]
  exact getLast?_requests ..

/-! ## Bounded by the policy -/

/-- Below `High` a budget asks for nothing. -/
theorem reliefTotal_below {level : PressureLevel} {b : Budget}
    (h : ¬ severityRank .high ≤ severityRank level) : reliefTotal level b = 0 := by
  cases level with
  | normal | elevated | unknown => rfl
  | high | critical | exhausted => exact absurd (by decide) h

/-- **Relief is bounded by the policy, exactly when** what the budget of the domain asks
for at its level, in exact arithmetic, is within the `max_relief_bytes` of the policy that
the refresh loaded. The amount is computed from the budget with 64-bit arithmetic and not
compared with the bound; where the exact amount is within the bound nothing wraps around
either. -/
theorem relief_bounded_iff (ops : List (Op F)) (op : Op F) {pub : Published F}
    (hpub : pub ∈ (step (runFrom PressureRuntime.init ops) op).2) {id : PressureDomainId}
    {ds : DomainState F} (hds : pub.snapshot.findDomain id = some ds) :
    let pol := (runFrom PressureRuntime.init ops).policy
    (∀ r ∈ (responseFor (some pub.snapshot) id).relief,
        r.targetBytes ≤ pol.maxReliefBytes ∧ r.targetBytes.toNat = reliefTotal ds.level ds.budget)
      ↔ reliefTotal ds.level ds.budget ≤ pol.maxReliefBytes.toNat := by
  intro pol
  obtain ⟨nowMs, polls, log, -, -, rfl⟩ := step_publishes hpub
  rw [relief_published hds]
  by_cases hhigh : severityRank .high ≤ severityRank ds.level
  · rw [if_pos hhigh]
    show (∀ r ∈ some _, _) ↔ _
    simp only [Option.mem_some_iff, forall_eq']
    rw [UInt64.le_iff_toNat_le, toNat_reliefBytesFor]
    constructor
    · rintro ⟨hle, hexact⟩
      exact hexact ▸ hle
    · intro hle
      have hexact := Nat.mod_eq_of_lt (Nat.lt_of_le_of_lt hle pol.maxReliefBytes.toNat_lt)
      exact ⟨hexact.symm ▸ hle, hexact⟩
  · rw [if_neg hhigh, reliefTotal_below hhigh]
    exact iff_of_true (fun _ hr => by cases hr) (Nat.zero_le _)

/-- A host of 800 bytes, under a policy with a bound on relief. -/
def cappedRelief (maxReliefBytes : UInt64) : List (Op ℚ) :=
  [.registerProvider "host", .setPolicy { defaultPolicy with maxReliefBytes := maxReliefBytes },
    .setBudget { high := 0, low := 1 } { hardCapacity := 800 }]

/-- A refresh that finds that host full. -/
def fullHost : Op ℚ :=
  .refresh 1000 [{ name := "host", outcome := .returned { observations :=
    [{ id := { high := 0, low := 1 }, type := .hostMemory, totalCapacity := 800,
       committed := 800 }] } }]

/-- Under a bound of half the capacity, the 400 bytes asked for are within it. -/
theorem relief_bounded_half :
    ∃ pub ∈ (step (runFrom PressureRuntime.init (cappedRelief 400)) fullHost).2,
      ∃ r ∈ (responseFor (some pub.snapshot) { high := 0, low := 1 }).relief,
        r.targetBytes
            ≤ (runFrom PressureRuntime.init (cappedRelief 400)).policy.maxReliefBytes := by
  have hrun : ∃ pub ∈ (step (runFrom PressureRuntime.init (cappedRelief 400)) fullHost).2,
      (responseFor (some pub.snapshot) { high := 0, low := 1 }).relief.isSome = true ∧
        (pub.snapshot.findDomain { high := 0, low := 1 }).map
          (fun ds => reliefTotal ds.level ds.budget) = some 400 := by decide +kernel
  obtain ⟨pub, hpub, hasked, htotal⟩ := hrun
  obtain ⟨r, hr⟩ := Option.isSome_iff_exists.mp hasked
  obtain ⟨ds, hds, hfour⟩ := Option.map_eq_some_iff.mp htotal
  have hbounded := (relief_bounded_iff (cappedRelief 400) fullHost hpub hds).mpr
    (by rw [hfour]; decide +kernel) r hr
  exact ⟨pub, hpub, r, hr, hbounded.1⟩

/-- **Not always**: under a bound of 10 bytes 400 are asked for; and the targets of
a budget can add up to no relief at all. -/
theorem relief_unbounded :
    Machine.Along step Legal PressureRuntime.init (cappedRelief 10 ++ [fullHost]) ∧
      (¬ ∀ pub ∈ (step (runFrom PressureRuntime.init (cappedRelief 10)) fullHost).2,
        (responseFor (some pub.snapshot) { high := 0, low := 1 }).relief.all (fun r => r.targetBytes
          ≤ (runFrom PressureRuntime.init (cappedRelief 10)).policy.maxReliefBytes) = true) ∧
      ∃ b : Budget, validateBudget b = none ∧
        b.reclaimTarget.toNat + b.demotionTarget.toNat = 2 ^ 64 ∧
        reliefBytesFor .critical b = 0 :=
  ⟨by decide +kernel, by decide +kernel,
    { hardCapacity := 18446744073709551615, reclaimTarget := 18446744073709551615
      demotionTarget := 1 }, by decide, by decide, by decide⟩

/-! ## Growing with the level -/

/-- The amounts of the three levels, in the order of their severity. -/
def ReliefGrows (b : Budget) : Prop :=
  ∀ l₁ l₂, severityRank .high ≤ severityRank l₁ → severityRank l₁ < severityRank l₂ →
    reliefBytesFor l₁ b ≤ reliefBytesFor l₂ b

/-- For relief to grow it is enough to compare neighbouring levels. -/
theorem reliefGrows_iff {b : Budget} : ReliefGrows b ↔
    reliefBytesFor .high b ≤ reliefBytesFor .critical b ∧
      reliefBytesFor .critical b ≤ reliefBytesFor .exhausted b := by
  constructor
  · intro h
    exact ⟨h .high .critical (by decide) (by decide), h .critical .exhausted
      (by decide) (by decide)⟩
  · rintro ⟨hfirst, hsecond⟩ l₁ l₂ h₁ h₂
    cases l₁ with
    | normal | elevated | unknown => exact absurd h₁ (by decide)
    | exhausted => cases l₂ <;> exact absurd h₂ (by decide)
    | critical =>
      cases l₂ with
      | exhausted => exact hsecond
      | _ => exact absurd h₂ (by decide)
    | high =>
      cases l₂ with
      | critical => exact hfirst
      | exhausted => exact UInt64.le_trans hfirst hsecond
      | _ => exact absurd h₂ (by decide)

/-- **Relief grows with the level, exactly when** at most one target is set, a demotion
target of at least a quarter of the capacity or a reclaim target of at most half of it. A
level asks for one target or the sum of both, or for a fraction of the capacity where a
target is missing; mixing the two is where the order may break. -/
theorem relief_grows_iff (b : Budget) : ReliefGrows b ↔
    (b.reclaimTarget = 0 ∨ b.demotionTarget = 0) ∧
      (b.demotionTarget ≠ 0 → b.hardCapacity / 4 ≤ b.demotionTarget) ∧
      (b.reclaimTarget ≠ 0 → b.reclaimTarget ≤ b.hardCapacity / 2) := by
  have hzero : ∀ n : UInt64, n = 0 ↔ n.toNat = 0 := fun n => (UInt64.toNat_inj (b := 0)).symm
  have hreclaim := b.reclaimTarget.toNat_lt
  have hdemotion := b.demotionTarget.toNat_lt
  have hfraction : ∀ k, b.hardCapacity.toNat / k % 2 ^ 64 = b.hardCapacity.toNat / k := fun k =>
    Nat.mod_eq_of_lt (Nat.lt_of_le_of_lt (Nat.div_le_self _ _) b.hardCapacity.toNat_lt)
  rw [reliefGrows_iff]
  simp only [UInt64.le_iff_toNat_le, toNat_reliefBytesFor, UInt64.toNat_div, ne_eq, hzero]
  show _ ↔ _ ∧ (_ → b.hardCapacity.toNat / 4 ≤ _) ∧ (_ → _ ≤ b.hardCapacity.toNat / 2)
  simp only [reliefTotal, ne_eq, hzero]
  by_cases hr : b.reclaimTarget.toNat = 0
  · by_cases hd : b.demotionTarget.toNat = 0
    -- fractions of the capacity grow
    · simp only [hr, hd, not_true_eq_false, if_false, hfraction]
      exact iff_of_true (by omega) ⟨Or.inl trivial, False.elim, False.elim⟩
    · simp only [hr, hd, not_true_eq_false, if_false, not_false_eq_true, if_true, hfraction,
        Nat.mod_eq_of_lt hdemotion]
      constructor
      · rintro ⟨-, hquarter⟩
        exact ⟨Or.inl trivial, fun _ => hquarter, False.elim⟩
      · rintro ⟨-, hquarter, -⟩
        exact ⟨by omega, hquarter trivial⟩
  · by_cases hd : b.demotionTarget.toNat = 0
    · simp only [hr, hd, not_true_eq_false, if_false, not_false_eq_true, if_true, hfraction,
        Nat.add_zero, Nat.mod_eq_of_lt hreclaim]
      constructor
      · rintro ⟨-, hhalf⟩
        exact ⟨Or.inr trivial, False.elim, fun _ => hhalf⟩
      · rintro ⟨-, -, hhalf⟩
        exact ⟨Nat.le_refl _, hhalf trivial⟩
    -- the sum is above the demotion target, or has wrapped around below the reclaim target
    · simp only [hr, hd, not_false_eq_true, if_true, Nat.mod_eq_of_lt hreclaim,
        Nat.mod_eq_of_lt hdemotion]
      exact iff_of_false (by omega) (fun h => h.1.elim id id)

/-- **Not always**: with both targets at 100 bytes, 100 are asked for at `High`, 200
at `Critical` and 100 again at `Exhausted`. -/
theorem relief_shrinks :
    let b : Budget := { hardCapacity := 1000, reclaimTarget := 100, demotionTarget := 100 }
    validateBudget b = none ∧ reliefBytesFor .high b = 100 ∧ reliefBytesFor .critical b = 200 ∧
      reliefBytesFor .exhausted b = 100 ∧
      ¬ ReliefGrows b := by
  refine ⟨by decide, by decide, by decide, by decide, ?_⟩
  intro h
  exact absurd (h .critical .exhausted (by decide) (by decide)) (by decide)

/-! ## No request lost -/

/-- The kind of relief an action asks for, if any. -/
def ResponseAction.reliefKind : ResponseAction → Option ReliefKind
  | .requestReclaim => some .reclaim
  | .requestDemotion => some .demotion
  | _ => Option.none

/-- Every request among the actions of an entry reaches whoever asks for the
response of its domain. -/
def NoRequestLost (s : Snapshot F) (ds : DomainState F) : Prop :=
  ∀ a ∈ ds.responses, ∀ kind ∈ a.reliefKind,
    ∃ r ∈ (responseFor (some s) ds.id).relief, r.kind = kind ∧ r.domain = ds.id

/-- The second pass leaves the recommendation to demote: the level has it, and the
domain is no accelerator beside a host tier that cannot take it. -/
def RecommendsDemotion (s : Snapshot F) (ds : DomainState F) : Prop :=
  (ds.level = .critical ∨ ds.level = .exhausted) ∧
    ¬ (isAccelerator ds.type = true ∧ hostBlocked s.domains = true)

/-- A level whose actions include reclaim is at least `High`. -/
theorem reclaim_mem_initialActions (level : PressureLevel) :
    ResponseAction.requestReclaim ∈ initialActions level
      ↔ severityRank .high ≤ severityRank level := by
  cases level <;> decide

theorem reclaim_mem_respond {blocked : Bool} {ds : DomainState F} :
    ResponseAction.requestReclaim ∈ (respond blocked ds).responses
      ↔ severityRank .high ≤ severityRank ds.level := by
  rw [mem_respond, reclaim_mem_initialActions]
  refine and_iff_left ?_
  rintro ⟨hdemotion, -⟩
  cases hdemotion

theorem requestDemotion_mem_respond {blocked : Bool} {ds : DomainState F} :
    ResponseAction.requestDemotion ∈ (respond blocked ds).responses
      ↔ (ds.level = .critical ∨ ds.level = .exhausted) ∧
        ¬ (isAccelerator ds.type = true ∧ blocked = true) := by
  rw [mem_respond, demotion_mem_initialActions]
  refine and_congr_right fun hlevel => not_congr ?_
  rw [and_iff_right rfl, and_iff_right (high_of_critical hlevel)]

/-- **No relief request is lost, exactly when** no demotion is recommended, and a domain
from `High` on has no calmer entry before it under its id: along every run, for every entry
of every snapshot. A response has one place for a relief request. `RequestReclaim` and
`RequestDemotion` are recommended together from `Critical` on, and the later one takes the
place; and a response is that of the first entry under the id. -/
theorem relief_reaches_iff (ops : List (Op F)) {pub : Published F}
    (hpub : pub ∈ publishedBy PressureRuntime.init ops) {ds : DomainState F}
    (hds : ds ∈ pub.snapshot.domains) :
    NoRequestLost pub.snapshot ds ↔
      ¬ RecommendsDemotion pub.snapshot ds ∧
        ∀ first, pub.snapshot.findDomain ds.id = some first →
          severityRank .high ≤ severityRank ds.level →
          severityRank .high ≤ severityRank first.level := by
  obtain ⟨pre, op, post, rfl, hstep⟩ := Machine.exists_step_of_mem_outputs step hpub
  obtain ⟨nowMs, polls, log, -, -, rfl⟩ := step_publishes hstep
  obtain ⟨first, hfirst⟩ := Option.isSome_iff_exists.mp
    (Snapshot.findDomain_isSome.mpr (List.mem_map_of_mem hds))
  unfold NoRequestLost RecommendsDemotion
  rw [responses_published hds, relief_published hfirst, ← requestDemotion_mem_respond]
  constructor
  · intro h
    refine ⟨?_, ?_⟩
    -- what is delivered, if anything, is a reclaim
    · intro hdemotion
      obtain ⟨r, hr, hkind, -⟩ := h _ hdemotion _ rfl
      split_ifs at hr
      · obtain rfl := Option.some.inj hr
        cases hkind
      · cases hr
    · intro first' hfirst' hhigh
      obtain rfl := Option.some.inj (hfirst.symm.trans hfirst')
      obtain ⟨r, hr, -⟩ := h _ (reclaim_mem_respond.mpr hhigh) _ rfl
      by_contra hlow
      rw [if_neg hlow] at hr
      cases hr
  · rintro ⟨hnone, hfound⟩ a ha kind hkind
    cases a with
    | requestReclaim =>
      obtain rfl := Option.some.inj hkind
      rw [if_pos (hfound first hfirst (reclaim_mem_respond.mp ha))]
      exact ⟨_, rfl, rfl, rfl⟩
    | requestDemotion => exact absurd ha hnone
    | _ => cases hkind

/-- A host at 90 percent, twice. -/
def busyHost : List (Op ℚ) :=
  let poll : Poll ℚ := { name := "host", outcome := .returned { observations :=
    [{ id := { high := 0, low := 1 }, type := .hostMemory, totalCapacity := 100,
       committed := 90 }] } }
  [.registerProvider "host", .refresh 1000 [poll], .refresh 2000 [poll]]

/-- At `High` the request of `busyHost` for reclaim is delivered. -/
theorem relief_reaches_high :
    ∃ pub ∈ publishedBy PressureRuntime.init busyHost, ∃ ds ∈ pub.snapshot.domains,
      ResponseAction.requestReclaim ∈ ds.responses ∧ NoRequestLost pub.snapshot ds := by
  have hrun : ∃ pub ∈ publishedBy PressureRuntime.init busyHost, ∃ ds ∈ pub.snapshot.domains,
      ds.level = .high ∧ ResponseAction.requestReclaim ∈ ds.responses ∧
        pub.snapshot.ids.Nodup := by decide +kernel
  obtain ⟨pub, hpub, ds, hds, hlevel, hreclaim, hnodup⟩ := hrun
  refine ⟨pub, hpub, ds, hds, hreclaim, (relief_reaches_iff busyHost hpub hds).mpr ⟨?_, ?_⟩⟩
  · rintro ⟨hcritical, -⟩
    rw [hlevel] at hcritical
    revert hcritical
    decide
  · intro first hfirst hhigh
    rw [Snapshot.findDomain_of_mem hnodup hds] at hfirst
    exact Option.some.inj hfirst ▸ hhigh

/-- **Not always**: the demotion recommended for a full accelerator beside a calm
host is overwritten by a reclaim. -/
theorem demotion_never_delivered :
    Machine.Along step Legal PressureRuntime.init fullAcceleratorRun ∧
      ∃ pub ∈ publishedBy (PressureRuntime.init : PressureRuntime ℚ) fullAcceleratorRun,
        ∃ ds ∈ pub.snapshot.domains, ResponseAction.requestDemotion ∈ ds.responses ∧
          (responseFor (some pub.snapshot) ds.id).relief.map ReliefRequest.kind = some .reclaim ∧
          ¬ NoRequestLost pub.snapshot ds := by
  have hrun : ∃ pub ∈ publishedBy (PressureRuntime.init : PressureRuntime ℚ) fullAcceleratorRun,
      ∃ ds ∈ pub.snapshot.domains, ResponseAction.requestDemotion ∈ ds.responses ∧
        (responseFor (some pub.snapshot) ds.id).relief.map ReliefRequest.kind = some .reclaim := by
    decide +kernel
  obtain ⟨pub, hpub, ds, hds, hdemotion, hkind⟩ := hrun
  refine ⟨by decide +kernel, pub, hpub, ds, hds, hdemotion, hkind, ?_⟩
  intro h
  obtain ⟨r, hr, hrkind, -⟩ := h _ hdemotion _ rfl
  rw [show (responseFor (some pub.snapshot) ds.id).relief = some r from hr, Option.map_some,
    hrkind] at hkind
  cases hkind

end MemoryPressure
