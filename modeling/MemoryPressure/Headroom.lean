import Mathlib.Algebra.Order.Field.Basic
import MemoryPressure.ClassifierOrder
import MemoryPressure.Reserves
import MemoryPressure.Signals

/-!
# What a budget leaves (`budget.h`, `runtime.cpp`, `core.cpp`)

`refresh` derives two things from the usable capacity of a domain: the bytes that
are available, by a subtraction floored at 0, and the utilization, by a division
guarded against 0.

- `reserving_more`: reserving more never makes more available, and never lowers
  the raw level as long as something stays usable. Nothing usable counts as
  nothing used, which the guard says on purpose.
- `availability_agrees_iff`: the available bytes that `refresh` publishes are
  those of `compute_domain_available`, except in an ungoverned domain, where the
  one goes by the ceiling and the other by what the provider says.

For `reserving_more` the classifier has to respect an order of quotients, and division in
`double` rounds. What is used of it is that a smaller divisor gives no smaller quotient
(`OrderedRatios`), which rounding to nearest keeps, together with a transitive order. The
rest is monotonicity of the classifier (`ClassifierOrder.lean`).

`compute_domain_available` is the helper the source offers beside `refresh`, and is compared
with it for any state of the runtime and any refresh, reachable or not.
-/

namespace MemoryPressure

variable {F : Type} [Double F]

/-! ## Available bytes -/

/-- A floored 64-bit subtraction is the subtraction of natural numbers. -/
theorem toNat_floored_sub (a b : UInt64) :
    (if a > b then a - b else 0).toNat = a.toNat - b.toNat := by
  split_ifs with h
  · exact UInt64.toNat_sub_of_le _ _ (UInt64.le_of_lt h)
  · have hle := UInt64.le_iff_toNat_le.mp (UInt64.not_lt.mp h)
    exact (Nat.sub_eq_zero_of_le hle).symm

/-- What is available is what the commitment leaves of the usable capacity. -/
theorem toNat_available (pol : PressurePolicy F) (budgets : Budgets) (nowMs : UInt64)
    (st : DomainRuntimeState F) (sight : Sighting F) :
    (interpretStep pol budgets nowMs st sight).2.available.toNat
      = (usableFor (budgets.lookup sight.2.id) sight.2).toNat - sight.2.committed.toNat :=
  toNat_floored_sub ..

/-- Under a budget that governs, the budget says what is usable. -/
theorem usableFor_governed {b : Budget} (hgov : b.hardCapacity ≠ 0) (obs : DomainObservation F) :
    usableFor (some b) obs = b.usableCapacity := by
  have hgoverned : isGoverned (some b) = true := by simpa [isGoverned] using hgov
  rw [usableFor, if_pos hgoverned, effectiveBudget, if_pos hgov]

/-- Without a budget that governs, the provider's ceiling does (runtime.cpp:243). -/
theorem usableFor_ungoverned {budget : Option Budget}
    (h : (budget.getD defaultBudget).hardCapacity = 0)
    (obs : DomainObservation F) :
    usableFor budget obs = obs.usableCapacity.getD obs.totalCapacity := by
  have hfree : isGoverned budget = false := by
    cases budget with
    | none => rfl
    | some b => simpa [isGoverned] using h
  rw [usableFor, if_neg (by simp [hfree])]

/-! ## Reserving more -/

/-- What `double` promises of quotients: a smaller divisor gives no smaller
quotient. -/
class OrderedRatios (F : Type) [Double F] : Prop where
  div_anti : ∀ c m n : UInt64, 0 < m → m ≤ n →
    (Double.ofUInt64 c / Double.ofUInt64 n : F) ≤ Double.ofUInt64 c / Double.ofUInt64 m

instance : OrderedRatios ℚ where
  div_anti := fun c m n hm hle => by
    have hc : (0 : ℚ) ≤ ((c.toNat : Int) : ℚ) := Int.cast_nonneg (Int.natCast_nonneg _)
    have hpos : (0 : ℚ) < ((m.toNat : Int) : ℚ) :=
      Int.cast_pos.mpr (Int.natCast_pos.mpr (UInt64.lt_iff_toNat_lt.mp hm))
    have hmn : ((m.toNat : Int) : ℚ) ≤ ((n.toNat : Int) : ℚ) :=
      Int.cast_le.mpr (Int.ofNat_le.mpr (UInt64.le_iff_toNat_le.mp hle))
    exact div_le_div_of_nonneg_left hc hpos hmn

/-- The more is reserved of a capacity, the less of it is usable. -/
theorem usableCapacity_anti {b₁ b₂ : Budget} (hhard : b₁.hardCapacity = b₂.hardCapacity)
    (hres : b₁.reserveBytes ≤ b₂.reserveBytes) : b₂.usableCapacity ≤ b₁.usableCapacity := by
  unfold Budget.usableCapacity
  rw [UInt64.le_iff_toNat_le] at hres ⊢
  rw [hhard]
  dsimp only
  by_cases h₂ : b₂.hardCapacity ≥ b₂.reserveBytes
  · have h₁ : b₂.hardCapacity ≥ b₁.reserveBytes :=
      UInt64.le_trans (UInt64.le_iff_toNat_le.mpr hres) h₂
    rw [if_pos h₂, if_pos h₁, UInt64.toNat_sub_of_le _ _ h₂, UInt64.toNat_sub_of_le _ _ h₁]
    omega
  · rw [if_neg h₂]
    exact Nat.zero_le _

theorem usableCapacity_pos {b : Budget} (h : b.reserveBytes < b.hardCapacity) :
    0 < b.usableCapacity := by
  rw [UInt64.lt_iff_toNat_lt, Budget.toNat_usableCapacity (UInt64.le_of_lt h)]
  exact Nat.sub_pos_of_lt (UInt64.lt_iff_toNat_lt.mp h)

theorem usableCapacity_eq_zero {b : Budget} (h : b.hardCapacity ≤ b.reserveBytes) :
    b.usableCapacity = 0 := by
  unfold Budget.usableCapacity
  dsimp only
  split_ifs with hge
  · rw [UInt64.le_antisymm h hge, UInt64.sub_self]
  · rfl

/-- **Reserving more never looks healthier**, as long as something stays usable:
of two budgets with one hard capacity, the one that reserves more makes no more
available of an observation and gives it no lower raw level. When it reserves
everything, the utilization counts as 0 (runtime.cpp:17). -/
theorem reserving_more [IsTrans F (· ≤ ·)] [OrderedRatios F] {b₁ b₂ : Budget}
    (hgov : 0 < b₁.hardCapacity) (hhard : b₁.hardCapacity = b₂.hardCapacity)
    (hres : b₁.reserveBytes ≤ b₂.reserveBytes) (pol : PressurePolicy F) (budgets : Budgets)
    (nowMs : UInt64) (st : DomainRuntimeState F) (sight : Sighting F) :
    let raw b := rawLevel pol (some b) sight.2 st.hysteresis.current
    let entry b := (interpretStep pol (budgets.insert sight.2.id b) nowMs st sight).2
    (entry b₂).available ≤ (entry b₁).available ∧
      (b₂.reserveBytes < b₂.hardCapacity ∨ b₁.hardCapacity ≤ b₁.reserveBytes →
        severityRank (raw b₁) ≤ severityRank (raw b₂)) ∧
      (b₂.hardCapacity ≤ b₂.reserveBytes →
        raw b₂ = evaluateLevel 0.0 st.hysteresis.current pol.thresholds) := by
  intro raw entry
  have hne₁ : b₁.hardCapacity ≠ 0 := UInt64.pos_iff_ne_zero.mp hgov
  have hne₂ : b₂.hardCapacity ≠ 0 := hhard ▸ hne₁
  have husable := usableCapacity_anti hhard hres
  have hraw : ∀ b : Budget, b.hardCapacity ≠ 0 →
      raw b = evaluateLevel (utilizationFor sight.2.committed b.usableCapacity)
        st.hysteresis.current pol.thresholds := by
    intro b hb
    show evaluateLevel (utilizationFor _ (usableFor (some b) sight.2)) _ _ = _
    rw [usableFor_governed hb]
  have hentry : ∀ b : Budget, b.hardCapacity ≠ 0 →
      (entry b).available.toNat = b.usableCapacity.toNat - sight.2.committed.toNat := by
    intro b hb
    rw [toNat_available, Finmap.lookup_insert, usableFor_governed hb]
  refine ⟨?_, ?_, ?_⟩
  · rw [UInt64.le_iff_toNat_le, hentry b₁ hne₁, hentry b₂ hne₂]
    exact Nat.sub_le_sub_right (UInt64.le_iff_toNat_le.mp husable) _
  · intro hsome
    rw [hraw b₁ hne₁, hraw b₂ hne₂]
    rcases hsome with hsome | hnone
    · have hpos₂ := usableCapacity_pos hsome
      have hpos₁ := UInt64.lt_of_lt_of_le hpos₂ husable
      refine evaluateLevel_le_of_le pol.thresholds ?_ _
      rw [utilizationFor, utilizationFor, if_neg (UInt64.pos_iff_ne_zero.mp hpos₁),
        if_neg (UInt64.pos_iff_ne_zero.mp hpos₂)]
      exact OrderedRatios.div_anti _ _ _ hpos₂ husable
    -- with nothing usable under either, both utilizations are 0
    · rw [usableCapacity_eq_zero hnone,
        usableCapacity_eq_zero (hhard ▸ UInt64.le_trans hnone hres)]
  · intro hall
    rw [hraw b₂ hne₂, usableCapacity_eq_zero hall, utilizationFor, if_pos rfl]

/-- A budget of 100 bytes that reserves so many of them. -/
def hundredBytes (reserved : UInt64) : Budget :=
  { hardCapacity := 100, emergencyReserveBytes := reserved }

/-- The observation of a host that has committed 60 bytes. -/
def sixtyBytes : Sighting ℚ :=
  ("host", { id := { high := 0, low := 1 }, type := .hostMemory, totalCapacity := 100,
             committed := 60 })

/-- With 40 bytes reserved, the host looks no healthier than with 20. -/
theorem reserving_more_sixty :
    severityRank (rawLevel defaultPolicy (some (hundredBytes 20)) sixtyBytes.2 .normal)
      ≤ severityRank (rawLevel defaultPolicy (some (hundredBytes 40)) sixtyBytes.2 .normal) := by
  have hgov : 0 < (hundredBytes 20).hardCapacity := by decide
  have hhard : (hundredBytes 20).hardCapacity = (hundredBytes 40).hardCapacity := rfl
  have hres : (hundredBytes 20).reserveBytes ≤ (hundredBytes 40).reserveBytes := by decide
  exact (reserving_more hgov hhard hres defaultPolicy ∅ 1000 (DomainRuntimeState.new {} 16)
    sixtyBytes).2.1 (Or.inl (by decide))

/-- **Not always**: reserve all 100 bytes instead of 50, and the raw level drops
from `Exhausted` to `Normal`. -/
theorem reserving_all :
    validateBudget (hundredBytes 50) = none ∧ validateBudget (hundredBytes 100) = none ∧
      0 < (hundredBytes 50).hardCapacity ∧
      (hundredBytes 50).hardCapacity = (hundredBytes 100).hardCapacity ∧
      (hundredBytes 50).reserveBytes ≤ (hundredBytes 100).reserveBytes ∧
      ¬ severityRank (rawLevel defaultPolicy (some (hundredBytes 50)) sixtyBytes.2
            (DomainRuntimeState.new (F := ℚ) {} 16).hysteresis.current)
          ≤ severityRank (rawLevel defaultPolicy (some (hundredBytes 100)) sixtyBytes.2
            (DomainRuntimeState.new (F := ℚ) {} 16).hysteresis.current) := by
  decide +kernel

/-! ## Two definitions of availability -/

/-- `compute_domain_available` (core.cpp:331). -/
def computeDomainAvailable (b : Budget) (o : DomainObservation F) : UInt64 :=
  if b.hardCapacity = 0 then o.available
  else
    let usable := b.usableCapacity
    if o.committed < usable then usable - o.committed else 0

theorem toNat_computeDomainAvailable {b : Budget} (hgov : b.hardCapacity ≠ 0)
    (o : DomainObservation F) :
    (computeDomainAvailable b o).toNat = b.usableCapacity.toNat - o.committed.toNat := by
  rw [computeDomainAvailable, if_neg hgov]
  exact toNat_floored_sub ..

/-- No level admits more than is available. -/
theorem le_of_letsIn {level : PressureLevel} {bytes avail : UInt64}
    (h : (decideAdmission level bytes avail).1.letsIn = true) : bytes ≤ avail := by
  obtain ⟨bound, hbound, hle⟩ := admits_iff.mp h
  refine UInt64.le_trans hle ?_
  cases level with
  | normal =>
    obtain rfl := Option.some.inj hbound
    exact UInt64.le_refl _
  | elevated =>
    obtain rfl := Option.some.inj hbound
    rw [UInt64.le_iff_toNat_le, UInt64.toNat_div]
    exact Nat.div_le_self _ _
  | high =>
    obtain rfl := Option.some.inj hbound
    exact quarter_le avail
  | critical | exhausted | unknown => cases hbound

open PressureRuntime

/-- What a refresh publishes of a sighting is available under the budget in force
for its domain. -/
theorem available_published {rt : PressureRuntime F} {nowMs : UInt64} {log : PollLog F} {i : Nat}
    {sight : Sighting F} {ds : DomainState F} (hsight : log.sightings[i]? = some sight)
    (hds : (published rt.policy rt.budgets rt nowMs log).snapshot.domains[i]? = some ds) :
    ds.available.toNat = (usableFor (rt.budgets.lookup sight.2.id) sight.2).toNat
      - sight.2.committed.toNat := by
  have hfresh : (interpreted rt.policy rt.budgets rt nowMs log).2.map
        (fun ds => ds.available.toNat)
      = log.sightings.map fun sight =>
          (usableFor (rt.budgets.lookup sight.2.id) sight.2).toNat - sight.2.committed.toNat :=
    Keyed.feed_outputs_map _ _ _ (fun _ _ => toNat_available ..) _ _
  have hlen : i < (interpreted rt.policy rt.budgets rt nowMs log).2.length := by
    rw [← List.length_map (fun ds : DomainState F => ds.available.toNat), hfresh, List.length_map]
    exact (List.getElem?_eq_some_iff.mp hsight).1
  -- the sightings come first, in their order; the second pass keeps what is available
  obtain ⟨ds₀, hds₀, rfl⟩ : ∃ ds₀,
    (swept rt.policy rt.budgets rt nowMs log).domains[i]? = some ds₀ ∧
      respond _ ds₀ = ds := by
    rw [← Option.map_eq_some_iff, ← List.getElem?_map]
    exact hds
  rw [swept_domains, List.getElem?_append_left hlen] at hds₀
  have hsame := congrArg (fun l => l[i]?) hfresh
  rw [List.getElem?_map, List.getElem?_map, hds₀, hsight] at hsame
  exact Option.some.inj hsame

/-- **The two definitions agree, exactly when**: the domain is governed, or its
provider reports as available what its commitment leaves of its ceiling. Then
`admit` lets in no more bytes to an ungoverned domain than the provider reported
as available. -/
theorem availability_agrees_iff (rt : PressureRuntime F) {nowMs : UInt64} {polls : List (Poll F)}
    {pub : Published F} (hpub : pub ∈ (rt.refresh nowMs polls).2) {i : Nat} {sight : Sighting F}
    {ds : DomainState F} (hsight : (sightingsOf polls)[i]? = some sight)
    (hds : pub.snapshot.domains[i]? = some ds) :
    let b := (rt.budgets.lookup sight.2.id).getD defaultBudget
    (ds.available = computeDomainAvailable b sight.2 ∧
        (b.hardCapacity = 0 → pub.snapshot.findDomain ds.id = some ds → ∀ stats n,
          (admitBytes (some pub.snapshot) stats ds.id n).1.decision.letsIn = true →
            n ≤ sight.2.available))
      ↔ b.hardCapacity ≠ 0 ∨ sight.2.available.toNat
          = (sight.2.usableCapacity.getD sight.2.totalCapacity).toNat -
              sight.2.committed.toNat := by
  intro b
  obtain ⟨nowMs', polls', log, hop, hlog, rfl⟩ :=
    step_publishes (show pub ∈ (step rt (.refresh nowMs polls)).2 from hpub)
  obtain ⟨rfl, rfl⟩ := Op.refresh.inj hop
  have havailable := available_published (hlog.sightings ▸ hsight) hds
  by_cases hgov : b.hardCapacity = 0
  · rw [usableFor_ungoverned hgov] at havailable
    have hagree : ds.available = computeDomainAvailable b sight.2 ↔ sight.2.available.toNat
        = (sight.2.usableCapacity.getD sight.2.totalCapacity).toNat - sight.2.committed.toNat := by
      rw [computeDomainAvailable, if_pos hgov, ← havailable, ← UInt64.toNat_inj]
      exact eq_comm
    rw [← hagree]
    constructor
    · intro h
      exact Or.inr h.1
    · intro h
      have heq := h.resolve_left (not_not_intro hgov)
      refine ⟨heq, ?_⟩
      intro _ hfind stats n hin
      rw [(admitBytes_eq hfind stats n).1] at hin
      rw [computeDomainAvailable, if_pos hgov] at heq
      exact heq ▸ le_of_letsIn hin
  · refine iff_of_true ⟨?_, fun h => absurd h hgov⟩ (Or.inl hgov)
    have hsome : rt.budgets.lookup sight.2.id = some b := by
      cases hb : rt.budgets.lookup sight.2.id with
      | none => exact absurd (show b.hardCapacity = 0 by simp only [b, hb]; rfl) hgov
      | some b' => simp only [b, hb, Option.getD_some]
    rw [hsome, usableFor_governed hgov] at havailable
    exact UInt64.toNat_inj.mp (havailable.trans (toNat_computeDomainAvailable hgov sight.2).symm)

/-- What the Windows provider reports of its process beside 800 bytes that others
have committed of 1000 (windows.cpp:96). -/
def processCommit : DomainObservation ℚ :=
  { id := { high := 0, low := 4 }, type := .processCommit, totalCapacity := 1000, committed := 100,
    available := 200 }

/-- What a refresh polls that observes `processCommit`. -/
def processPolls : List (Poll ℚ) :=
  [{ name := "windows", outcome := .returned { observations := [processCommit] } }]

/-- Under a budget of 500 bytes, both definitions leave `processCommit` 400 bytes
available. -/
theorem availability_agrees_governed :
    let rt := runFrom (PressureRuntime.init : PressureRuntime ℚ)
      [.registerProvider "windows", .setBudget processCommit.id { hardCapacity := 500 }]
    ∃ pub ∈ (rt.refresh 1000 processPolls).2, ∃ ds ∈ pub.snapshot.domains,
      ds.available = 400 ∧
        ds.available = computeDomainAvailable { hardCapacity := 500 } processCommit := by
  intro rt
  refine ⟨_, List.mem_singleton_self _, _, List.mem_singleton_self _, by decide +kernel, ?_⟩
  have hsight : (sightingsOf processPolls)[0]? = some ("windows", processCommit) := rfl
  exact ((availability_agrees_iff rt (List.mem_singleton_self _) hsight rfl).mpr
    (Or.inl (by decide +kernel))).1

/-- **Not always**: without a budget, 900 bytes are published as available and let
in, 700 more than the provider reported. -/
theorem availability_disagrees :
    let rt := runFrom (PressureRuntime.init : PressureRuntime ℚ) [.registerProvider "windows"]
    ∃ pub ∈ (rt.refresh 1000 processPolls).2, ∃ ds ∈ pub.snapshot.domains,
      ds.available ≠ computeDomainAvailable defaultBudget processCommit ∧
        (admitBytes (some pub.snapshot) {} processCommit.id 900).1.decision.letsIn = true ∧
        ¬ 900 ≤ processCommit.available := by
  decide +kernel

end MemoryPressure
