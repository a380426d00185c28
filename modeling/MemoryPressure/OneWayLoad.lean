import MemoryPressure.ClassifierOrder
import MemoryPressure.Retained
import Mathlib.Algebra.Order.Ring.Rat

/-!
# Load that moves one way (`core.cpp`, `runtime.cpp`)

Debounce lets a level lag behind its load, and hysteresis lets it stick. Neither
turns it around: published snapshot by published snapshot, a domain whose
utilization never falls is never relieved (`rising_load_never_relieves`), and one
whose utilization never rises is never escalated, from any snapshot on in which the
classifier does not point above its level (`falling_load_never_escalates`).

- `Below`, `Above`: where the classifier points from the level, kept by a reading.
- `entry_step`: what a step publishes of a domain is a copy of its entry or one more
  reading of its machine.
- `Holds`: the invariant of a run, that the policy in force has the given thresholds, that
  the domain's state mirrors its entry, and that the entry satisfies `Below` or `Above`.

**What the two theorems ask.** The run is under one policy: one call of `set_policy` at its
start and none after it, neither before nor after the snapshot from which the load is
followed. And no refresh sees the domain twice. Both are used, as the state of a domain has
to mirror its entry: after `set_policy` a retained domain is published at a level that its
new machine has not reached, and its next two readings publish it lower and then higher
again, at one load. The loads and levels of a domain that is absent from a snapshot are not
compared; a rising domain may be withdrawn and come back, while a falling one has to stay
published.
-/

namespace MemoryPressure

variable {F : Type} [Double F]

/-! ## One reading -/

section

variable {t : Thresholds F} {u : F} {level : PressureLevel} {h : HysteresisState F}

/-- The classifier does not point below the level. -/
def Below (t : Thresholds F) (u : F) (level : PressureLevel) : Prop :=
  severityRank level ≤ severityRank (evaluateLevel u level t)

/-- The classifier does not point above the level. -/
def Above (t : Thresholds F) (u : F) (level : PressureLevel) : Prop :=
  severityRank (evaluateLevel u level t) ≤ severityRank level

instance (t : Thresholds F) (u : F) (level : PressureLevel) : Decidable (Above t u level) :=
  inferInstanceAs (Decidable (_ ≤ _))

/-- At rest the classifier can only point up. -/
theorem below_normal (t : Thresholds F) (u : F) : Below t u .normal :=
  severityRank_nonneg (evaluateLevel_ne_unknown u .normal t)

theorem Below.mono [IsTrans F (· ≤ ·)] (hbelow : Below t u level) {v : F} (hu : u ≤ v) :
    Below t v level := hbelow.trans (evaluateLevel_le_of_le t hu level)

theorem Above.mono [IsTrans F (· ≤ ·)] (habove : Above t u level) {v : F} (hu : v ≤ u) :
    Above t v level := (evaluateLevel_le_of_le t hu level).trans habove

/-- **A reading that points no lower** does not lower the level, nor point lower after. -/
theorem Below.read {r : Reading F} (hbelow : Below t r.1 h.current) :
    severityRank h.current ≤ severityRank (h.read t r).current ∧
      Below t r.1 (h.read t r).current := by
  rcases current_read t h r with hkeep | hmove
  · rw [hkeep]
    exact ⟨le_refl _, hbelow⟩
  · rw [hmove]
    refine ⟨hbelow, ?_⟩
    -- where the classifier has climbed to it stays
    rcases lt_or_eq_of_le hbelow with hlt | heq
    · exact le_of_eq (congrArg severityRank (evaluateLevel_rises hlt)).symm
    · have hsame : evaluateLevel r.1 h.current t = h.current := (severityRank_inj heq).symm
      unfold Below
      rw [hsame, hsame]

/-- **A reading that points no higher** does not raise the level, nor point higher after. -/
theorem Above.read {r : Reading F} (habove : Above t r.1 h.current) :
    severityRank (h.read t r).current ≤ severityRank h.current ∧
      Above t r.1 (h.read t r).current := by
  rcases current_read t h r with hkeep | hmove
  · rw [hkeep]
    exact ⟨le_refl _, habove⟩
  · rw [hmove]
    exact ⟨habove, evaluateLevel_falls r.1 h.current t⟩

end

/-! ## One step of the runtime -/

open PressureRuntime (CompletesWith published)

/-- The utilization at which a refresh of `rt` sees a domain. -/
def PressureRuntime.load (rt : PressureRuntime F) (sight : Sighting F) : F :=
  utilizationFor sight.2.committed (usableFor (rt.budgets.lookup sight.2.id) sight.2)

/-- How an entry of a domain came to be published by a refresh of `rt`. -/
inductive Entered (d : PressureDomainId) (rt : PressureRuntime F) (nowMs : UInt64)
    (polls : List (Poll F)) (b : DomainState F) : Prop
  /-- A copy of the one before, retained. -/
  | kept (a) : sightingsFor d (sightingsOf polls) = [] →
      rt.currentSnapshot.entriesOf d = [a] → b.level = a.level →
      b.utilization = a.utilization → Entered d rt nowMs polls b
  /-- The first reading of a domain that was not there. -/
  | arrived (sight) (h : HysteresisState F) : sightingsFor d (sightingsOf polls) = [sight] →
      rt.currentSnapshot.entriesOf d = [] → b.utilization = rt.load sight → h.current = .normal →
      b.level = (h.read rt.policy.thresholds (b.utilization, nowMs)).current →
      Entered d rt nowMs polls b
  /-- One more reading of the machine that carries the one before. -/
  | read (sight) (a) (h : HysteresisState F) : sightingsFor d (sightingsOf polls) = [sight] →
      rt.currentSnapshot.entriesOf d = [a] → b.utilization = rt.load sight → a.level = h.current →
      b.level = (h.read rt.policy.thresholds (b.utilization, nowMs)).current →
      Entered d rt nowMs polls b

/-- **What a step publishes of a domain** whose state mirrors its entry. -/
theorem entry_step {d : PressureDomainId} {rt : PressureRuntime F} (hmir : MirrorsAt d rt)
    {op : Op F} (hop : op.observes.count d ≤ 1) {pub : Published F} (hpub : pub ∈ (step rt op).2)
    {b : DomainState F} (hb : b ∈ pub.snapshot.entriesOf d) :
    ∃ nowMs polls, op = .refresh nowMs polls ∧ Completes polls ∧ Entered d rt nowMs polls b := by
  obtain ⟨nowMs, polls, log, rfl, hlog, rfl⟩ := step_publishes hpub
  refine ⟨nowMs, polls, rfl, hlog.completes, ?_⟩
  rcases seen_or_unseen hlog hop with hun | ⟨sight, hseen⟩
  · rw [(PressureRuntime.entriesOf_unseen rt.policy rt.budgets rt nowMs hun).1] at hb
    obtain ⟨a, ha, rfl⟩ := List.mem_map.mp hb
    rcases hmir with ⟨-, hnil⟩ | ⟨st, pd, -, hone, -⟩
    · rw [hnil] at ha
      cases ha
    · rw [hone] at ha
      obtain rfl := List.mem_singleton.mp (List.mem_filter.mp ha).1
      exact .kept a (hlog.sightings ▸ hun) hone rfl rfl
  · rw [(PressureRuntime.entriesOf_seen rt.policy rt.budgets rt nowMs hseen).1] at hb
    obtain rfl := List.mem_singleton.mp hb
    rcases hmir with ⟨hnone, hnil⟩ | ⟨st, pd, hst, hone, hcar⟩
    · rw [hnone]
      exact .arrived sight (HysteresisState.new rt.policy.hysteresis) (hlog.sightings ▸ hseen) hnil
        rfl rfl rfl
    · rw [hst]
      exact .read sight pd st.hysteresis (hlog.sightings ▸ hseen) hone rfl hcar.level rfl

/-! ## Runs -/

/-- What a step publishes of `d` has no lower utilization than what was there. -/
def LoadRises (d : PressureDomainId) (rt : PressureRuntime F) (op : Op F) : Prop :=
  ∀ pub ∈ (step rt op).2, ∀ a ∈ rt.currentSnapshot.entriesOf d,
    ∀ b ∈ pub.snapshot.entriesOf d, a.utilization ≤ b.utilization

/-- What a step publishes of `d`, which it does publish, has no higher utilization
than what was there. -/
def LoadFalls (d : PressureDomainId) (rt : PressureRuntime F) (op : Op F) : Prop :=
  ∀ pub ∈ (step rt op).2, pub.snapshot.entriesOf d ≠ [] ∧
    ∀ a ∈ rt.currentSnapshot.entriesOf d, ∀ b ∈ pub.snapshot.entriesOf d,
      b.utilization ≤ a.utilization

/-- What a step publishes of `d` is at no lower level than what was there. -/
def LevelRises (d : PressureDomainId) (rt : PressureRuntime F) (op : Op F) : Prop :=
  ∀ pub ∈ (step rt op).2, ∀ a ∈ rt.currentSnapshot.entriesOf d,
    ∀ b ∈ pub.snapshot.entriesOf d, severityRank a.level ≤ severityRank b.level

/-- What a step publishes of `d` is at no higher level than what was there. -/
def LevelFalls (d : PressureDomainId) (rt : PressureRuntime F) (op : Op F) : Prop :=
  ∀ pub ∈ (step rt op).2, ∀ a ∈ rt.currentSnapshot.entriesOf d,
    ∀ b ∈ pub.snapshot.entriesOf d, severityRank b.level ≤ severityRank a.level

instance (d : PressureDomainId) (rt : PressureRuntime F) (op : Op F) :
    Decidable (LoadRises d rt op) :=
  inferInstanceAs (Decidable (∀ pub ∈ _, ∀ a ∈ _, ∀ b ∈ _, _ ≤ _))

instance (d : PressureDomainId) (rt : PressureRuntime F) (op : Op F) :
    Decidable (LoadFalls d rt op) :=
  inferInstanceAs (Decidable (∀ pub ∈ _, _ ≠ _ ∧ ∀ a ∈ _, ∀ b ∈ _, _ ≤ _))

/-- An operation other than `set_policy` leaves the policy in force. -/
theorem policy_step (rt : PressureRuntime F) {op : Op F} (hpol : op.setsPolicy = false) :
    (step rt op).1.policy = rt.policy := by
  cases op with
  | setPolicy p => cases hpol
  | setBudget id b =>
    have hpolicy := congrArg PressureRuntime.policy (rt.setBudget_eq id b)
    exact hpolicy
  | clearBudget | setHistoryLimit | registerProvider => rfl
  | refresh nowMs polls =>
    show (rt.refresh nowMs polls).1.policy = rt.policy
    rcases rt.refresh_cases nowMs polls with ⟨log, hlog⟩ | ⟨-, log, heq⟩
    · rw [hlog.refresh_eq]
      rfl
    · rw [heq]
      rfl

/-- A domain and its entry, which satisfies `P` under the thresholds in force. -/
structure Holds (P : Thresholds F → F → PressureLevel → Prop) (t : Thresholds F)
    (d : PressureDomainId) (rt : PressureRuntime F) : Prop where
  thresholds : rt.policy.thresholds = t
  mirrors : MirrorsAt d rt
  entry : ∀ a ∈ rt.currentSnapshot.entriesOf d, P t a.utilization a.level

/-- What holds of everything a step publishes of a domain holds after it. -/
theorem Holds.step {P : Thresholds F → F → PressureLevel → Prop} {t : Thresholds F}
    {d : PressureDomainId} {rt : PressureRuntime F} (h : Holds P t d rt) {op : Op F}
    (hpol : op.setsPolicy = false) (hop : op.observes.count d ≤ 1)
    (hpub : ∀ pub ∈ (step rt op).2, ∀ b ∈ pub.snapshot.entriesOf d, P t b.utilization b.level) :
    Holds P t d (MemoryPressure.step rt op).1 where
  thresholds := (congrArg PressurePolicy.thresholds (policy_step rt hpol)).trans h.thresholds
  mirrors := mirrorsAt_step h.mirrors hpol hop
  entry := by
    rcases step_output rt op with ⟨-, hcur⟩ | ⟨pub, hout, hcur⟩
    · rw [hcur]
      exact h.entry
    · rw [hcur]
      exact hpub pub (hout ▸ List.mem_singleton_self pub)

/-- **A step under rising load** does not lower the level, and leaves the classifier
pointing no lower. -/
theorem Holds.rises [IsTrans F (· ≤ ·)] {t : Thresholds F} {d : PressureDomainId}
    {rt : PressureRuntime F} (h : Holds Below t d rt) {op : Op F} (hop : op.observes.count d ≤ 1)
    (hload : LoadRises d rt op) :
    LevelRises d rt op ∧
      ∀ pub ∈ (MemoryPressure.step rt op).2, ∀ b ∈ pub.snapshot.entriesOf d,
        Below t b.utilization b.level := by
  obtain ⟨rfl, hmir, hentry⟩ := h
  have hread : ∀ pub ∈ (MemoryPressure.step rt op).2, ∀ b ∈ pub.snapshot.entriesOf d,
      Below rt.policy.thresholds b.utilization b.level ∧
        ∀ a ∈ rt.currentSnapshot.entriesOf d, severityRank a.level ≤ severityRank b.level := by
    intro pub hpub b hb
    obtain ⟨now, polls, -, -, hentered⟩ := entry_step hmir hop hpub hb
    rcases hentered with ⟨a, -, hone, hlevel, hu⟩ | ⟨-, m, -, hnil, -, hnormal, hlevel⟩ |
      ⟨-, a, m, -, hone, -, hcar, hlevel⟩
    · rw [hone, List.forall_mem_singleton, hlevel, hu]
      exact ⟨hentry a (hone ▸ List.mem_singleton_self a), le_refl _⟩
    · rw [hnil, hlevel]
      have hbelow : Below rt.policy.thresholds b.utilization m.current :=
        hnormal ▸ below_normal _ _
      exact ⟨(Below.read (r := (b.utilization, now)) hbelow).2, fun a ha => by cases ha⟩
    · have ha : a ∈ rt.currentSnapshot.entriesOf d := hone ▸ List.mem_singleton_self a
      have hbelow := (hentry a ha).mono (hload pub hpub a ha b hb)
      rw [hcar] at hbelow
      obtain ⟨hrises, hstill⟩ := Below.read (r := (b.utilization, now)) hbelow
      rw [hone, List.forall_mem_singleton, hlevel, hcar]
      exact ⟨hstill, hrises⟩
  exact ⟨fun pub hpub a ha b hb => (hread pub hpub b hb).2 a ha,
    fun pub hpub b hb => (hread pub hpub b hb).1⟩

/-- **A step under falling load** does not raise the level, and leaves the classifier
pointing no higher. -/
theorem Holds.falls [IsTrans F (· ≤ ·)] {t : Thresholds F} {d : PressureDomainId}
    {rt : PressureRuntime F} (h : Holds Above t d rt) (hthere : rt.currentSnapshot.entriesOf d ≠ [])
    {op : Op F} (hop : op.observes.count d ≤ 1) (hload : LoadFalls d rt op) :
    LevelFalls d rt op ∧
      ∀ pub ∈ (MemoryPressure.step rt op).2, ∀ b ∈ pub.snapshot.entriesOf d,
        Above t b.utilization b.level := by
  obtain ⟨rfl, hmir, hentry⟩ := h
  have hread : ∀ pub ∈ (MemoryPressure.step rt op).2, ∀ b ∈ pub.snapshot.entriesOf d,
      Above rt.policy.thresholds b.utilization b.level ∧
        ∀ a ∈ rt.currentSnapshot.entriesOf d, severityRank b.level ≤ severityRank a.level := by
    intro pub hpub b hb
    obtain ⟨now, polls, -, -, hentered⟩ := entry_step hmir hop hpub hb
    rcases hentered with ⟨a, -, hone, hlevel, hu⟩ | ⟨-, m, -, hnil, -, -, -⟩ |
      ⟨-, a, m, -, hone, -, hcar, hlevel⟩
    · rw [hone, List.forall_mem_singleton, hlevel, hu]
      exact ⟨hentry a (hone ▸ List.mem_singleton_self a), le_refl _⟩
    · exact absurd hnil hthere
    · have ha : a ∈ rt.currentSnapshot.entriesOf d := hone ▸ List.mem_singleton_self a
      have habove := (hentry a ha).mono ((hload pub hpub).2 a ha b hb)
      rw [hcar] at habove
      obtain ⟨hfalls, hstill⟩ := Above.read (r := (b.utilization, now)) habove
      rw [hone, List.forall_mem_singleton, hlevel, hcar]
      exact ⟨hstill, hfalls⟩
  exact ⟨fun pub hpub a ha b hb => (hread pub hpub b hb).2 a ha,
    fun pub hpub b hb => (hread pub hpub b hb).1⟩

/-- The calls a run under one load is made of: none that replaces the policy or sees
`d` twice, and all with the load going one way. -/
def Steadily (load : PressureRuntime F → Op F → Prop) (d : PressureDomainId)
    (rt : PressureRuntime F) (op : Op F) : Prop :=
  (op.setsPolicy = false ∧ op.observes.count d ≤ 1) ∧ load rt op

theorem steadily {load : PressureRuntime F → Op F → Prop} {d : PressureDomainId}
    {rt : PressureRuntime F} {ops : List (Op F)} (hpol : ∀ op ∈ ops, op.setsPolicy = false)
    (hops : ∀ op ∈ ops, op.observes.count d ≤ 1) (hload : Machine.Along step load rt ops) :
    Machine.Along step (Steadily load d) rt ops :=
  (Machine.along_and step).mpr ⟨(Machine.along_const_iff step).mpr
    fun op hop => ⟨hpol op hop, hops op hop⟩, hload⟩

/-- What a run under one policy holds of every domain that has not been seen. -/
theorem holds_start (P : Thresholds F → F → PressureLevel → Prop) (p : PressurePolicy F)
    (d : PressureDomainId) :
    Holds P (PressureRuntime.init.setPolicy p).policy.thresholds d
      (PressureRuntime.init.setPolicy p) := by
  have hsnapshot : (PressureRuntime.init.setPolicy p).currentSnapshot.entriesOf d = [] := by
    have hcurrent := congrArg PressureRuntime.currentSnapshot (PressureRuntime.init.setPolicy_eq p)
    rw [hcurrent]
    rfl
  refine ⟨rfl, Or.inl ⟨?_, hsnapshot⟩, fun a ha => ?_⟩
  · unfold PressureRuntime.setPolicy
    split_ifs
    · rfl
    · exact Keyed.lookup_mapVal ..
  · rw [hsnapshot] at ha
    cases ha

/-- **Rising load is never relieved.** In a run under one policy in which `d` is seen
at most once in each refresh, as long as its published utilization never falls from
one snapshot to the next, neither does its published level: whatever the thresholds
and delays are, and however often it is retained, withdrawn or back again. -/
theorem rising_load_never_relieves [IsTrans F (· ≤ ·)] (p : PressurePolicy F)
    (d : PressureDomainId) {ops : List (Op F)} (hpol : ∀ op ∈ ops, op.setsPolicy = false)
    (hops : ∀ op ∈ ops, op.observes.count d ≤ 1)
    (hload : Machine.Along step (LoadRises d) (PressureRuntime.init.setPolicy p) ops) :
    Machine.Along step (LevelRises d) (PressureRuntime.init.setPolicy p) ops := by
  refine Machine.along_mono step
    (I := Holds Below (PressureRuntime.init.setPolicy p).policy.thresholds d)
    (Q := Steadily (LoadRises d) d) (fun rt op hq h => ?_) (fun rt op h hq => ?_)
    (holds_start Below p d) (steadily hpol hops hload)
  · exact h.step hq.1.1 hq.1.2 (h.rises hq.1.2 hq.2).2
  · exact (h.rises hq.1.2 hq.2).1

/-- The host, for the runs that check the two theorems. -/
def host : PressureDomainId := { high := 0, low := 1 }

/-- The host of 100 bytes with so much of it committed, or out of sight for once. -/
def hostLoads (loads : List (Option UInt64)) : List (Op ℚ) :=
  .registerProvider "host" :: loads.mapIdx fun i load =>
    .refresh (1000 * (UInt64.ofNat i + 1)) [{ name := "host", outcome :=
      match load with
      | some used => .returned { observations :=
          [{ id := host, type := .hostMemory, totalCapacity := 100, committed := used }] }
      | none => .threw "gone" }]

/-- A load that climbs to critical, through an outage. -/
theorem rising_load_never_relieves_host :
    Machine.Along step (LevelRises host) (PressureRuntime.init.setPolicy defaultPolicy)
        (hostLoads [some 50, some 80, none, some 80, some 97, some 97]) ∧
      (runFrom (PressureRuntime.init.setPolicy defaultPolicy)
        (hostLoads [some 50, some 80, none, some 80, some 97, some 97])).currentSnapshot.domains.map
          DomainState.level = [.critical] :=
  ⟨rising_load_never_relieves defaultPolicy host (by decide +kernel) (by decide +kernel)
    (by decide +kernel), by decide +kernel⟩

/-- **Falling load is never escalated.** Take any run under one policy, in which `d`
is seen at most once in each refresh, to a snapshot in which the classifier does not
point above the level of `d`. As long as `d` is published from there on and its
utilization never rises from one snapshot to the next, its level does not either. -/
theorem falling_load_never_escalates [IsTrans F (· ≤ ·)] (p : PressurePolicy F)
    (d : PressureDomainId) {before ops : List (Op F)}
    (hpol : ∀ op ∈ before ++ ops, op.setsPolicy = false)
    (hops : ∀ op ∈ before ++ ops, op.observes.count d ≤ 1)
    (hthere : (runFrom (PressureRuntime.init.setPolicy p) before).currentSnapshot.entriesOf d ≠ [])
    (habove : ∀ a ∈ (runFrom (PressureRuntime.init.setPolicy p) before).currentSnapshot.entriesOf d,
      Above (PressureRuntime.init.setPolicy p).policy.thresholds a.utilization a.level)
    (hload : Machine.Along step (LoadFalls d)
        (runFrom (PressureRuntime.init.setPolicy p) before) ops) :
    Machine.Along step (LevelFalls d) (runFrom (PressureRuntime.init.setPolicy p) before) ops := by
  -- up to there the run only keeps the domain aligned
  have hstart : Holds (fun _ _ _ => True) (PressureRuntime.init.setPolicy p).policy.thresholds d
      (runFrom (PressureRuntime.init.setPolicy p) before) :=
    Machine.run_invariant step
      (I := Holds (fun _ _ _ => True) (PressureRuntime.init.setPolicy p).policy.thresholds d)
      (fun rt op hop h => h.step (hpol op (List.mem_append_left _ hop))
        (hops op (List.mem_append_left _ hop)) fun _ _ _ _ => trivial) (holds_start _ p d)
  refine Machine.along_mono step
    (I := fun rt => Holds Above (PressureRuntime.init.setPolicy p).policy.thresholds d rt ∧
      rt.currentSnapshot.entriesOf d ≠ [])
    (Q := Steadily (LoadFalls d) d) (fun rt op hq h => ⟨?_, ?_⟩) (fun rt op h hq => ?_)
    ⟨⟨hstart.thresholds, hstart.mirrors, habove⟩, hthere⟩
    (steadily (fun op hop => hpol op (List.mem_append_right _ hop))
      (fun op hop => hops op (List.mem_append_right _ hop)) hload)
  · exact h.1.step hq.1.1 hq.1.2 (h.1.falls h.2 hq.1.2 hq.2).2
  · rcases step_output rt op with ⟨-, hcur⟩ | ⟨pub, hout, hcur⟩
    · rw [hcur]
      exact h.2
    · rw [hcur]
      exact (hq.2 pub (hout ▸ List.mem_singleton_self pub)).1
  · exact (h.1.falls h.2 hq.1.2 hq.2).1

/-- A load that climbs to critical and drains from there, through an outage. -/
theorem falling_load_never_escalates_host :
    let loads := hostLoads [some 97, some 97, some 80, none, some 80, some 20, some 20, some 20]
    let rt := runFrom (PressureRuntime.init.setPolicy defaultPolicy) (loads.take 3)
    Machine.Along step (LevelFalls host) rt (loads.drop 3) ∧
      rt.currentSnapshot.domains.map DomainState.level = [.critical] ∧
      (runFrom rt (loads.drop 3)).currentSnapshot.domains.map DomainState.level
        = [.elevated] := by
  intro loads rt
  exact ⟨falling_load_never_escalates defaultPolicy host (by decide +kernel) (by decide +kernel)
    (by decide +kernel) (by decide +kernel) (by decide +kernel), by decide +kernel,
    by decide +kernel⟩

end MemoryPressure
