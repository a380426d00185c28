import MemoryPressure.Run

/-!
# Differences and the events that announce them

`diff_snapshots` finds eight kinds of difference, the event types have a name
for six of them. Domains that come and go and levels that change are announced
by every refresh; `BUDGET_CHANGED`, `RESERVE_CHANGED` and `POLICY_CHANGED` are
documented but made by no loop of `refresh` (`not_produced`). So the batch of a
refresh announces every difference exactly when there is none of these three:
when the refresh is `Steady`, which is read off the policy, the budgets and the
polls it starts from (`announces_differences_iff`).

- `added_announced`, `removed_announced`, `level_announced`: the kinds that have a loop.
- `isProduced_of_mem`: which types the loops of a refresh can make at all.
- `budget_published`: the budget an entry shows is the one in force when it was last
  observed, which is how a difference of budgets becomes a condition on the polls and the
  budgets of this refresh.

A batch owes a difference an event of the right type on the right domain; that events and
differences come in the same order or number is not asked.
-/

namespace MemoryPressure

variable {F : Type} [Double F]

/-! ## What a batch owes a difference -/

/-- A batch has an event on `d` of a type in `p`. -/
def HasEvent (batch : List PressureEvent) (d : PressureDomainId)
    (p : PressureEventType → Bool) : Prop := ∃ e ∈ batch, e.domain = some d ∧ p e.type = true

instance (batch : List PressureEvent) (d : PressureDomainId) (p : PressureEventType → Bool) :
    Decidable (HasEvent batch d p) :=
  inferInstanceAs (Decidable (∃ e ∈ batch, _))

/-- The batch of a publication announces what differs from the snapshot before it. -/
structure AnnouncesDifferences (prev : Snapshot F) (pub : Published F) : Prop where
  added : ∀ d ∈ (diffSnapshots prev pub.snapshot).addedDomains,
    HasEvent pub.events d (· = .domainAdded)
  removed : ∀ d ∈ (diffSnapshots prev pub.snapshot).removedDomains,
    HasEvent pub.events d (· = .domainRemoved)
  level : ∀ d ∈ (diffSnapshots prev pub.snapshot).levelChanged,
    HasEvent pub.events d PressureEventType.isTransition
  budget : ∀ hex ∈ (diffSnapshots prev pub.snapshot).budgetChanged,
    ∃ e ∈ pub.events, e.domain.map PressureDomainId.toHex = some hex ∧ e.type = .budgetChanged
  reserve : ∀ d ∈ (diffSnapshots prev pub.snapshot).reserveChanged,
    HasEvent pub.events d (· = .reserveChanged)
  policy : (∃ e ∈ pub.events, e.type = .policyChanged) ↔
    (diffSnapshots prev pub.snapshot).policyChanged = true

instance (prev : Snapshot F) (pub : Published F) : Decidable (AnnouncesDifferences prev pub) :=
  decidable_of_iff
    ((∀ d ∈ (diffSnapshots prev pub.snapshot).addedDomains,
        HasEvent pub.events d (· = .domainAdded)) ∧
      (∀ d ∈ (diffSnapshots prev pub.snapshot).removedDomains,
        HasEvent pub.events d (· = .domainRemoved)) ∧
      (∀ d ∈ (diffSnapshots prev pub.snapshot).levelChanged,
        HasEvent pub.events d PressureEventType.isTransition) ∧
      (∀ hex ∈ (diffSnapshots prev pub.snapshot).budgetChanged, ∃ e ∈ pub.events,
        e.domain.map PressureDomainId.toHex = some hex ∧ e.type = .budgetChanged) ∧
      (∀ d ∈ (diffSnapshots prev pub.snapshot).reserveChanged,
        HasEvent pub.events d (· = .reserveChanged)) ∧
      ((∃ e ∈ pub.events, e.type = .policyChanged) ↔
        (diffSnapshots prev pub.snapshot).policyChanged = true))
    ⟨fun ⟨ha, hr, hl, hb, hs, hp⟩ => ⟨ha, hr, hl, hb, hs, hp⟩,
      fun ⟨ha, hr, hl, hb, hs, hp⟩ => ⟨ha, hr, hl, hb, hs, hp⟩⟩

/-- Whatever a call publishes announces what differs from the snapshot current
before it. -/
def AnnouncesAt (rt : PressureRuntime F) (op : Op F) : Prop :=
  ∀ pub ∈ (step rt op).2, AnnouncesDifferences rt.currentSnapshot pub

instance (rt : PressureRuntime F) (op : Op F) : Decidable (AnnouncesAt rt op) :=
  inferInstanceAs (Decidable (∀ pub ∈ _, _))

/-- A refresh that completes under the policy version of the current snapshot
and observes no known domain under a budget with another hard capacity or
reserve total. -/
def Steady (rt : PressureRuntime F) : Op F → Prop
  | .refresh _ polls => Completes polls →
    rt.policy.version = rt.currentSnapshot.policyVersion ∧
      ∀ sight ∈ sightingsOf polls, ∀ pd ∈ rt.currentSnapshot.findDomain sight.2.id,
        (effectiveBudget (rt.budgets.lookup sight.2.id)).hardCapacity = pd.budget.hardCapacity ∧
          (effectiveBudget (rt.budgets.lookup sight.2.id)).reserveBytes = pd.budget.reserveBytes
  | _ => True

instance (rt : PressureRuntime F) (op : Op F) : Decidable (Steady rt op) :=
  match op with
  | .refresh _ _ => inferInstanceAs (Decidable (_ → _ ∧ _))
  | .setBudget .. | .clearBudget _ | .setPolicy _ | .setHistoryLimit _ | .registerProvider _ =>
    instDecidableTrue

/-! ## What is announced -/

open PressureRuntime

section

variable {rt : PressureRuntime F} {nowMs : UInt64} {polls : List (Poll F)} {log : PollLog F}
  {d : PressureDomainId}

/-- An event on one domain of the batch as it was made is in the published one. -/
theorem hasEvent_published {p : PressureEventType → Bool} {e : PressureEvent}
    (h : e ∈ draftEvents rt.policy rt.budgets rt nowMs log) (hd : e.domain = some d)
    (hp : p e.type = true) :
    HasEvent (published rt.policy rt.budgets rt nowMs log).events d p :=
  (exists_mem_stampIds (fun _ _ => Iff.rfl) _ _).mpr ⟨e, h, hd, hp⟩

/-- The responses pass keeps every swept entry under its id, type and level. -/
theorem mem_newDomains {ds : DomainState F}
    (h : ds ∈ newDomains rt.policy rt.budgets rt nowMs log) :
    ∃ ds₀ ∈ (swept rt.policy rt.budgets rt nowMs log).domains, ds₀.id = ds.id := by
  obtain ⟨ds₀, hds₀, rfl⟩ := List.mem_map.mp h
  exact ⟨ds₀, hds₀, rfl⟩

/-- Every domain new to the snapshot is announced. -/
theorem added_announced
    (h : d ∈ (diffSnapshots rt.currentSnapshot
      (published rt.policy rt.budgets rt nowMs log).snapshot).addedDomains) :
    HasEvent (published rt.policy rt.budgets rt nowMs log).events d (· = .domainAdded) := by
  obtain ⟨ds, hds, rfl⟩ := List.mem_map.mp h
  obtain ⟨hmem, hnew⟩ := List.mem_filter.mp hds
  obtain ⟨ds₀, hds₀, hid⟩ := mem_newDomains hmem
  refine hasEvent_published (e := makePressureEvent .domainAdded 0 nowMs (some ds₀.id)
    ("domain " ++ ds₀.type.toString ++ " added") 0) ?_ (congrArg some hid) rfl
  have hev : makePressureEvent .domainAdded 0 nowMs (some ds₀.id)
      ("domain " ++ ds₀.type.toString ++ " added") 0
        ∈ addedEvents nowMs rt.currentSnapshot
            (swept rt.policy rt.budgets rt nowMs log).domains :=
    List.mem_map.mpr ⟨ds₀, List.mem_filter.mpr ⟨hds₀, by rw [hid]; exact hnew⟩, rfl⟩
  unfold draftEvents
  simp only [List.mem_append, hev, or_true, true_or]

/-- Every domain that left the snapshot is announced: it was not observed, and
its provider is fresh, or it would still be there. -/
theorem removed_announced
    (h : d ∈ (diffSnapshots rt.currentSnapshot
      (published rt.policy rt.budgets rt nowMs log).snapshot).removedDomains) :
    HasEvent (published rt.policy rt.budgets rt nowMs log).events d (· = .domainRemoved) := by
  obtain ⟨pd, hpd, rfl⟩ := List.mem_map.mp h
  obtain ⟨hmem, hgone⟩ := List.mem_filter.mp hpd
  have hout := Snapshot.findDomain_eq_none.mp (Option.isNone_iff_eq_none.mp hgone)
  rw [ids_published, List.mem_append, not_or] at hout
  -- a provider that is not fresh would have had it retained
  have hfresh : (healthFor log.health pd.provider).notFresh = false := by
    rw [← Bool.not_eq_true]
    intro hph
    exact hout.2 (List.mem_map_of_mem (List.mem_filter.mpr ⟨hmem, by simp [retains, hph, hout.1]⟩))
  have hsweep : sweepEvent nowMs log.health (observedIds log) pd
      = some (makePressureEvent .domainRemoved 0 nowMs (some pd.id) "domain removed" 0) := by
    rw [sweepEvent, if_neg hout.1, if_neg (Bool.eq_false_iff.mp hfresh)]
  refine hasEvent_published (e := makePressureEvent .domainRemoved 0 nowMs (some pd.id)
    "domain removed" 0) ?_ rfl rfl
  have hev : makePressureEvent .domainRemoved 0 nowMs (some pd.id) "domain removed" 0
      ∈ (swept rt.policy rt.budgets rt nowMs log).events := by
    rw [swept, sweepAll_events, List.nil_append]
    exact List.mem_filterMap.mpr ⟨pd, hmem, hsweep⟩
  unfold draftEvents
  simp only [List.mem_append, hev, or_true, true_or]

/-- A level that differs makes a level event. -/
theorem levelEvent_of_ne (generation : Nat) (nowMs : UInt64) {prev : Snapshot F}
    {ds pds : DomainState F} (hfind : prev.findDomain ds.id = some pds)
    (hne : pds.level ≠ ds.level) :
    ∃ e, levelEvent generation nowMs prev ds = some e := by
  simp only [levelEvent, hfind, if_neg hne.symm]
  split_ifs
  all_goals exact ⟨_, rfl⟩

/-- Every change of level is announced. -/
theorem level_announced
    (h : d ∈ (diffSnapshots rt.currentSnapshot
      (published rt.policy rt.budgets rt nowMs log).snapshot).levelChanged) :
    HasEvent (published rt.policy rt.budgets rt nowMs log).events d
      PressureEventType.isTransition := by
  obtain ⟨⟨pds, ds⟩, hps, rfl⟩ := List.mem_map.mp h
  obtain ⟨hcommon, hne⟩ := List.mem_filter.mp hps
  obtain ⟨ds', hds', hpair⟩ := List.mem_filterMap.mp hcommon
  obtain ⟨pds', hfind, heq⟩ := Option.map_eq_some_iff.mp hpair
  obtain ⟨rfl, rfl⟩ := Prod.mk.inj heq
  obtain ⟨e, he⟩ := levelEvent_of_ne (newGeneration rt.policy rt.budgets rt nowMs log) nowMs
    hfind (of_decide_eq_true hne)
  refine hasEvent_published ?_ (levelEvent_spec he).1 (levelEvent_spec he).2
  have hev : e ∈ (newDomains rt.policy rt.budgets rt nowMs log).filterMap
      (levelEvent (newGeneration rt.policy rt.budgets rt nowMs log) nowMs rt.currentSnapshot) :=
    List.mem_filterMap.mpr ⟨ds', hds', he⟩
  unfold draftEvents
  simp only [List.mem_append, hev, or_true, true_or]

/-! ## What is not -/

/-- A type that some loop of `refresh` makes. Of the five that none makes, the first
three are documented as announcing a difference. -/
def PressureEventType.isProduced : PressureEventType → Bool
  | .budgetChanged | .reserveChanged | .policyChanged | .providerRecovered | .custom => false
  | _ => true

/-- **Every event of a batch is of a type some loop makes.** -/
theorem isProduced_of_mem (hlog : CompletesWith rt nowMs polls log) {e : PressureEvent}
    (h : e ∈ draftEvents rt.policy rt.budgets rt nowMs log) : e.type.isProduced = true := by
  simp only [draftEvents, List.mem_append, or_assoc] at h
  -- one case for each loop that makes events, in the order of `refresh`
  rcases h with hpoll | hsweep | hadded | hgen | hlevel | hrequest
  · rw [(pollAll_adds hlog.polled).1, List.nil_append] at hpoll
    obtain ⟨poll, -, he⟩ := List.mem_flatMap.mp hpoll
    rcases (Poll.mem_events he).2 with htype | htype
    all_goals
      rw [htype]
      rfl
  · rw [swept, sweepAll_events, List.nil_append] at hsweep
    obtain ⟨pd, -, he⟩ := List.mem_filterMap.mp hsweep
    rcases sweepEvent_type he with htype | htype
    all_goals
      rw [htype]
      rfl
  · rw [addedEvents_type hadded]
    rfl
  · unfold generationEvents at hgen
    split_ifs at hgen
    · rw [List.mem_singleton.mp hgen]
      rfl
    · cases hgen
  · obtain ⟨ds, -, he⟩ := List.mem_filterMap.mp hlevel
    have htype := (levelEvent_spec he).2
    cases htp : e.type <;> first | rfl | simp [htp, PressureEventType.isTransition] at htype
  · obtain ⟨ds, -, he⟩ := List.mem_flatMap.mp hrequest
    have htype := (requestEvents_spec he).2
    cases htp : e.type <;> first | rfl | simp [htp, PressureEventType.isRequest] at htype

/-- No published event is of a type that is not produced. -/
theorem not_produced (hlog : CompletesWith rt nowMs polls log) {e : PressureEvent}
    (h : e ∈ (published rt.policy rt.budgets rt nowMs log).events) :
    e.type.isProduced = true := by
  by_contra hno
  obtain ⟨e', he', hno'⟩ := (exists_mem_stampIds
    (p := fun e => ¬ e.type.isProduced = true) (fun _ _ => Iff.rfl) _ _).mp ⟨e, h, hno⟩
  exact hno' (isProduced_of_mem hlog he')

/-- The budget of an entry that was there before: the one in force, if the domain
was observed, else the one it had. -/
theorem budget_published (hlog : CompletesWith rt nowMs polls log)
    (hnd : rt.currentSnapshot.ids.Nodup) (hop : (Op.refresh nowMs polls).observes.Nodup)
    {pa pb : DomainState F} (hpa : rt.currentSnapshot.findDomain d = some pa)
    (hpb : (published rt.policy rt.budgets rt nowMs log).snapshot.findDomain d = some pb) :
    pb.budget = if d ∈ observedIds log then effectiveBudget (rt.budgets.lookup d)
      else pa.budget := by
  rw [Snapshot.findDomain_eq_head?] at hpb
  rcases seen_or_unseen hlog (List.nodup_iff_count_le_one.mp hop d) with hun | ⟨sight, hseen⟩
  · have hobs : d ∉ observedIds log := fun h => mem_observedIds.mp h hun
    have hlen : (rt.currentSnapshot.entriesOf d).length ≤ 1 := by
      rw [Snapshot.length_entriesOf]
      exact List.nodup_iff_count_le_one.mp hnd d
    obtain ⟨hmem, rfl⟩ := Snapshot.findDomain_some hpa
    have hone := Snapshot.entriesOf_eq_singleton hlen (Snapshot.mem_entriesOf.mpr ⟨hmem, rfl⟩)
    rw [(entriesOf_unseen _ _ _ _ hun).1, hone] at hpb
    rw [if_neg hobs]
    by_cases hph : (healthFor log.health pa.provider).notFresh = true
    -- retained with the budget it had
    · simp only [List.filter_cons, hph, if_true] at hpb
      obtain rfl := Option.some.inj hpb
      rfl
    · simp only [List.filter_cons, hph] at hpb
      cases hpb
  · have hobs : d ∈ observedIds log :=
      mem_observedIds.mpr (by rw [hseen]; exact List.cons_ne_nil _ _)
    have hid : sight.2.id = d := by
      have hin : sight ∈ sightingsFor d log.sightings := hseen ▸ List.mem_singleton_self sight
      exact of_decide_eq_true (List.mem_filter.mp hin).2
    rw [(entriesOf_seen _ _ _ _ hseen).1] at hpb
    obtain rfl := Option.some.inj hpb
    rw [if_pos hobs, ← hid]
    rfl

/-- **What a refresh leaves unannounced**: nothing but budgets, reserves and the
policy, and of these nothing exactly when the refresh is steady. -/
theorem announcesDifferences_iff (hlog : CompletesWith rt nowMs polls log)
    (hnd : rt.currentSnapshot.ids.Nodup) (hop : (Op.refresh nowMs polls).observes.Nodup) :
    AnnouncesDifferences rt.currentSnapshot (published rt.policy rt.budgets rt nowMs log) ↔
      Steady rt (.refresh nowMs polls) := by
  have hsilent : ∀ {t : PressureEventType}, t.isProduced = false →
      ∀ e ∈ (published rt.policy rt.budgets rt nowMs log).events, e.type ≠ t := by
    rintro t ht e he rfl
    rw [not_produced hlog he] at ht
    cases ht
  have hndNew : (published rt.policy rt.budgets rt nowMs log).snapshot.ids.Nodup := by
    rw [ids_published_nodup hnd, ← observes_of_completes hlog]
    exact hop
  constructor
  · intro h _
    constructor
    · by_contra hne
      obtain ⟨e, he, htype⟩ := h.policy.mpr (decide_eq_true (Ne.symm hne))
      exact hsilent rfl e he htype
    · rintro sight hsight pd hpd
      have hobs : sight.2.id ∈ observedIds log := by
        rw [hlog.observedIds_eq]
        exact List.mem_map_of_mem hsight
      have hin : sight.2.id ∈ (published rt.policy rt.budgets rt nowMs log).snapshot.ids := by
        rw [ids_published]
        exact List.mem_append_left _ hobs
      obtain ⟨pb, hpb⟩ := Option.isSome_iff_exists.mp (Snapshot.findDomain_isSome.mpr hin)
      have hpbBudget := budget_published hlog hnd hop hpd hpb
      rw [if_pos hobs] at hpbBudget
      by_contra hne
      rw [← hpbBudget, not_and_or] at hne
      obtain ⟨hmem, hid⟩ := Snapshot.findDomain_some hpb
      obtain ⟨e, he, -, htype⟩ := h.budget pb.id.toHex (List.mem_map.mpr ⟨(pd, pb),
        List.mem_filter.mpr ⟨List.mem_filterMap.mpr ⟨pb, hmem, by rw [hid, hpd]; rfl⟩,
          decide_eq_true (hne.imp Ne.symm Ne.symm)⟩, rfl⟩)
      exact hsilent rfl e he htype
  · intro hsteady
    obtain ⟨hversion, hkept⟩ := hsteady hlog.completes
    -- a common domain keeps hard capacity and reserves, observed or not
    have hsame : ∀ ps ∈ commonDomains rt.currentSnapshot
        (published rt.policy rt.budgets rt nowMs log).snapshot,
        ps.1.budget.hardCapacity = ps.2.budget.hardCapacity ∧
          ps.1.budget.reserveBytes = ps.2.budget.reserveBytes := by
      rw [forall_commonDomains_iff hndNew (P := fun pa pb =>
        pa.budget.hardCapacity = pb.budget.hardCapacity ∧
          pa.budget.reserveBytes = pb.budget.reserveBytes)]
      intro d pa pb hpa hpb
      rw [budget_published hlog hnd hop hpa hpb]
      by_cases hobs : d ∈ observedIds log
      · rw [if_pos hobs]
        rw [hlog.observedIds_eq] at hobs
        obtain ⟨sight, hsight, rfl⟩ := List.mem_map.mp hobs
        obtain ⟨hcap, hres⟩ := hkept sight hsight pa hpa
        exact ⟨hcap.symm, hres.symm⟩
      · rw [if_neg hobs]
        exact ⟨rfl, rfl⟩
    refine ⟨fun d => added_announced, fun d => removed_announced, fun d => level_announced,
      fun hex hhex => ?_, fun d hd => ?_, ?_⟩
    · obtain ⟨ps, hps, -⟩ := List.mem_map.mp hhex
      obtain ⟨hcommon, hne⟩ := List.mem_filter.mp hps
      obtain ⟨hcap, hres⟩ := hsame ps hcommon
      simp [hcap, hres] at hne
    · obtain ⟨ps, hps, -⟩ := List.mem_map.mp hd
      obtain ⟨hcommon, hne⟩ := List.mem_filter.mp hps
      exact absurd (hsame ps hcommon).2 (of_decide_eq_true hne)
    · refine iff_of_false ?_ ?_
      · rintro ⟨e, he, htype⟩
        exact hsilent rfl e he htype
      · show ¬ decide (rt.currentSnapshot.policyVersion ≠ rt.policy.version) = true
        simp [hversion]

end

/-! ## Over runs -/

/-- **Exactly when every difference is announced.** In a run in which no refresh observes
an id twice, every refresh announces all it changed exactly when every refresh is steady.
The three changes that no event announces are those of a hard capacity, of a reserve total
and of the policy version; a steady refresh has none of them. -/
theorem announces_differences_iff (ops : List (Op F)) (hops : ∀ op ∈ ops, op.observes.Nodup) :
    Machine.Along step AnnouncesAt (PressureRuntime.init : PressureRuntime F) ops ↔
      Machine.Along step Steady PressureRuntime.init ops := by
  refine Machine.along_iff step (I := fun rt => rt.currentSnapshot.ids.Nodup)
    (fun rt op hop hnd _ => ids_nodup_step hnd (hops op hop)) (fun rt op hop hnd => ?_)
    List.nodup_nil
  cases op with
  | refresh nowMs polls =>
    show (∀ pub ∈ (rt.refresh nowMs polls).2, _) ↔ _
    rcases rt.refresh_cases nowMs polls with ⟨log, hlog⟩ | ⟨hc, log, heq⟩
    · rw [hlog.refresh_eq, List.forall_mem_singleton]
      exact announcesDifferences_iff hlog hnd (hops _ hop)
    · rw [heq]
      exact iff_of_true (fun pub h => by cases h) fun h => absurd h hc
  | _ => exact iff_of_true (fun pub h => by cases h) trivial

/-- A host at 10 percent, seen twice under policy version 0; in between, a run
may govern it or change the policy. -/
def hostSeenTwice (between : List (Op ℚ)) : List (Op ℚ) :=
  let sample : Op ℚ := .refresh 1000 [{ name := "host", outcome := .returned { observations :=
    [{ id := { high := 0, low := 1 }, type := .hostMemory, totalCapacity := 100,
       committed := 10 }] } }]
  [.setPolicy { defaultPolicy with version := 0 }, .registerProvider "host", sample]
    ++ between ++ [sample]

/-- Left alone, the host makes a run whose differences are all announced. -/
theorem announces_differences_quiet :
    Machine.Along step AnnouncesAt (PressureRuntime.init : PressureRuntime ℚ)
      (hostSeenTwice []) :=
  (announces_differences_iff (hostSeenTwice []) (by decide +kernel)).mpr (by decide +kernel)

/-- Governed in between with a budget of 50 bytes, 5 of them in reserve, under a
new policy version, the host changes in budget, reserve and policy, and a run
the code can make announces none of the three. -/
theorem differences_not_announced :
    Machine.Along step Legal PressureRuntime.init (hostSeenTwice
        [.setBudget { high := 0, low := 1 } { hardCapacity := 50, emergencyReserveBytes := 5 },
          .setPolicy defaultPolicy]) ∧
      (∀ op ∈ hostSeenTwice
        [.setBudget { high := 0, low := 1 } { hardCapacity := 50, emergencyReserveBytes := 5 },
          .setPolicy defaultPolicy], op.observes.Nodup) ∧
      ¬ Machine.Along step AnnouncesAt (PressureRuntime.init : PressureRuntime ℚ) (hostSeenTwice
        [.setBudget { high := 0, low := 1 } { hardCapacity := 50, emergencyReserveBytes := 5 },
          .setPolicy defaultPolicy]) := by
  decide +kernel

end MemoryPressure
