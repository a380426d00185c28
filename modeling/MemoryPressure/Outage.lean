import MemoryPressure.Run

/-!
# Provider outages

A published domain whose provider stops being fresh, and which nobody else
observes, stays in every snapshot as a stale copy of itself: each refresh makes
the copy from the previous one (`outage_refresh`), so over any stretch of
refreshes it keeps the reading from before the stretch (`outage_retains`). As
soon as the provider is fresh again and still nobody observes the domain, it is
removed, with its retained state and one announcement (`removed_refresh`).

What an outage keeps is the reading (`SameReading`): the provider, the level, the
utilization and the byte counts of the entry. Validity and confidence are marked, the time
becomes that of the refresh, and explanation and responses are made anew. `Held` adds the
retained state and is the invariant of a stretch; calls that refresh nothing keep it too, as
long as the policy stays.

**How many publications there are.** The statements are about whatever the calls of a
stretch publish. That is one snapshot for each refresh that completes, and none for any
other call (`length_publishedBy`), so nothing in them is said of nothing: a refresh
completes unless a provider throws something that is no `std::exception`.

Whether a provider is fresh is decided by how its samples end, and a throw counts as
`failed`. Freshness bounds of the policy play no part: `refresh` does not read them.
-/

namespace MemoryPressure

variable {F : Type} [Double F]

/-- Nobody observes `d`, and every poll of `p` ends in a status that is not
fresh (a throw counts as `failed`). -/
def Outage (p : String) (d : PressureDomainId) : Op F → Prop
  | .refresh _ polls =>
    (∀ poll ∈ polls, poll.name = p → poll.outcome.health.notFresh = true) ∧
      sightingsFor d (sightingsOf polls) = []
  | .setPolicy _ => False
  | _ => True

/-- Nobody observes `d`, and `p` is polled and answers `healthy` or `partial`. -/
def Withdrawn (p : String) (d : PressureDomainId) (polls : List (Poll F)) : Prop :=
  (∀ poll ∈ polls, poll.name = p → poll.outcome.health.notFresh = false) ∧
    (∃ poll ∈ polls, poll.name = p) ∧ sightingsFor d (sightingsOf polls) = []

instance (p : String) (d : PressureDomainId) (op : Op F) : Decidable (Outage p d op) :=
  match op with
  | .refresh _ _ => inferInstanceAs (Decidable (_ ∧ _))
  | .setPolicy _ => instDecidableFalse
  | .setBudget .. | .clearBudget _ | .setHistoryLimit _ | .registerProvider _ => instDecidableTrue

instance (p : String) (d : PressureDomainId) (polls : List (Poll F)) :
    Decidable (Withdrawn p d polls) :=
  inferInstanceAs (Decidable (_ ∧ (∃ poll ∈ polls, poll.name = p) ∧ _))

/-- The reading of a domain: what an outage keeps. -/
structure SameReading (pd ds : DomainState F) : Prop where
  provider : ds.provider = pd.provider
  level : ds.level = pd.level
  utilization : ds.utilization = pd.utilization
  committed : ds.committed = pd.committed
  available : ds.available = pd.available
  usableCapacity : ds.usableCapacity = pd.usableCapacity

theorem SameReading.refl (pd : DomainState F) : SameReading pd pd := ⟨rfl, rfl, rfl, rfl, rfl, rfl⟩

theorem SameReading.trans {a b c : DomainState F} (hab : SameReading a b)
    (hbc : SameReading b c) : SameReading a c :=
  ⟨hbc.provider.trans hab.provider, hbc.level.trans hab.level,
    hbc.utilization.trans hab.utilization, hbc.committed.trans hab.committed,
    hbc.available.trans hab.available, hbc.usableCapacity.trans hab.usableCapacity⟩

/-- A publication that retains `pd` as stale: one entry with its reading, marked,
and no event that says otherwise. -/
structure RetainedAs (pd : DomainState F) (pub : Published F) : Prop where
  entry : ∃ ds, pub.snapshot.entriesOf pd.id = [ds] ∧ SameReading pd ds ∧
    ds.validity = .stale ∧ ds.confidence = .low
  stale : pub.snapshot.staleData = true
  quiet : ∀ e ∈ pub.events, e.domain = some pd.id →
    e.type ≠ .domainRemoved ∧ e.type.isTransition = false

/-- A publication that removes `d`: no entry, one announcement. -/
structure RemovedIn (d : PressureDomainId) (pub : Published F) : Prop where
  absent : d ∉ pub.snapshot.ids
  announced : pub.events.countP (fun e => e.type = .domainRemoved ∧ e.domain = some d) = 1

section

open PressureRuntime

variable {rt : PressureRuntime F} {nowMs : UInt64} {polls : List (Poll F)} {log : PollLog F}
  {d : PressureDomainId} {pd : DomainState F}

/-- What the retention loop announces of the only entry of an unseen domain. -/
theorem sweepEvent_unseen (hone : rt.currentSnapshot.entriesOf d = [pd])
    (hunseen : sightingsFor d log.sightings = []) :
    (rt.currentSnapshot.entriesOf d).filterMap (sweepEvent nowMs log.health (observedIds log))
      = [if (healthFor log.health pd.provider).notFresh then
          makePressureEvent .providerStale 0 nowMs (some d) ("retained stale: " ++ pd.provider) 0
        else makePressureEvent .domainRemoved 0 nowMs (some d) "domain removed" 0] := by
  have hobs : d ∉ observedIds log := fun h => mem_observedIds.mp h hunseen
  have hid : pd.id = d :=
    (Snapshot.mem_entriesOf.mp (hone ▸ List.mem_singleton_self pd)).2
  rw [hone]
  by_cases hstale : (healthFor log.health pd.provider).notFresh = true
  · simp [sweepEvent, hid, hobs, hstale]
  · simp [sweepEvent, hid, hobs, hstale]

/-- **One refresh of an outage**: the copy of the copy, the retained state as it
was. -/
theorem outage_refresh (hlog : CompletesWith rt nowMs polls log)
    (hone : rt.currentSnapshot.entriesOf d = [pd])
    (hstale : (healthFor log.health pd.provider).notFresh = true)
    (hunseen : sightingsFor d log.sightings = []) :
    RetainedAs pd (published rt.policy rt.budgets rt nowMs log) ∧
      (refreshed rt.policy rt.budgets rt nowMs log).domainStates.lookup d
        = rt.domainStates.lookup d := by
  have hid : pd.id = d :=
    (Snapshot.mem_entriesOf.mp (hone ▸ List.mem_singleton_self pd)).2
  have hobs : d ∉ observedIds log := fun h => mem_observedIds.mp h hunseen
  obtain ⟨hentries, hstate⟩ := entriesOf_unseen rt.policy rt.budgets rt nowMs hunseen
  have hone' : (published rt.policy rt.budgets rt nowMs log).snapshot.entriesOf d
      = [respond (hostBlocked (swept rt.policy rt.budgets rt nowMs log).domains)
          (keeper nowMs pd)] := by
    rw [hentries, hone]
    simp [hstale]
  have hread : SameReading pd (respond
      (hostBlocked (swept rt.policy rt.budgets rt nowMs log).domains) (keeper nowMs pd)) :=
    ⟨rfl, rfl, rfl, rfl, rfl, rfl⟩
  refine ⟨⟨⟨_, hid.symm ▸ hone', hread, rfl, rfl⟩, ?_, ?_⟩, ?_⟩
  · -- the retained entry is what marks the snapshot stale
    have hpd : pd ∈ rt.currentSnapshot.domains :=
      (Snapshot.mem_entriesOf.mp (hone ▸ List.mem_singleton_self pd)).1
    show (swept rt.policy rt.budgets rt nowMs log).staleData = true
    rw [swept, sweepAll_staleData, Bool.or_eq_true, List.any_eq_true]
    exact Or.inr ⟨pd, hpd, by simp [retains, hid, hobs, hstale]⟩
  · intro e he hed
    rw [hid] at hed
    by_contra hbad
    obtain ⟨e', he', hd', hbad'⟩ := (exists_mem_stampIds
      (p := fun e => e.domain = some d ∧
        ¬ (e.type ≠ .domainRemoved ∧ e.type.isTransition = false))
      (fun _ _ => Iff.rfl) _ _).mp ⟨e, he, hed, hbad⟩
    have hon : e' ∈ eventsOn d (draftEvents rt.policy rt.budgets rt nowMs log) :=
      List.mem_filter.mpr ⟨he', by simpa using hd'⟩
    have hfind : rt.currentSnapshot.findDomain d = some pd := by
      rw [Snapshot.findDomain_eq_head?, hone]
      rfl
    rw [eventsOn_draftEvents hlog.events, sweepEvent_unseen hone hunseen, if_pos hstale,
      hone'] at hon
    refine hbad' ?_
    -- the sweep announces the retention, and the responses are requested again
    rcases List.mem_append.mp hon with hon | hreq
    · rcases List.mem_append.mp hon with hon | hlevel
      · rcases List.mem_append.mp hon with hsweep | hadded
        · rw [List.mem_singleton.mp hsweep]
          exact ⟨by simp [makePressureEvent], rfl⟩
        · rw [addedEvents_type hadded]
          exact ⟨by simp, rfl⟩
      · -- the level is the previous one, so there is no level event
        obtain ⟨ds, hds, hevent⟩ := List.mem_filterMap.mp hlevel
        rw [List.mem_singleton.mp hds, levelEvent,
          show (respond _ (keeper nowMs pd)).id = d from hid, hfind] at hevent
        simp at hevent
    · obtain ⟨ds, -, hmem⟩ := List.mem_flatMap.mp hreq
      have ht := (requestEvents_spec hmem).2
      revert ht
      cases e'.type <;> simp [PressureEventType.isRequest, PressureEventType.isTransition]
  · rw [hstate, hone]
    simp [hstale]

/-- **One refresh after the outage** in which the provider is fresh and still
nobody observes the domain. -/
theorem removed_refresh (hlog : CompletesWith rt nowMs polls log)
    (hone : rt.currentSnapshot.entriesOf d = [pd])
    (hfresh : (healthFor log.health pd.provider).notFresh = false)
    (hunseen : sightingsFor d log.sightings = []) :
    RemovedIn d (published rt.policy rt.budgets rt nowMs log) ∧
      (refreshed rt.policy rt.budgets rt nowMs log).domainStates.lookup d = none := by
  obtain ⟨hentries, hstate⟩ := entriesOf_unseen rt.policy rt.budgets rt nowMs hunseen
  have hnone : (published rt.policy rt.budgets rt nowMs log).snapshot.entriesOf d = [] := by
    rw [hentries, hone]
    simp [hfresh]
  refine ⟨⟨Snapshot.entriesOf_eq_nil.mp hnone, ?_⟩, ?_⟩
  · have hcount : (published rt.policy rt.budgets rt nowMs log).events.countP
          (fun e => e.type = .domainRemoved ∧ e.domain = some d)
        = (eventsOn d (draftEvents rt.policy rt.budgets rt nowMs log)).countP
            (fun e => e.type = .domainRemoved) := by
      refine (countP_stampIds (fun _ _ => rfl) _ _).trans ?_
      rw [eventsOn, List.countP_filter]
      simp only [Bool.decide_and]
    rw [hcount, eventsOn_draftEvents hlog.events, sweepEvent_unseen hone hunseen, hnone, hfresh]
    rfl
  · rw [hstate, hone]
    simp [hfresh]

end

/-! ## Stretches -/

/-- Before, during and after an outage: `d` has one entry, with the reading of
`pd`, and the retained state is the one of `rt₀`. -/
structure Held (rt₀ : PressureRuntime F) (pd : DomainState F) (rt : PressureRuntime F) : Prop where
  sound : Sound rt
  entry : ∃ ds, rt.currentSnapshot.entriesOf pd.id = [ds] ∧ SameReading pd ds
  state : rt.domainStates.lookup pd.id = rt₀.domainStates.lookup pd.id

/-- **One call of an outage** keeps the domain held, and what it publishes
retains it. -/
theorem held_step {rt₀ rt : PressureRuntime F} {pd : DomainState F} (h : Held rt₀ pd rt)
    {op : Op F} (hop : Outage pd.provider pd.id op) :
    (∀ pub ∈ (step rt op).2, RetainedAs pd pub) ∧ Held rt₀ pd (step rt op).1 := by
  obtain ⟨ds, hone, hread⟩ := h.entry
  have hsound := sound_step h.sound op
  cases op with
  | setPolicy p => cases hop
  | setBudget id b =>
    refine ⟨fun pub hpub => (by cases hpub), hsound, ⟨ds, ?_, hread⟩, ?_⟩
    · show (rt.setBudget id b).currentSnapshot.entriesOf pd.id = [ds]
      rw [rt.setBudget_eq id b]
      exact hone
    · show (rt.setBudget id b).domainStates.lookup pd.id = _
      rw [rt.setBudget_eq id b]
      exact h.state
  | clearBudget | setHistoryLimit | registerProvider =>
    exact ⟨fun pub hpub => (by cases hpub), hsound, ⟨ds, hone, hread⟩, h.state⟩
  | refresh nowMs polls =>
    have hstale :
        (healthFor (healthAfter rt.providerHealth polls) ds.provider).notFresh = true := by
      rw [h.sound.health, hread.provider]
      refine healthFor_after (P := fun s => s.notFresh = true) hop.1 (Or.inl ?_)
      rfl
    have hid : ds.id = pd.id :=
      (Snapshot.mem_entriesOf.mp (hone ▸ List.mem_singleton_self ds)).2
    rcases rt.refresh_cases nowMs polls with ⟨log, hlog⟩ | ⟨-, log, heq⟩
    · obtain ⟨hret, hstate⟩ := outage_refresh hlog hone (hlog.health ▸ hstale)
        (hlog.sightings ▸ hop.2)
      obtain ⟨ds', hone', hread', hval, hconf⟩ := hret.entry
      have hstep : step rt (.refresh nowMs polls)
          = (PressureRuntime.refreshed rt.policy rt.budgets rt nowMs log,
            [PressureRuntime.published rt.policy rt.budgets rt nowMs log]) := hlog.refresh_eq
      rw [hstep] at hsound ⊢
      refine ⟨fun pub hpub => ?_, hsound, ⟨ds', hid ▸ hone', hread.trans hread'⟩,
        hstate.trans h.state⟩
      obtain rfl := List.mem_singleton.mp hpub
      exact ⟨⟨ds', hid ▸ hone', hread.trans hread', hval, hconf⟩, hret.stale,
        fun e he hed => hret.quiet e he (hid.symm ▸ hed)⟩
    · have hstep : step rt (.refresh nowMs polls) = (rt.cutShort log, []) := heq
      rw [hstep] at hsound ⊢
      exact ⟨fun pub hpub => (by cases hpub), hsound, ⟨ds, hone, hread⟩, h.state⟩

/-- **An outage of any length**: everything published meanwhile retains the
domain, and at its end the domain is still held. -/
theorem held_run {rt₀ rt : PressureRuntime F} {pd : DomainState F} (h : Held rt₀ pd rt)
    {stretch : List (Op F)} (hout : ∀ op ∈ stretch, Outage pd.provider pd.id op) :
    (∀ pub ∈ publishedBy rt stretch, RetainedAs pd pub) ∧ Held rt₀ pd (runFrom rt stretch) := by
  induction stretch generalizing rt with
  | nil => exact ⟨fun pub hpub => (by cases hpub), h⟩
  | cons op stretch ih =>
    obtain ⟨hpubs, hheld⟩ := held_step h (hout op (List.mem_cons_self ..))
    obtain ⟨hrest, hend⟩ := ih hheld fun o ho => hout o (List.mem_cons_of_mem op ho)
    refine ⟨fun pub hpub => ?_, hend⟩
    rcases List.mem_append.mp hpub with hp | hp
    · exact hpubs pub hp
    · exact hrest pub hp

/-- **Outages retain, answers remove.** From any run that never observes a
published domain `pd` twice at once: over every stretch of calls in which its
provider is not fresh and nobody observes it, every publication retains it and
its retained state is untouched; and a refresh after that stretch in which the
provider is fresh and still nobody observes it removes it, its retained state
included. There is one publication for each refresh of the stretch that completes
(`length_publishedBy`), and exactly one of the refresh after it
(`CompletesWith.refresh_eq`). -/
theorem outage_retains (pre : List (Op F)) {pd : DomainState F}
    (hpd : pd ∈ (runFrom PressureRuntime.init pre).currentSnapshot.domains)
    (hpre : ∀ op ∈ pre, op.observes.count pd.id ≤ 1) (stretch : List (Op F))
    (hout : ∀ op ∈ stretch, Outage pd.provider pd.id op) :
    (∀ pub ∈ publishedBy (runFrom PressureRuntime.init pre) stretch, RetainedAs pd pub) ∧
      (runFrom PressureRuntime.init (pre ++ stretch)).domainStates.lookup pd.id
        = (runFrom PressureRuntime.init pre).domainStates.lookup pd.id ∧
      ∀ nowMs polls, Completes polls → Withdrawn pd.provider pd.id polls →
        (∀ pub ∈ (step (runFrom PressureRuntime.init (pre ++ stretch))
          (.refresh nowMs polls)).2, RemovedIn pd.id pub) ∧
        (step (runFrom PressureRuntime.init (pre ++ stretch))
          (.refresh nowMs polls)).1.domainStates.lookup pd.id = none := by
  -- one entry at most, so `pd` is the entry of its domain
  have hlen : ((runFrom PressureRuntime.init pre).currentSnapshot.entriesOf pd.id).length ≤ 1 :=
    Machine.run_invariant step
      (I := fun rt : PressureRuntime F => (rt.currentSnapshot.entriesOf pd.id).length ≤ 1)
      (fun rt op hop hlen => entriesOf_length_step hlen (hpre op hop)) (Nat.zero_le 1)
  have hone := Snapshot.entriesOf_eq_singleton hlen (Snapshot.mem_entriesOf.mpr ⟨hpd, rfl⟩)
  have hrun : runFrom PressureRuntime.init (pre ++ stretch)
      = runFrom (runFrom PressureRuntime.init pre) stretch := Machine.run_append ..
  obtain ⟨hpubs, hend⟩ := held_run ⟨sound_run pre, ⟨pd, hone, .refl pd⟩, rfl⟩ hout
  rw [hrun]
  refine ⟨hpubs, hend.state, ?_⟩
  intro nowMs polls hc hback
  obtain ⟨ds, hone', hread⟩ := hend.entry
  rcases (runFrom (runFrom PressureRuntime.init pre) stretch).refresh_cases nowMs polls with
    ⟨log, hlog⟩ | ⟨hnc, -⟩
  · have hfresh : (healthFor log.health ds.provider).notFresh = false := by
      rw [hlog.health, hread.provider]
      exact healthFor_after (P := fun s => s.notFresh = false) hback.1 (Or.inr hback.2.1)
    obtain ⟨hremoved, hstate⟩ := removed_refresh hlog hone' hfresh (hlog.sightings ▸ hback.2.2)
    have hstep : step (runFrom (runFrom PressureRuntime.init pre) stretch) (.refresh nowMs polls)
        = _ := hlog.refresh_eq
    rw [hstep]
    exact ⟨fun pub hpub => List.mem_singleton.mp hpub ▸ hremoved, hstate⟩
  · exact absurd hc hnc

/-- A host at 90 percent for two refreshes. -/
def hostUpRun : List (Op ℚ) :=
  let up : Poll ℚ :=
    { name := "host", outcome := .returned { observations :=
        [{ id := { high := 0, low := 1 }, type := .hostMemory, totalCapacity := 100,
           committed := 90 }] } }
  [.registerProvider "host", .refresh 1000 [up], .refresh 2000 [up]]

/-- The host's provider throws, is stale, then fails, while budgets go on changing. -/
def hostOutage : List (Op ℚ) :=
  [.refresh 3000 [{ name := "host", outcome := .threw "timeout" }],
    .refresh 4000 [{ name := "host", outcome := .returned { status := .stale } }],
    .clearBudget { high := 0, low := 9 },
    .refresh 5000 [{ name := "host", outcome := .returned { status := .failed } }]]

/-- The host is retained through that outage and removed by the next answer. -/
theorem outage_retains_host :
    ∃ pd ∈ (runFrom PressureRuntime.init hostUpRun).currentSnapshot.domains,
      pd.level = .high ∧
      (∀ pub ∈ publishedBy (runFrom PressureRuntime.init hostUpRun) hostOutage,
        RetainedAs pd pub) ∧
      ∀ pub ∈ (step (runFrom PressureRuntime.init (hostUpRun ++ hostOutage))
        (.refresh 6000 [{ name := "host", outcome := .returned {} }])).2, RemovedIn pd.id pub := by
  have hup : ∃ pd ∈ (runFrom PressureRuntime.init hostUpRun).currentSnapshot.domains,
      pd.id = { high := 0, low := 1 } ∧ pd.provider = "host" ∧ pd.level = .high := by
    decide +kernel
  obtain ⟨pd, hpd, hid, hprov, hlevel⟩ := hup
  obtain ⟨hret, -, hback⟩ := outage_retains hostUpRun hpd (by rw [hid]; decide +kernel) hostOutage
    (by rw [hid, hprov]; decide +kernel)
  refine ⟨pd, hpd, hlevel, hret, (hback _ _ (by decide +kernel) ?_).1⟩
  rw [hid, hprov]
  decide +kernel

end MemoryPressure
