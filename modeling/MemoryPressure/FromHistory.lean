import MemoryPressure.Telemetry
import MemoryPressure.OneWayLoad

/-!
# Events from the snapshots (`runtime.cpp`, `events.h`)

A queue that overflows drops events; the history keeps snapshots. What the events
of a refresh say of domains, levels, requests and the generation can be read off
the snapshot and the one before it (`eventsBetween`), so two consecutive snapshots
recover what was lost between them (`events_from_snapshots`).

**What is left out.** What a batch says of providers is not recovered: neither the
`PROVIDER_FAILED` and `PROVIDER_STALE` events of the poll, nor the `PROVIDER_STALE` event of
a retained domain, whose entry a snapshot does not tell from one that was observed stale.
`told` is a batch without these and without the numbers of its events, which go on from what
was published before.

- `removes_iff`: who was removed, told by the next snapshot, given distinct ids.
- `told_published`: one batch, from the two snapshots it stands between, loop by loop in the
  order in which `refresh` makes its events.
- `history_window`: the history is a suffix of all that was published, whatever its limit
  was and however often it was set, so the statement about runs carries over to it.
-/

namespace MemoryPressure

variable {F : Type} [Double F]

open PressureRuntime (CompletesWith published swept draftEvents newDomains newGeneration changed
  generationEvents)

/-! ## Between two snapshots -/

/-- The event is about a provider. -/
def PressureEventType.ofProvider : PressureEventType → Bool
  | .providerFailed | .providerStale => true
  | _ => false

/-- What a batch tells that is not about a provider, without the numbers. -/
def told (events : List PressureEvent) : List PressureEvent :=
  (events.filter fun e => !e.type.ofProvider).map fun e => { e with id := 0 }

/-- What happened to domains, levels and the generation from one snapshot to the
next. -/
def eventsBetween (prev next : Snapshot F) : List PressureEvent :=
  ((prev.domains.filter fun pd => pd.id ∉ next.ids).map fun pd =>
      makePressureEvent .domainRemoved 0 next.timestampMs (some pd.id) "domain removed" 0)
    ++ addedEvents next.timestampMs prev next.domains
    ++ (if next.generation = prev.generation then [] else
        [makePressureEvent .generationChanged next.generation next.timestampMs none
          ("generation " ++ toString next.generation) 0])
    ++ next.domains.filterMap (levelEvent next.generation next.timestampMs prev)
    ++ next.domains.flatMap (requestEvents next.generation next.timestampMs)

/-- What happened at each of the snapshots that follow one. -/
def eventsAlong : Snapshot F → List (Snapshot F) → List (List PressureEvent)
  | _, [] => []
  | prev, next :: rest => eventsBetween prev next :: eventsAlong next rest

/-- What happened after a snapshot on the way does not depend on what was before. -/
theorem drop_eventsAlong (prev : Snapshot F) (before : List (Snapshot F)) (snap : Snapshot F)
    (rest : List (Snapshot F)) :
    (eventsAlong prev (before ++ snap :: rest)).drop (before.length + 1)
      = eventsAlong snap rest := by
  induction before generalizing prev with
  | nil => rfl
  | cons next before ih => exact ih next

theorem told_append (es es' : List PressureEvent) : told (es ++ es') = told es ++ told es' := by
  rw [told, List.filter_append, List.map_append, told, told]

theorem told_stampIds (nextId : Nat) (es : List PressureEvent) :
    told (stampIds nextId es) = told es := by
  induction es generalizing nextId with
  | nil => rfl
  | cons e es ih =>
    have htail := ih (nextId + 1)
    unfold told at htail ⊢
    rw [stampIds, List.filter_cons, List.filter_cons]
    by_cases he : e.type.ofProvider = true
    · simp only [he]
      exact htail
    · simp only [he]
      exact congrArg (_ :: ·) htail

/-- What is not about a provider and has no number is told as it is. -/
theorem told_eq_self {es : List PressureEvent}
    (h : ∀ e ∈ es, e.type.ofProvider = false ∧ e.id = 0) : told es = es := by
  rw [told, List.filter_eq_self.mpr fun e he => by simp [(h e he).1]]
  refine (List.map_congr_left fun e he => ?_).trans (List.map_id _)
  rw [← (h e he).2]
  rfl

theorem told_eq_nil {es : List PressureEvent} (h : ∀ e ∈ es, e.type.ofProvider = true) :
    told es = [] := by
  rw [told, List.filter_eq_nil_iff.mpr fun e he => by simp [h e he], List.map_nil]

/-! ## One batch -/

section

variable {rt : PressureRuntime F} {nowMs : UInt64} {polls : List (Poll F)} {log : PollLog F}

theorem levelEvent_told {generation : Nat} {prev : Snapshot F} {ds : DomainState F}
    {e : PressureEvent} (h : levelEvent generation nowMs prev ds = some e) :
    e.type.ofProvider = false ∧ e.id = 0 := by
  unfold levelEvent at h
  split at h
  · cases h
  · split_ifs at h
    all_goals
      obtain rfl := Option.some.inj h
      exact ⟨rfl, rfl⟩

theorem requestEvents_told {generation : Nat} {ds : DomainState F} {e : PressureEvent}
    (h : e ∈ requestEvents generation nowMs ds) : e.type.ofProvider = false ∧ e.id = 0 := by
  obtain ⟨a, -, ha⟩ := List.mem_filterMap.mp h
  cases a with
  | requestReclaim | requestDemotion | reduceAdmission | rejectNewWork =>
    obtain rfl := Option.some.inj ha
    exact ⟨rfl, rfl⟩
  | _ => cases ha

/-- **Who was removed** can be read off the next snapshot: with distinct ids, a removed
domain is not in it, and everything else is observed or retained. -/
theorem removes_iff (hnd : rt.currentSnapshot.ids.Nodup) {pd : DomainState F}
    (hpd : pd ∈ rt.currentSnapshot.domains) :
    removes log.health (PressureRuntime.observedIds log) pd = true
      ↔ pd.id ∉ (published rt.policy rt.budgets rt nowMs log).snapshot.ids := by
  rw [PressureRuntime.ids_published, List.mem_append, not_or]
  have hkept : pd.id ∈ (rt.currentSnapshot.domains.filter
      (retains log.health (PressureRuntime.observedIds log))).map DomainState.id
        ↔ retains log.health (PressureRuntime.observedIds log) pd = true := by
    rw [List.mem_map]
    constructor
    · rintro ⟨pd', hpd', hid⟩
      obtain ⟨hmem, hretains⟩ := List.mem_filter.mp hpd'
      rwa [List.inj_on_of_nodup_map hnd hmem hpd hid] at hretains
    · exact fun h => ⟨pd, List.mem_filter.mpr ⟨hpd, h⟩, rfl⟩
  rw [hkept, removes, retains]
  by_cases hobs : pd.id ∈ PressureRuntime.observedIds log <;> simp [hobs]

/-- What the retention loop tells: who it removes. -/
theorem told_sweepEvents (nowMs : UInt64) (health : Finmap (fun _ : String => ProviderStatus))
    (ids : List PressureDomainId) (prev : List (DomainState F)) :
    told (prev.filterMap (sweepEvent nowMs health ids))
      = (prev.filter (removes health ids)).map fun pd =>
          makePressureEvent .domainRemoved 0 nowMs (some pd.id) "domain removed" 0 := by
  rw [List.filterMap_eq_flatMap_toList]
  induction prev with
  | nil => rfl
  | cons pd prev ih =>
    rw [List.flatMap_cons, told_append, ih, List.filter_cons]
    unfold sweepEvent removes
    by_cases hobs : pd.id ∈ ids
    · rw [if_pos hobs, if_neg (by simp [hobs])]
      rfl
    · rw [if_neg hobs]
      by_cases hstale : (healthFor health pd.provider).notFresh = true
      · rw [if_pos hstale, if_neg (by simp [hstale])]
        rfl
      · rw [if_neg hstale, if_pos (by simp [hobs, hstale])]
        rfl

/-- **What a batch tells** stands between the two snapshots. -/
theorem told_published (hnd : rt.currentSnapshot.ids.Nodup)
    (hgen : rt.currentSnapshot.generation = rt.generation)
    (hlog : CompletesWith rt nowMs polls log) :
    told (published rt.policy rt.budgets rt nowMs log).events
      = eventsBetween rt.currentSnapshot
          (published rt.policy rt.budgets rt nowMs log).snapshot := by
  have hpolls : told log.events = [] := by
    refine told_eq_nil fun e he => ?_
    rw [(pollAll_adds hlog.polled).1, List.nil_append] at he
    obtain ⟨poll, -, hev⟩ := List.mem_flatMap.mp he
    rcases (Poll.mem_events hev).2 with htype | htype <;> rw [htype] <;> rfl
  have hremoved : told (swept rt.policy rt.budgets rt nowMs log).events
      = (rt.currentSnapshot.domains.filter fun pd =>
          pd.id ∉ (published rt.policy rt.budgets rt nowMs log).snapshot.ids).map fun pd =>
            makePressureEvent .domainRemoved 0 nowMs (some pd.id) "domain removed" 0 := by
    rw [swept, sweepAll_events, List.nil_append, told_sweepEvents]
    refine congrArg (List.map _) (List.filter_congr fun pd hpd => ?_)
    rw [Bool.eq_iff_iff, decide_eq_true_iff]
    exact removes_iff hnd hpd
  have hadded : told (addedEvents nowMs rt.currentSnapshot
      (swept rt.policy rt.budgets rt nowMs log).domains)
        = addedEvents nowMs rt.currentSnapshot (newDomains rt.policy rt.budgets rt nowMs log) := by
    rw [newDomains, crossTier, PressureRuntime.addedEvents_map_respond]
    refine told_eq_self fun e he => ?_
    obtain ⟨ds, -, rfl⟩ := List.mem_map.mp he
    exact ⟨rfl, rfl⟩
  have hgeneration : told (generationEvents rt.policy rt.budgets rt nowMs log)
      = if newGeneration rt.policy rt.budgets rt nowMs log = rt.currentSnapshot.generation then []
        else [makePressureEvent .generationChanged (newGeneration rt.policy rt.budgets rt nowMs log)
          nowMs none
              ("generation " ++ toString (newGeneration rt.policy rt.budgets rt nowMs log)) 0] := by
    rw [hgen]
    unfold generationEvents newGeneration
    by_cases hc : changed rt.policy rt.budgets rt nowMs log = true
    · rw [if_pos hc, if_pos hc, if_neg (Nat.succ_ne_self _)]
      rfl
    · rw [if_neg hc, if_neg hc, if_pos rfl]
      rfl
  have hlevels : told ((newDomains rt.policy rt.budgets rt nowMs log).filterMap
      (levelEvent (newGeneration rt.policy rt.budgets rt nowMs log) nowMs rt.currentSnapshot))
          = _ :=
    told_eq_self fun e he => by
      obtain ⟨ds, -, hev⟩ := List.mem_filterMap.mp he
      exact levelEvent_told hev
  have hrequests : told ((newDomains rt.policy rt.budgets rt nowMs log).flatMap
      (requestEvents (newGeneration rt.policy rt.budgets rt nowMs log) nowMs)) = _ :=
    told_eq_self fun e he => by
      obtain ⟨ds, -, hev⟩ := List.mem_flatMap.mp he
      exact requestEvents_told hev
  show told (stampIds rt.eventId (draftEvents rt.policy rt.budgets rt nowMs log)) = _
  rw [told_stampIds, draftEvents, told_append, told_append, told_append, told_append, told_append,
    hpolls, hremoved, hadded, hgeneration, hlevels, hrequests, List.nil_append]
  rfl

end

/-! ## Runs -/

/-- The current snapshot has each id once, and the generation in force. -/
structure Readable (rt : PressureRuntime F) : Prop where
  ids : rt.currentSnapshot.ids.Nodup
  generation : rt.currentSnapshot.generation = rt.generation

/-- A step that observes no id twice keeps the current snapshot readable. -/
theorem Readable.step {rt : PressureRuntime F} (h : Readable rt) {op : Op F}
    (hop : op.observes.Nodup) : Readable (MemoryPressure.step rt op).1 where
  ids := ids_nodup_step h.ids hop
  generation := by
    cases op with
    | setPolicy p =>
      show (rt.setPolicy p).currentSnapshot.generation = (rt.setPolicy p).generation
      rw [rt.setPolicy_eq p]
      exact h.generation
    | setBudget id b =>
      show (rt.setBudget id b).currentSnapshot.generation = (rt.setBudget id b).generation
      rw [rt.setBudget_eq id b]
      exact h.generation
    | clearBudget | setHistoryLimit | registerProvider => exact h.generation
    | refresh nowMs polls =>
      show (rt.refresh nowMs polls).1.currentSnapshot.generation
        = (rt.refresh nowMs polls).1.generation
      rcases rt.refresh_cases nowMs polls with ⟨log, hlog⟩ | ⟨-, log, heq⟩
      · rw [hlog.refresh_eq]
        rfl
      · rw [heq]
        exact h.generation

/-- **What a run tells**, batch by batch, stands along the snapshots it publishes. -/
theorem told_run {rt : PressureRuntime F} (h : Readable rt) {ops : List (Op F)}
    (hops : ∀ op ∈ ops, op.observes.Nodup) :
    (publishedBy rt ops).map (fun pub => told pub.events)
      = eventsAlong rt.currentSnapshot ((publishedBy rt ops).map Published.snapshot) := by
  induction ops generalizing rt with
  | nil => rfl
  | cons op ops ih =>
    have hrest := ih (h.step (hops op (List.mem_cons_self ..)))
      fun op' hop' => hops op' (List.mem_cons_of_mem op hop')
    have hcons : publishedBy rt (op :: ops) = (step rt op).2 ++ publishedBy (step rt op).1 ops :=
      Machine.outputs_cons ..
    rw [hcons]
    rcases step_output rt op with ⟨hnone, hcur⟩ | ⟨pub, hout, hcur⟩
    · rw [hnone, List.nil_append, hrest, hcur]
    · obtain ⟨nowMs, polls, log, -, hlog, rfl⟩ :=
        step_publishes (show pub ∈ (step rt op).2 from hout ▸ List.mem_singleton_self pub)
      rw [hout, List.singleton_append, List.map_cons, hrest, hcur,
        told_published h.ids h.generation hlog]
      rfl

/-- A step leaves the history a window on what has been published. -/
theorem history_window {rt : PressureRuntime F} {snaps : List (Snapshot F)}
    (h : rt.history <:+ snaps) (op : Op F) :
    (step rt op).1.history <:+ snaps ++ (step rt op).2.map Published.snapshot := by
  cases op with
  | setPolicy p =>
    show (rt.setPolicy p).history <:+ snaps ++ []
    rw [rt.setPolicy_eq p, List.append_nil]
    exact h
  | setBudget id b =>
    show (rt.setBudget id b).history <:+ snaps ++ []
    rw [rt.setBudget_eq id b, List.append_nil]
    exact h
  | clearBudget | setHistoryLimit | registerProvider =>
    show rt.history <:+ snaps ++ []
    rw [List.append_nil]
    exact h
  | refresh nowMs polls =>
    show (rt.refresh nowMs polls).1.history
      <:+ snaps ++ (rt.refresh nowMs polls).2.map Published.snapshot
    rcases rt.refresh_cases nowMs polls with ⟨log, hlog⟩ | ⟨-, log, heq⟩
    · rw [hlog.refresh_eq]
      obtain ⟨older, rfl⟩ := h
      refine (List.drop_suffix _ _).trans ⟨older, ?_⟩
      rw [List.map_singleton, List.append_assoc]
    · rw [heq, List.map_nil, List.append_nil]
      exact h

/-- **Events from the snapshots.** In every run in which no refresh observes an id
twice, what each batch says of domains, levels, requests and the generation can be
read off its snapshot and the one before it. So the history tells what was announced
since its oldest snapshot, whatever a subscriber's queue has dropped of it. Left out
(`told`) is what a batch says of providers: the `PROVIDER_FAILED` events of the poll and
the `PROVIDER_STALE` events, be they of the poll or of a domain retained. -/
theorem events_from_snapshots (ops : List (Op F)) (hops : ∀ op ∈ ops, op.observes.Nodup) :
    let pubs := publishedBy PressureRuntime.init ops
    pubs.map (fun pub => told pub.events) = eventsAlong {} (pubs.map Published.snapshot) ∧
      ∀ oldest rest, (runFrom PressureRuntime.init ops).history = oldest :: rest →
        (pubs.drop (pubs.length - rest.length)).map (fun pub => told pub.events)
          = eventsAlong oldest rest := by
  intro pubs
  have hstart : Readable (PressureRuntime.init : PressureRuntime F) := ⟨List.nodup_nil, rfl⟩
  have hrun : pubs.map (fun pub => told pub.events)
      = eventsAlong {} (pubs.map Published.snapshot) :=
    told_run hstart hops
  have hwindow := Machine.run_invariant (Machine.traced step)
    (I := fun x : PressureRuntime F × List (Published F) =>
      x.1.history <:+ x.2.map Published.snapshot)
    (fun x op (_ : op ∈ ops) hx => by
      show _ <:+ (x.2 ++ (step x.1 op).2).map Published.snapshot
      rw [List.map_append]
      exact history_window hx op) (s := (PressureRuntime.init, [])) (List.suffix_refl [])
  rw [Machine.run_traced, List.nil_append] at hwindow
  refine ⟨hrun, fun oldest rest hhistory => ?_⟩
  obtain ⟨before, hbefore⟩ : ∃ before, before ++ oldest :: rest = pubs.map Published.snapshot :=
    hhistory ▸ hwindow
  have hlength := congrArg List.length hbefore
  rw [List.length_append, List.length_cons, List.length_map] at hlength
  have hskip : pubs.length - rest.length = before.length + 1 := by omega
  rw [hskip, List.map_drop, hrun, ← hbefore]
  exact drop_eventsAlong ..

/-- A host that fills up and goes silent, under a history of two snapshots. -/
def shortHistory : List (Op ℚ) :=
  .setHistoryLimit 2 :: hostLoads [some 99, some 10, some 10, none]

/-- Two of the four snapshots of `shortHistory` are left, and tell the last batch. -/
theorem events_from_snapshots_short :
    let pubs := publishedBy PressureRuntime.init shortHistory
    pubs.map (fun pub => (told pub.events).length) = [5, 4, 5, 4] ∧
      ∀ oldest rest, (runFrom PressureRuntime.init shortHistory).history = oldest :: rest →
        rest.length = 1 ∧ (pubs.drop (pubs.length - rest.length)).map (fun pub => told pub.events)
          = eventsAlong oldest rest := by
  intro pubs
  refine ⟨by decide +kernel, fun oldest rest h => ⟨?_, ?_⟩⟩
  · have hlength : (runFrom PressureRuntime.init shortHistory).history.length = 2 := by
      decide +kernel
    rw [h] at hlength
    exact Nat.succ.inj hlength
  · exact (events_from_snapshots shortHistory (by decide +kernel)).2 oldest rest h

end MemoryPressure
