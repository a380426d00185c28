import MemoryPressure.Run

/-!
# Events against snapshots

A consumer that folds the events of every batch keeps one level per domain.
`tracks_step` says when one batch takes it from the levels of the previous
snapshot to those of the new one, `announced_iff` when every batch of a run
does.

The one gap: the level loop compares with the previous snapshot only, so a
domain that is new to the snapshot gets `DomainAdded` and nothing else, also
when its first observation resolves above `normal` (an emergency, or a dwell of
one observation). `StartsNormal` excludes that. It is a condition on the raw level of the
first observation and on a machine that has just been made.

**Proof structure.** A consumer's level of `d` is moved by the events on `d` only, and by
locality these are made from what happened to `d` (`foldl_published`). Two cases remain for
a refresh: `d` was seen (`tracks_seen`), where the level event carries the consumer over if
there was a level before, or it was not (`tracks_unseen`), where the consumer always
follows. Over runs, `Machine.tracks_iff_along` turns this into the equivalence.
-/

namespace MemoryPressure

variable {F : Type} [Double F]

/-! ## The consumer -/

/-- The level a severity rank stands for. -/
def levelOfRank : Nat → PressureLevel
  | 0 => .normal
  | 1 => .elevated
  | 2 => .high
  | 3 => .critical
  | 4 => .exhausted
  | _ => .unknown

/-- What one event does to the consumer's level of `d`. -/
def applyAt (d : PressureDomainId) (cur : Option PressureLevel) (e : PressureEvent) :
    Option PressureLevel :=
  if e.domain = some d then
    match e.type with
    | .domainAdded => some .normal
    | .pressureEntered | .pressureEscalated | .pressureRelieved =>
      some (levelOfRank e.severityRank)
    | .pressureRecovered => some .normal
    | .domainRemoved => none
    | _ => cur
  else cur

/-- The consumer's map from domains to levels. -/
abbrev ConsumerView := PressureDomainId → Option PressureLevel

/-- The consumer takes in one batch. -/
def applyBatch (view : ConsumerView) (pub : Published F) : ConsumerView :=
  fun d => pub.events.foldl (applyAt d) (view d)

/-- The consumer after all batches, starting from an empty map. -/
def consumerView (pubs : List (Published F)) : ConsumerView :=
  pubs.foldl applyBatch fun _ => none

theorem levelOfRank_severityFloor {l : PressureLevel} (h : l ≠ .unknown) :
    levelOfRank (severityFloor l) = l := by
  cases l <;> first | rfl | exact absurd rfl h

/-- Only the events on `d` move the consumer's level of `d`. -/
theorem foldl_applyAt_eventsOn (d : PressureDomainId) (es : List PressureEvent)
    (cur : Option PressureLevel) :
    es.foldl (applyAt d) cur = (eventsOn d es).foldl (applyAt d) cur := by
  unfold eventsOn
  induction es generalizing cur with
  | nil => rfl
  | cons e es ih =>
    rw [List.foldl_cons, ih]
    by_cases he : e.domain = some d
    · rw [List.filter_cons_of_pos (by simpa using he), List.foldl_cons]
    · have hskip : applyAt d cur e = cur := if_neg he
      rw [hskip, List.filter_cons_of_neg (by simpa using he)]

/-- Requests do not move the consumer. -/
theorem foldl_applyAt_requests {d : PressureDomainId} {es : List PressureEvent}
    (h : ∀ e ∈ es, e.type.isRequest = true) (cur : Option PressureLevel) :
    es.foldl (applyAt d) cur = cur := by
  induction es with
  | nil => rfl
  | cons e es ih =>
    have hskip : applyAt d cur e = cur := by
      have ht := h e (List.mem_cons_self ..)
      unfold applyAt
      split_ifs
      · revert ht
        cases e.type <;> simp [PressureEventType.isRequest]
      · rfl
    rw [List.foldl_cons, hskip]
    exact ih fun e' he' => h e' (List.mem_cons_of_mem e he')

/-- **The level event carries a consumer from the previous level to the new
one**; between equal levels there is none and none is needed. -/
theorem foldl_applyAt_levelEvent (generation : Nat) (nowMs : UInt64) {d : PressureDomainId}
    {prev : Snapshot F} {ds pds : DomainState F} (hid : ds.id = d)
    (hprev : prev.findDomain d = some pds) (hlevel : ds.level ≠ .unknown) :
    (levelEvent generation nowMs prev ds).toList.foldl (applyAt d) (some pds.level)
      = some ds.level := by
  subst hid
  have hrank := levelOfRank_severityFloor hlevel
  unfold levelEvent
  rw [hprev]
  dsimp only
  split_ifs with heq hup hfrom hnormal
  · exact congrArg some heq.symm
  · simp [applyAt, makePressureEvent, hrank]
  · simp [applyAt, makePressureEvent, hrank]
  · simp [applyAt, makePressureEvent, hnormal]
  · simp [applyAt, makePressureEvent, hrank]

/-! ## First observations -/

/-- The first observation of a domain leaves it at `normal`: it reads `normal`,
or what it reads is neither an emergency nor confirmed at once. -/
def StartsNormal (pol : PressurePolicy F) (budget : Option Budget) (nowMs : UInt64)
    (obs : DomainObservation F) : Prop :=
  let fresh := HysteresisState.new pol.hysteresis
  let raw := rawLevel pol budget obs .normal
  raw = .normal ∨ ¬ (fresh.emergency raw ∨ fresh.confirms raw nowMs)

theorem startsNormal_iff {pol : PressurePolicy F} {budgets : Budgets} {nowMs : UInt64}
    {sight : Sighting F} :
    (interpretStep pol budgets nowMs (DomainRuntimeState.new pol.hysteresis 16) sight).2.level
        = .normal
      ↔ StartsNormal pol (budgets.lookup sight.2.id) nowMs sight.2 := by
  have hlevel := HysteresisState.update_level (HysteresisState.new pol.hysteresis)
    (rawLevel pol (budgets.lookup sight.2.id) sight.2 .normal) nowMs
  show ((HysteresisState.new pol.hysteresis).update _ nowMs).level = .normal ↔ _
  refine (iff_of_eq (congrArg (· = PressureLevel.normal) hlevel)).trans ?_
  unfold StartsNormal
  split_ifs with h
  · refine ⟨Or.inl, fun hs => hs.elim id fun hnot => ?_⟩
    exact h.elim id fun hcommit => absurd hcommit hnot
  · exact ⟨fun _ => Or.inr fun hcommit => h (Or.inr hcommit), fun _ => rfl⟩

/-- Every domain a completing refresh brings into the snapshot starts at
`normal`. -/
def QuietArrivals (rt : PressureRuntime F) : Op F → Prop
  | .refresh nowMs polls =>
    Completes polls → ∀ sight ∈ sightingsOf polls, sight.2.id ∉ rt.currentSnapshot.ids →
      StartsNormal rt.policy (rt.budgets.lookup sight.2.id) nowMs sight.2
  | _ => True

/-! ## One batch -/

section

open PressureRuntime

variable {rt : PressureRuntime F} {nowMs : UInt64} {polls : List (Poll F)} {log : PollLog F}
  {d : PressureDomainId}

/-- What a batch does to the consumer's level of `d`: the retention loop's
events, then `DomainAdded`, then the level events. -/
theorem foldl_published (hlog : CompletesWith rt nowMs polls log) (cur : Option PressureLevel) :
    (published rt.policy rt.budgets rt nowMs log).events.foldl (applyAt d) cur
      = (((published rt.policy rt.budgets rt nowMs log).snapshot.entriesOf d).filterMap
            (levelEvent (newGeneration rt.policy rt.budgets rt nowMs log) nowMs
              rt.currentSnapshot)).foldl (applyAt d)
          ((addedEvents nowMs rt.currentSnapshot
              ((published rt.policy rt.budgets rt nowMs log).snapshot.entriesOf d)).foldl
            (applyAt d)
            (((rt.currentSnapshot.entriesOf d).filterMap
              (sweepEvent nowMs log.health (observedIds log))).foldl (applyAt d) cur)) := by
  have hstamp : (published rt.policy rt.budgets rt nowMs log).events.foldl (applyAt d) cur
      = (draftEvents rt.policy rt.budgets rt nowMs log).foldl (applyAt d) cur :=
    foldl_stampIds (fun _ _ _ => rfl) _ _ _
  rw [hstamp, foldl_applyAt_eventsOn, eventsOn_draftEvents hlog.events, List.foldl_append,
    List.foldl_append, List.foldl_append]
  refine foldl_applyAt_requests (fun e he => ?_) _
  obtain ⟨ds, -, hds⟩ := List.mem_flatMap.mp he
  exact (requestEvents_spec hds).2

/-- A domain seen once: the consumer follows unless the domain is new and does
not start at `normal`. -/
theorem tracks_seen (hs : Sound rt) (hlog : CompletesWith rt nowMs polls log)
    {sight : Sighting F} (hseen : sightingsFor d log.sightings = [sight]) :
    (published rt.policy rt.budgets rt nowMs log).events.foldl (applyAt d)
        (rt.currentSnapshot.levelOf d)
      = (published rt.policy rt.budgets rt nowMs log).snapshot.levelOf d ↔
    (d ∉ rt.currentSnapshot.ids →
      StartsNormal rt.policy (rt.budgets.lookup sight.2.id) nowMs sight.2) := by
  have hid : sight.2.id = d := by
    have hmem : sight ∈ sightingsFor d log.sightings := hseen ▸ List.mem_singleton_self sight
    simpa using (List.mem_filter.mp hmem).2
  have hobs : d ∈ observedIds log := mem_observedIds.mpr (by simp [hseen])
  have hsweep : (rt.currentSnapshot.entriesOf d).filterMap
      (sweepEvent nowMs log.health (observedIds log)) = [] :=
    List.filterMap_eq_nil_iff.mpr fun pd hpd => by
      rw [sweepEvent, (Snapshot.mem_entriesOf.mp hpd).2, if_pos hobs]
  have hsound : Sound (refreshed rt.policy rt.budgets rt nowMs log) := by
    have hstep := sound_step hs (.refresh nowMs polls)
    rwa [show (step rt (.refresh nowMs polls)).1 = _ from congrArg Prod.fst hlog.refresh_eq]
      at hstep
  obtain ⟨hentries, -⟩ := entriesOf_seen rt.policy rt.budgets rt nowMs hseen
  rw [foldl_published hlog, hsweep, Snapshot.levelOf_eq_head?
    (published rt.policy rt.budgets rt nowMs log).snapshot, hentries]
  generalize hds : respond (F := F) _ _ = ds at hentries
  have hdsid : ds.id = d := hds ▸ hid
  have hlevel : ds.level ≠ .unknown :=
    hsound.levels ds (Snapshot.mem_entriesOf.mp (hentries ▸ List.mem_singleton_self ds)).1
  have hlist : [ds].filterMap (levelEvent (newGeneration rt.policy rt.budgets rt nowMs log) nowMs
        rt.currentSnapshot)
      = (levelEvent (newGeneration rt.policy rt.budgets rt nowMs log) nowMs rt.currentSnapshot
          ds).toList := by
    rw [List.filterMap_eq_flatMap_toList, List.flatMap_singleton]
  rw [hlist]
  cases hfind : rt.currentSnapshot.findDomain d with
  | some pds =>
    -- known before: the level event does it
    have hin : d ∈ rt.currentSnapshot.ids := Snapshot.findDomain_isSome.mp (by simp [hfind])
    have hadded : addedEvents nowMs rt.currentSnapshot [ds] = [] := by
      simp [addedEvents, hdsid, hfind]
    rw [hadded, Snapshot.levelOf, hfind]
    exact ⟨fun _ hnew => absurd hin hnew,
      fun _ => foldl_applyAt_levelEvent _ _ hdsid hfind hlevel⟩
  | none =>
    -- new: `DomainAdded` alone
    have hnew : d ∉ rt.currentSnapshot.ids := Snapshot.findDomain_eq_none.mp hfind
    have hfresh : rt.domainStates.lookup d = none :=
      Finmap.lookup_eq_none.mpr fun hmem => hnew (hs.known d hmem)
    have hstart : ds.level = .normal ↔
        StartsNormal rt.policy (rt.budgets.lookup sight.2.id) nowMs sight.2 := by
      rw [← startsNormal_iff, ← hds, hfresh]
      rfl
    have hlevelEvent : levelEvent (newGeneration rt.policy rt.budgets rt nowMs log) nowMs
        rt.currentSnapshot ds = none := by
      rw [levelEvent, hdsid, hfind]
    rw [hlevelEvent, ← hstart]
    simp [addedEvents, hdsid, hfind, applyAt, makePressureEvent, hnew, eq_comm]

/-- A domain nobody saw: the consumer always follows. -/
theorem tracks_unseen (hlen : (rt.currentSnapshot.entriesOf d).length ≤ 1)
    (hlog : CompletesWith rt nowMs polls log) (hunseen : sightingsFor d log.sightings = []) :
    (published rt.policy rt.budgets rt nowMs log).events.foldl (applyAt d)
        (rt.currentSnapshot.levelOf d)
      = (published rt.policy rt.budgets rt nowMs log).snapshot.levelOf d := by
  have hobs : d ∉ observedIds log := fun h => mem_observedIds.mp h hunseen
  obtain ⟨hentries, -⟩ := entriesOf_unseen rt.policy rt.budgets rt nowMs hunseen
  rw [foldl_published hlog, Snapshot.levelOf_eq_head?
    (published rt.policy rt.budgets rt nowMs log).snapshot, hentries]
  cases hold : rt.currentSnapshot.entriesOf d with
  | nil => simp [Snapshot.levelOf_eq_head?, hold, addedEvents]
  | cons pd rest =>
    rw [hold, List.length_cons] at hlen
    obtain rfl : rest = [] := List.eq_nil_of_length_eq_zero (by omega)
    obtain ⟨hpd, hid⟩ := Snapshot.mem_entriesOf.mp (hold ▸ List.mem_singleton_self pd)
    have hfind : rt.currentSnapshot.findDomain d = some pd := by
      rw [Snapshot.findDomain_eq_head?, hold]
      rfl
    by_cases hstale : (healthFor log.health pd.provider).notFresh = true
    · -- retained at its level
      have hnone : levelEvent (newGeneration rt.policy rt.budgets rt nowMs log) nowMs
          rt.currentSnapshot (respond
            (hostBlocked (swept rt.policy rt.budgets rt nowMs log).domains) (keeper nowMs pd))
          = none := by
        rw [levelEvent, show (respond _ (keeper nowMs pd)).id = d from hid, hfind]
        exact if_pos rfl
      simp [hstale, addedEvents, hid, hfind, hnone, sweepEvent, hobs, applyAt, makePressureEvent,
        Snapshot.levelOf]
    · -- removed
      simp [hstale, addedEvents, hid, sweepEvent, hobs, applyAt, makePressureEvent]

end

/-! ## Every batch of a run -/

/-- The levels of the current snapshot, as a consumer's map. -/
def levelsOf (rt : PressureRuntime F) : ConsumerView := fun d => rt.currentSnapshot.levelOf d

/-- **One call**: the consumer goes from the levels before to the levels after
exactly when the arrivals are quiet. -/
theorem tracks_step {rt : PressureRuntime F} (hs : Sound rt) (hnd : rt.currentSnapshot.ids.Nodup)
    {op : Op F} (hop : op.observes.Nodup) :
    (step rt op).2.foldl applyBatch (levelsOf rt) = levelsOf (step rt op).1
      ↔ QuietArrivals rt op := by
  have hsame : (step rt op).2 = [] →
      (step rt op).2.foldl applyBatch (levelsOf rt) = levelsOf (step rt op).1 := by
    intro hout
    rw [hout]
    funext d
    show rt.currentSnapshot.levelOf d = (step rt op).1.currentSnapshot.levelOf d
    rw [currentSnapshot_of_quiet hout]
  cases op with
  | refresh nowMs polls =>
    rcases rt.refresh_cases nowMs polls with ⟨log, hlog⟩ | ⟨hc, log, heq⟩
    · show (rt.refresh nowMs polls).2.foldl applyBatch (levelsOf rt)
        = levelsOf (rt.refresh nowMs polls).1 ↔ _
      rw [hlog.refresh_eq, List.foldl_cons, List.foldl_nil, funext_iff]
      show (∀ d, (PressureRuntime.published rt.policy rt.budgets rt nowMs log).events.foldl
          (applyAt d) (rt.currentSnapshot.levelOf d)
        = (PressureRuntime.published rt.policy rt.budgets rt nowMs log).snapshot.levelOf d) ↔ _
      -- a domain is seen once or not at all, since no id is observed twice
      have hsplit : ∀ d, sightingsFor d log.sightings = [] ∨
          ∃ sight, sightingsFor d log.sightings = [sight] := fun d =>
        seen_or_unseen hlog (List.nodup_iff_count_le_one.mp hop d)
      constructor
      · intro h _ sight hsight hnew
        rw [← hlog.sightings] at hsight
        have hmem : sight ∈ sightingsFor sight.2.id log.sightings :=
          List.mem_filter.mpr ⟨hsight, by simp⟩
        rcases hsplit sight.2.id with hun | ⟨sight', hseen⟩
        · rw [hun] at hmem
          cases hmem
        · obtain rfl := List.mem_singleton.mp (hseen ▸ hmem)
          exact (tracks_seen hs hlog hseen).mp (h _) hnew
      · intro hquiet d
        rcases hsplit d with hun | ⟨sight, hseen⟩
        · refine tracks_unseen ?_ hlog hun
          rw [Snapshot.length_entriesOf]
          exact List.nodup_iff_count_le_one.mp hnd d
        · obtain ⟨hsight, hid⟩ := List.mem_filter.mp (hseen ▸ List.mem_singleton_self sight :
            sight ∈ sightingsFor d log.sightings)
          refine (tracks_seen hs hlog hseen).mpr ?_
          intro hnew
          exact hquiet hlog.completes sight (hlog.sightings ▸ hsight)
            (of_decide_eq_true hid ▸ hnew)
    · exact ⟨fun _ hcomp => absurd hcomp hc, fun _ => hsame (congrArg Prod.snd heq)⟩
  | setPolicy | setBudget | clearBudget | setHistoryLimit | registerProvider =>
    exact iff_of_true (hsame rfl) trivial

/-- **When the events of a run reconstruct its snapshots**: the consumer's map equals the
published levels at every point of the run exactly when every domain the run brings in
starts at `normal`. The consumer starts with no domains, adds one where it is announced, at
`normal`, and follows the level events from there. A domain that enters the snapshot at
another level has no event that says so. -/
theorem announced_iff (ops : List (Op F)) (hops : ∀ op ∈ ops, op.observes.Nodup) :
    (∀ pre post, ops = pre ++ post →
        consumerView (publishedBy PressureRuntime.init pre)
          = levelsOf (runFrom PressureRuntime.init pre))
      ↔ Machine.Along step QuietArrivals PressureRuntime.init ops := by
  refine (Machine.tracks_iff_along step applyBatch levelsOf
    (s := (PressureRuntime.init : PressureRuntime F))).trans ?_
  refine Machine.along_iff step
    (I := fun rt => Sound rt ∧ rt.currentSnapshot.ids.Nodup)
    (fun rt op hop h _ => ⟨sound_step h.1 op, ids_nodup_step h.2 (hops op hop)⟩)
    (fun rt op hop h => tracks_step h.1 h.2 (hops op hop)) ⟨sound_init, List.nodup_nil⟩

/-- A host that fills up over three refreshes and then goes away. -/
def fillingHostRun : List (Op ℚ) :=
  let poll (committed : UInt64) : Poll ℚ :=
    { name := "host", outcome := .returned { observations :=
        [{ id := { high := 0, low := 1 }, type := .hostMemory, totalCapacity := 100,
           committed := committed }] } }
  [.registerProvider "host", .refresh 1000 [poll 10], .refresh 2000 [poll 90],
    .refresh 3000 [poll 90], .refresh 4000 [{ name := "host", outcome := .returned {} }]]

/-- The arrival of the filling host is quiet, so the events reconstruct its levels. -/
theorem announced_iff_filling :
    (∀ pre post, fillingHostRun = pre ++ post →
        consumerView (publishedBy PressureRuntime.init pre)
          = levelsOf (runFrom PressureRuntime.init pre))
      ↔ Machine.Along step QuietArrivals PressureRuntime.init fillingHostRun :=
  announced_iff fillingHostRun (by decide +kernel)

/-- A host that is already full when it is first seen. -/
def fullOnArrivalRun : List (Op ℚ) :=
  [.registerProvider "host",
    .refresh 1000
      [{ name := "host", outcome := .returned { observations :=
          [{ id := { high := 0, low := 1 }, type := .hostMemory, totalCapacity := 100,
             committed := 100 }] } }]]

/-- The first snapshot of the full host says `exhausted`; the consumer is told
`DomainAdded` and keeps `normal`. -/
theorem not_announced_full_on_arrival :
    Machine.Along step Legal PressureRuntime.init fullOnArrivalRun ∧
      (∀ op ∈ fullOnArrivalRun, op.observes.Nodup) ∧
      ¬ (∀ pre post, fullOnArrivalRun = pre ++ post →
        consumerView (publishedBy PressureRuntime.init pre)
          = levelsOf (runFrom PressureRuntime.init pre)) := by
  refine ⟨by decide +kernel, by decide +kernel, ?_⟩
  intro h
  have hview := congrFun (h fullOnArrivalRun [] (by simp)) { high := 0, low := 1 }
  revert hview
  decide +kernel

end MemoryPressure
