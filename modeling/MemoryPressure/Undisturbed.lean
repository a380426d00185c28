import MemoryPressure.Concurrency
import MemoryPressure.RefreshSpec

/-!
# A call undisturbed

A thread that nobody interrupts does in its scopes what the sequential
`PressureRuntime` operations do in one go: `set_policy` (`setPolicy_alone`) and
`refresh` up to the delivery of its events (`refresh_alone`, `refresh_cutShort_alone`).
These are schedules of that thread alone (`refresh_scheduled`).

- `polled_alone`: the polling loop, one scope for each failure it counts, is `pollAll` on
  the answers given. The induction is over the names still to poll.
- `conclude_alone`: the scopes that end a refresh count one thing each. Taken together they
  are `refreshStats`, the telemetry the sequential `refresh` writes at once; `countP` over
  the events of the batch gives the request counters (`countP_requests`).
- `refresh_alone`: both, from the lock of `refresh_mutex_` on. The thread stands before the
  delivery of its batch, with its snapshot published as the sequential `refresh` does.
- `refresh_cutShort_alone`: the same for an exception that is not caught in the polls, which
  publishes nothing.

This is what connects the threads to the sequential model: without it `Concurrency.lean`
would be a second program of its own. The other direction, that every schedule is a
sequential run, is `serializable`. The delivery itself is not run here, since its callbacks
are user code; `Session.lean` takes it turn by turn.
-/

namespace MemoryPressure

variable {F C : Type} [Double F]

open Threads (Instr Alone)
open Relation (ReflTransGen)

/-- What a thread does undisturbed. -/
abbrev Reaches (x y : Shared F C × Code F C) : Prop := ReflTransGen (Alone program) x y

section

variable {d d' : Shared F C} {c : Code F C}

theorem reaches_act (choice : Choice F C) {a : Action F C} {new : Code F C}
    {notes : List (Note F C)} (h : a.exec choice d = some (d', new, notes)) :
    Reaches (d, .act a :: c) (d', new ++ c) :=
  ReflTransGen.single (Alone.act (i := choice) h)

theorem reaches_leaf {a : Action F C} {notes : List (Note F C)}
    (h : a.exec .proceed d = some (d', [], notes)) : Reaches (d, .act a :: c) (d', c) :=
  reaches_act .proceed h

theorem reaches_lock {m : Mutex} (h : m ∉ Threads.held Action.owes (Instr.lock m :: c)) :
    Reaches (d, .lock m :: c) (d, c) := ReflTransGen.single (.lock h)

theorem reaches_unlock {m : Mutex} : Reaches (d, .unlock m :: c) (d, c) :=
  ReflTransGen.single .unlock

/-- A scope whose mutex is free. -/
theorem reaches_guarded {m : Mutex} {a : Action F C} (ha : a.isLeaf = true)
    (hm : m ∉ Threads.held Action.owes c) {notes : List (Note F C)}
    (h : a.exec .proceed d = some (d', [], notes)) : Reaches (d, guarded m a ++ c) (d', c) := by
  have hheld : Threads.held Action.owes (guarded m a ++ c) = Threads.held Action.owes c := by
    rw [Threads.held_append (balanced_guarded ha).scoped_self, (balanced_guarded ha).held_eq]
    rfl
  exact (reaches_lock (by rw [← hheld] at hm; exact hm)).trans
    ((reaches_leaf h).trans reaches_unlock)

end

theorem held_balanced_append {c c' : Code F C} (h : Threads.Balanced Action.owes c) :
    Threads.held Action.owes (c ++ c') = Threads.held Action.owes c' := by
  rw [Threads.held_append h.scoped_self, h.held_eq]
  rfl

/-- `set_policy` undisturbed is the sequential `set_policy`. -/
theorem setPolicy_alone (d : Shared F C) (p : PressurePolicy F) {c : Code F C}
    (hc : Threads.held Action.owes c = []) :
    Reaches (d, (Call.setPolicy p).code ++ c) ({ d with rt := d.rt.setPolicy p }, c) := by
  rw [Call.code, PressureRuntime.setPolicy]
  split_ifs with hvalid
  -- an invalid policy is refused before any mutex is taken
  · exact .refl
  · rw [List.append_assoc, List.append_assoc]
    -- two scopes, and between them the policy is stored under no mutex (runtime.cpp:107)
    have hrebuild : Reaches (d, guarded .refresh (.rebuild p) ++
        ([Instr.act (Action.storePolicy p)] ++ (guarded .stats .countPolicy ++ c)))
        (d.rebuild p,
            [Instr.act (Action.storePolicy p)] ++ (guarded .stats .countPolicy ++ c)) := by
      refine reaches_guarded rfl ?_ rfl
      rw [held_balanced_append (balanced_act rfl), held_balanced_append (balanced_guarded rfl), hc]
      exact List.not_mem_nil
    have hcount : .stats ∉ Threads.held Action.owes c := hc ▸ List.not_mem_nil
    exact hrebuild.trans ((reaches_leaf rfl).trans (reaches_guarded rfl hcount rfl))

/-! ## The telemetry scopes of a refresh -/

/-- Provider failures counted. -/
def RuntimeStats.addFailures (k : Nat) (stats : RuntimeStats) : RuntimeStats :=
  { stats with providerFailures := stats.providerFailures + k }

/-- Transitions counted. -/
def RuntimeStats.addTransitions (k : Nat) (stats : RuntimeStats) : RuntimeStats :=
  { stats with pressureTransitions := stats.pressureTransitions + k }

theorem foldl_countRequest (es : List PressureEvent) (stats : RuntimeStats) :
    es.foldl (fun stats e => stats.countRequest e.type) stats
      = { stats with
          reclaimRequests := stats.reclaimRequests + es.countP fun e => e.type = .reclaimRequested
          demotionRequests :=
              stats.demotionRequests + es.countP fun e => e.type = .demotionRequested
          backpressureSignals :=
            stats.backpressureSignals + es.countP fun e => e.type = .backpressureIssued } := by
  induction es generalizing stats with
  | nil => rfl
  | cons e es ih =>
    rw [List.foldl_cons, ih]
    cases htype : e.type <;>
      simp [RuntimeStats.countRequest, htype, Nat.add_assoc, Nat.add_comm 1]

/-- Counting one kind of request among the requests is counting it among all. -/
theorem countP_requests (es : List PressureEvent) {type : PressureEventType}
    (h : type.isRequest = true) :
    (es.filter fun e => e.type.isRequest).countP (fun e => e.type = type)
      = es.countP fun e => e.type = type := by
  rw [List.countP_filter]
  refine List.countP_congr ?_
  intro e _
  by_cases he : e.type = type <;> simp [he, h]

section

variable {c : Code F C}

theorem transitions_alone (hc : .stats ∉ Threads.held Action.owes c) (n : Nat) (d : Shared F C) :
    Reaches (d, (List.replicate n (guarded .stats .countTransition)).flatten ++ c)
      (d.count (.addTransitions n), c) := by
  induction n generalizing d with
  | zero => exact .refl
  | succ n ih =>
    rw [List.replicate_succ, List.flatten_cons, List.append_assoc]
    have hrest : Threads.held Action.owes
        ((List.replicate n (guarded .stats (.countTransition : Action F C))).flatten ++ c)
          = Threads.held Action.owes c :=
      held_balanced_append (.flatten fun _ h => List.eq_of_mem_replicate h ▸ balanced_guarded rfl)
    refine (reaches_guarded rfl (by rwa [hrest]) rfl).trans ?_
    have hnext := ih (d.count (.addTransitions 1))
    rw [show (d.count (.addTransitions 1)).count (.addTransitions n)
        = d.count (.addTransitions (n + 1)) from by
      simp only [Shared.count, RuntimeStats.addTransitions, Nat.add_assoc, Nat.add_comm 1]] at hnext
    exact hnext

theorem requests_alone (hc : .stats ∉ Threads.held Action.owes c) (es : List PressureEvent)
    (d : Shared F C) :
    Reaches (d, es.flatMap (fun e => guarded .stats (.countRequest e.type)) ++ c)
      (d.count fun stats => es.foldl (fun stats e => stats.countRequest e.type) stats, c) := by
  induction es generalizing d with
  | nil => exact .refl
  | cons e es ih =>
    rw [List.flatMap_cons, List.append_assoc]
    have hrest : Threads.held Action.owes
        (es.flatMap (fun e => guarded .stats (.countRequest e.type : Action F C)) ++ c)
          = Threads.held Action.owes c := by
      refine held_balanced_append (.flatten fun c' h => ?_)
      obtain ⟨e', -, rfl⟩ := List.mem_map.mp h
      exact balanced_guarded rfl
    exact (reaches_guarded rfl (by rwa [hrest]) rfl).trans (ih _)

/-! ## The polling loop -/

/-- Where the polling loop leaves the thread. -/
def afterPolls (nowMs : UInt64) (pol : PressurePolicy F) (budgets : Budgets) (d : Shared F C)
    (c : Code F C) : Except (PollLog F) (PollLog F) → Shared F C × Code F C
  | .ok log => (d, .act (.interpret nowMs pol budgets log) :: c)
  | .error log => (d.abandon log, c)

/-- The log a polling loop ends with. -/
def lastLog : Except (PollLog F) (PollLog F) → PollLog F
  | .ok log => log
  | .error log => log

theorem pollOne_failures {nowMs : UInt64} {log log' : PollLog F} {poll : Poll F}
    (h : pollOne nowMs log poll = .ok log') :
    log'.providerFailures = log.providerFailures + if poll.outcome.failed then 1 else 0 := by
  obtain ⟨name, outcome⟩ := poll
  cases outcome with
  | returned sample =>
    cases hs : sample.status <;>
      (simp only [pollOne, PollLog.noteStatus, hs, Except.ok.injEq] at h
       subst h
       simp [SampleOutcome.failed, hs])
  | threw what =>
    simp only [pollOne, Except.ok.injEq] at h
    subst h
    rfl
  | escaped => cases h

theorem polls_alone (hc : .stats ∉ Threads.held Action.owes c) (nowMs : UInt64)
    (pol : PressurePolicy F) (budgets : Budgets) (polls : List (Poll F)) (log : PollLog F)
    (d : Shared F C) :
    ∃ k, (lastLog (pollAll nowMs log polls)).providerFailures = log.providerFailures + k ∧
      Reaches (d, .act (.poll nowMs pol budgets log (polls.map Poll.name)) :: c)
        (afterPolls nowMs pol budgets (d.count (.addFailures k)) c (pollAll nowMs log polls)) := by
  induction polls generalizing log d with
  | nil =>
    have hstep : Reaches (d, .act (.poll nowMs pol budgets log []) :: c)
        (d, [Instr.act (Action.interpret nowMs pol budgets log)] ++ c) := reaches_act .proceed rfl
    exact ⟨0, rfl, hstep⟩
  | cons poll polls ih =>
    cases hone : pollOne nowMs log poll with
    -- an exception leaves the loop, and the thread unlocks on its way out
    | error log' =>
      have hstep : Reaches
        (d, .act (.poll nowMs pol budgets log ((poll :: polls).map Poll.name)) :: c)
          (d.abandon log', [] ++ c) :=
        reaches_act (.sampled poll.outcome) (show _ = some (_, _, []) by
          simp only [List.map_cons, Action.exec, hone])
      have hlog : log' = log := by
        obtain ⟨name, outcome⟩ := poll
        cases outcome with
        | escaped => exact (Except.error.inj hone).symm
        | _ => cases hone
      refine ⟨0, ?_, ?_⟩
      · simp only [pollAll, hone, lastLog, hlog, Nat.add_zero]
      · simp only [pollAll, hone]
        exact hstep
    | ok log' =>
      have hstep : Reaches
        (d, .act (.poll nowMs pol budgets log ((poll :: polls).map Poll.name)) :: c)
          (d, ((if poll.outcome.failed then guarded .stats .countFailure else [])
            ++ [Instr.act (Action.poll nowMs pol budgets log' (polls.map Poll.name))]) ++ c) :=
        reaches_act (.sampled poll.outcome) (show _ = some (_, _, []) by
          simp only [List.map_cons, Action.exec, hone])
      have hfailures := pollOne_failures hone
      simp only [pollAll, hone]
      -- a failed poll is counted in a scope of its own
      by_cases hfailed : poll.outcome.failed = true
      · obtain ⟨k, hk, hrest⟩ := ih log' (d.count (.addFailures 1))
        rw [if_pos hfailed] at hfailures hstep
        refine ⟨1 + k, by rw [hk, hfailures, Nat.add_assoc], hstep.trans ?_⟩
        rw [List.append_assoc]
        have hscope : Reaches (d, guarded .stats .countFailure
            ++ ([Instr.act (Action.poll nowMs pol budgets log' (polls.map Poll.name))] ++ c))
            (d.count (.addFailures 1),
              [Instr.act (Action.poll nowMs pol budgets log' (polls.map Poll.name))] ++ c) :=
          reaches_guarded rfl hc rfl
        have hcount : (d.count (.addFailures 1)).count (.addFailures k)
            = d.count (.addFailures (1 + k)) := by
          simp only [Shared.count, RuntimeStats.addFailures, Nat.add_assoc]
        rw [hcount] at hrest
        exact hscope.trans hrest
      · obtain ⟨k, hk, hrest⟩ := ih log' d
        rw [if_neg hfailed] at hfailures hstep
        exact ⟨k, by rw [hk, hfailures, Nat.add_zero], hstep.trans hrest⟩

/-! ## The refresh -/

/-- What `refresh` counts from its transitions to its publication. -/
theorem refreshStats_eq (pol : PressurePolicy F) (budgets : Budgets) (rt : PressureRuntime F)
    (nowMs : UInt64) (log : PollLog F) :
    { PressureRuntime.refreshStats pol budgets rt nowMs log with
        providerFailures := rt.stats.providerFailures }
      = (fun stats : RuntimeStats =>
          { stats with snapshots := stats.snapshots + 1
                       observations := stats.observations + log.sightings.length })
        (((PressureRuntime.published pol budgets rt nowMs log).events.filter
            fun e => e.type.isRequest).foldl (fun stats e => stats.countRequest e.type)
          ((fun stats : RuntimeStats =>
              { stats with generationChanges := stats.generationChanges
                  + if PressureRuntime.changed pol budgets rt nowMs log then 1 else 0 })
            (rt.stats.addTransitions
                ((PressureRuntime.interpreted pol budgets rt nowMs log).2.countP
              fun ds => ds.level ≠ ds.previousLevel)))) := by
  have hcount : ∀ type, (PressureRuntime.published pol budgets rt nowMs log).events.countP
      (fun e => e.type = type)
        = (PressureRuntime.draftEvents pol budgets rt nowMs log).countP fun e => e.type = type :=
    fun type => countP_stampIds (p := fun e => e.type = type) (fun _ _ => rfl) _ _
  rw [foldl_countRequest, countP_requests _ rfl, countP_requests _ rfl, countP_requests _ rfl,
    hcount, hcount, hcount]
  rfl

/-- The scopes that end a refresh, as one step of the data. -/
theorem conclude_alone (hstats : .stats ∉ Threads.held Action.owes c)
    (hcurrent : .current ∉ Threads.held Action.owes c) (nowMs : UInt64) (pol : PressurePolicy F)
    (budgets : Budgets) (log : PollLog F) (d : Shared F C) :
    Reaches (d, .act (.interpret nowMs pol budgets log) :: c)
      ({ d with rt := { PressureRuntime.refreshed pol budgets d.rt nowMs log with
          stats := { PressureRuntime.refreshStats pol budgets d.rt nowMs log with
            providerFailures := d.rt.stats.providerFailures } } },
        .act (.deliver (PressureRuntime.published pol budgets d.rt nowMs log).events) :: c) := by
  let transitions := (PressureRuntime.interpreted pol budgets d.rt nowMs log).2.countP
    fun ds => ds.level ≠ ds.previousLevel
  let changed := PressureRuntime.changed pol budgets d.rt nowMs log
  let pub := PressureRuntime.published pol budgets d.rt nowMs log
  let requests : Code F C := (pub.events.filter fun e => e.type.isRequest).flatMap
    fun e => guarded .stats (.countRequest e.type)
  -- what is left of the code, from the last scope backwards
  let c₅ : Code F C := [Instr.act (Action.deliver pub.events)] ++ c
  let c₄ : Code F C := guarded .stats (.countSnapshot log.sightings.length) ++ c₅
  let c₃ : Code F C := guarded .current (.publish pub.snapshot) ++ c₄
  let c₂ : Code F C := requests ++ c₃
  let c₁ : Code F C := (if changed then guarded .stats .countGeneration else []) ++ c₂
  have h₄ : Threads.held Action.owes c₄ = Threads.held Action.owes c :=
    held_balanced_append (balanced_guarded rfl)
  have h₃ : Threads.held Action.owes c₃ = Threads.held Action.owes c :=
    (held_balanced_append (balanced_guarded rfl)).trans h₄
  have h₂ : Threads.held Action.owes c₂ = Threads.held Action.owes c := by
    refine (held_balanced_append (.flatten fun c' h => ?_)).trans h₃
    obtain ⟨e, -, rfl⟩ := List.mem_map.mp h
    exact balanced_guarded rfl
  -- the data after each scope
  let d₁ := d.count (.addTransitions transitions)
  let d₂ := d₁.conclude pol budgets nowMs log
  let d₃ := d₂.count fun stats =>
    { stats with generationChanges := stats.generationChanges + if changed then 1 else 0 }
  let d₄ := d₃.count fun stats => (pub.events.filter fun e => e.type.isRequest).foldl
    (fun stats e => stats.countRequest e.type) stats
  have hcounted : (Action.interpret nowMs pol budgets log : Action F C).exec .proceed d =
      some (d, interpretCode transitions (.conclude nowMs pol budgets log), []) := rfl
  have hinterpret : Reaches (d, .act (.interpret nowMs pol budgets log) :: c)
      (d, interpretCode transitions (.conclude nowMs pol budgets log) ++ c) :=
    reaches_act .proceed hcounted
  have htransitions : Reaches (d, interpretCode transitions (.conclude nowMs pol budgets log) ++ c)
      (d₁, guarded .current .look ++
          ([Instr.act (Action.conclude nowMs pol budgets log)] ++ c)) := by
    rw [interpretCode, List.append_assoc, List.append_assoc]
    exact transitions_alone (by
      rwa [held_balanced_append (balanced_guarded rfl),
        held_balanced_append (balanced_act rfl)]) _ _
  have hlook : Reaches
      (d₁, guarded .current .look ++ ([Instr.act (Action.conclude nowMs pol budgets log)] ++ c))
      (d₁, [Instr.act (Action.conclude nowMs pol budgets log)] ++ c) :=
    reaches_guarded rfl hcurrent rfl
  have hconclude : Reaches (d₁, [Instr.act (Action.conclude nowMs pol budgets log)] ++ c)
      (d₂, c₁) := by
    have hstep : Reaches (d₁, .act (.conclude nowMs pol budgets log) :: c)
        (d₂, concludeCode changed pub log.sightings.length ++ c) := reaches_act .proceed rfl
    simp only [concludeCode, List.append_assoc] at hstep
    exact hstep
  have hgeneration : Reaches (d₂, c₁) (d₃, c₂) := by
    by_cases hchanged : changed = true
    · have hscope : Reaches (d₂, guarded .stats .countGeneration ++ c₂)
          (d₂.count fun stats =>
              { stats with generationChanges := stats.generationChanges + 1 }, c₂) :=
        reaches_guarded rfl (by rwa [h₂]) rfl
      simpa only [c₁, d₃, if_pos hchanged] using hscope
    · simp only [c₁, d₃, if_neg hchanged]
      exact .refl
  have hrequests : Reaches (d₃, c₂) (d₄, c₃) := requests_alone (by rwa [h₃]) _ _
  have hpublish : Reaches (d₄, c₃) (d₄.publish pub.snapshot, c₄) :=
    reaches_guarded rfl (by rwa [h₄]) rfl
  have hsnapshot : Reaches (d₄.publish pub.snapshot, c₄)
    ((d₄.publish pub.snapshot).count fun stats =>
      { stats with snapshots := stats.snapshots + 1
                   observations := stats.observations + log.sightings.length }, c₅) :=
    reaches_guarded rfl hstats rfl
  have hall := hinterpret.trans (htransitions.trans (hlook.trans (hconclude.trans
    (hgeneration.trans (hrequests.trans (hpublish.trans hsnapshot))))))
  have hdata : (d₄.publish pub.snapshot).count (fun stats =>
      { stats with snapshots := stats.snapshots + 1
                   observations := stats.observations + log.sightings.length })
      = { d with rt := { PressureRuntime.refreshed pol budgets d.rt nowMs log with
          stats := { PressureRuntime.refreshStats pol budgets d.rt nowMs log with
            providerFailures := d.rt.stats.providerFailures } } } := by
    rw [refreshStats_eq]
    rfl
  rw [← hdata]
  exact hall

/-- From the lock of `refresh_mutex_` to the polling loop. -/
theorem start_alone (hc : Threads.held Action.owes c = []) (nowMs : UInt64) {names : List String}
    (d : Shared F C) (hnames : (names : Multiset String) = d.rt.providers.entries.map Sigma.snd) :
    Reaches (d, (Call.refresh nowMs).code ++ c)
      (d, .act (.poll nowMs d.rt.policy d.rt.budgets { health := d.rt.providerHealth } names)
        :: .unlock .refresh :: c) := by
  let c₀ : Code F C := .unlock .refresh :: c
  have hheld : Threads.held Action.owes c₀ = [.refresh] := by
    show Mutex.refresh :: Threads.held Action.owes c = [.refresh]
    rw [hc]
  have hrefresh : Reaches (d, .lock .refresh :: .act (.loadPolicy nowMs) :: c₀)
      (d, .act (.loadPolicy nowMs) :: c₀) := by
    refine reaches_lock ?_
    show Mutex.refresh ∉ (Threads.held Action.owes c₀).tail
    rw [hheld]
    exact List.not_mem_nil
  have hpolicy : (Action.loadPolicy nowMs : Action F C).exec .proceed d =
      some (d, [.lock .config, .act (.copyBudgets nowMs d.rt.policy)], []) := rfl
  have hload : Reaches (d, .act (.loadPolicy nowMs) :: c₀)
      (d, [Instr.lock Mutex.config, .act (Action.copyBudgets nowMs d.rt.policy)] ++ c₀) :=
    reaches_act .proceed hpolicy
  -- under `refresh_mutex_`, which is another mutex
  have hconfig : Reaches (d, .lock .config :: .act (.copyBudgets nowMs d.rt.policy) :: c₀)
      (d, .act (.copyBudgets nowMs d.rt.policy) :: c₀) := by
    refine reaches_lock ?_
    show Mutex.config ∉ Threads.held Action.owes c₀
    rw [hheld]
    decide
  have hbudgets : Reaches (d, .act (.copyBudgets nowMs d.rt.policy) :: c₀)
      (d, [.unlock .config, .lock .registry,
        .act (.copyProviders nowMs d.rt.policy d.rt.budgets)] ++ c₀) := reaches_act .proceed rfl
  have hregistry : Reaches
      (d, .lock .registry :: .act (.copyProviders nowMs d.rt.policy d.rt.budgets) :: c₀)
      (d, .act (.copyProviders nowMs d.rt.policy d.rt.budgets) :: c₀) := by
    refine reaches_lock ?_
    show Mutex.registry ∉ Threads.held Action.owes c₀
    rw [hheld]
    decide
  have hproviders : Reaches (d, .act (.copyProviders nowMs d.rt.policy d.rt.budgets) :: c₀)
      (d, [.unlock .registry, .act (.poll nowMs d.rt.policy d.rt.budgets
        { health := d.rt.providerHealth } names)] ++ c₀) :=
    reaches_act (.order names) (if_pos hnames)
  exact hrefresh.trans (hload.trans (hconfig.trans (hbudgets.trans (reaches_unlock.trans
    (hregistry.trans (hproviders.trans reaches_unlock))))))

/-- `refresh` undisturbed, up to the end of its polls. -/
theorem polled_alone (hc : Threads.held Action.owes c = []) (nowMs : UInt64)
    {polls : List (Poll F)} (d : Shared F C)
    (hnames : (polls.map Poll.name : Multiset String) = d.rt.providers.entries.map Sigma.snd) :
    Reaches (d, (Call.refresh nowMs).code ++ c)
      (afterPolls nowMs d.rt.policy d.rt.budgets
        (d.count (.addFailures
          (lastLog (pollAll nowMs { health := d.rt.providerHealth } polls)).providerFailures))
        (.unlock .refresh :: c) (pollAll nowMs { health := d.rt.providerHealth } polls)) := by
  have hstats : .stats ∉ Threads.held (Action.owes (F := F) (C := C)) (.unlock .refresh :: c) := by
    rw [Threads.held, hc]
    decide
  obtain ⟨k, hk, hpolls⟩ := polls_alone hstats nowMs d.rt.policy d.rt.budgets polls
    { health := d.rt.providerHealth } d
  rw [hk.trans (Nat.zero_add k)]
  exact (start_alone hc nowMs d hnames).trans hpolls

/-- `refresh` undisturbed, up to the delivery of its events, is the sequential
`refresh`: it stands before the delivery of the batch it published, with
`refresh_mutex_` held. -/
theorem refresh_alone (hc : Threads.held Action.owes c = []) (nowMs : UInt64)
    {polls : List (Poll F)} {log : PollLog F} (d : Shared F C)
    (hnames : (polls.map Poll.name : Multiset String) = d.rt.providers.entries.map Sigma.snd)
    (hlog : pollAll nowMs { health := d.rt.providerHealth } polls = .ok log) :
    Reaches (d, (Call.refresh nowMs).code ++ c)
      ({ d with rt := (d.rt.refresh nowMs polls).1 },
        .act (.deliver (PressureRuntime.published d.rt.policy d.rt.budgets d.rt nowMs log).events)
          :: .unlock .refresh :: c) := by
  have hheld : Threads.held (Action.owes (F := F) (C := C)) (.unlock .refresh :: c)
      = [.refresh] := by
    rw [Threads.held, hc]
  have hstats : .stats ∉ Threads.held (Action.owes (F := F) (C := C)) (.unlock .refresh :: c) := by
    rw [hheld]
    decide
  have hcurrent : .current ∉ Threads.held (Action.owes (F := F) (C := C))
      (.unlock .refresh :: c) := by
    rw [hheld]
    decide
  have hpolled := polled_alone hc nowMs d hnames
  rw [hlog] at hpolled
  have hconclude := conclude_alone hstats hcurrent nowMs d.rt.policy d.rt.budgets log
    (d.count (.addFailures log.providerFailures))
  refine (hpolled.trans hconclude).trans ?_
  rw [PressureRuntime.refresh, PressureRuntime.refreshWith, hlog]
  exact .refl

/-- A `refresh` cut short by an exception, undisturbed. -/
theorem refresh_cutShort_alone (hc : Threads.held Action.owes c = []) (nowMs : UInt64)
    {polls : List (Poll F)} {log : PollLog F} (d : Shared F C)
    (hnames : (polls.map Poll.name : Multiset String) = d.rt.providers.entries.map Sigma.snd)
    (hlog : pollAll nowMs { health := d.rt.providerHealth } polls = .error log) :
    Reaches (d, (Call.refresh nowMs).code ++ c)
      ({ d with rt := (d.rt.refresh nowMs polls).1 }, .unlock .refresh :: c) := by
  have hpolled := polled_alone hc nowMs d hnames
  rw [hlog] at hpolled
  refine hpolled.trans ?_
  rw [PressureRuntime.refresh, PressureRuntime.refreshWith, hlog]
  exact .refl

end

/-- **Scheduled alone**: after any schedule that leaves no mutex held, a thread in
user code can go on to refresh, and the runtime is then what the sequential
`refresh` makes of it, complete or cut short. -/
theorem refresh_scheduled (moves : List (Nat × Choice F C))
    (hfree : ∀ m, (schedule moves).owner m = none) {t : Nat} {c : Code F C}
    (huser : (schedule moves).code t = .act .user :: c) (nowMs : UInt64) {polls : List (Poll F)}
    (hnames : (polls.map Poll.name : Multiset String)
      = (schedule moves).data.rt.providers.entries.map Sigma.snd) :
    ∃ choices : List (Choice F C), (schedule (moves ++ choices.map (t, ·))).data
      = { (schedule moves).data with rt := ((schedule moves).data.rt.refresh nowMs polls).1 } := by
  have hsound : Threads.Sound program (schedule moves) := (sound_quiet {}).run moves
  have hheld : Threads.held Action.owes ([Instr.act Action.user] ++ c) = [] := by
    refine List.eq_nil_iff_forall_not_mem.mpr ?_
    intro m hm
    have hmine := (hsound.owner t m).mp (huser ▸ hm)
    rw [hfree] at hmine
    cases hmine
  have hcall : Reaches ((schedule moves).data, (schedule moves).code t)
      ((schedule moves).data, (Call.refresh nowMs).code ++ ([Instr.act Action.user] ++ c)) := by
    have hstep : Reaches ((schedule moves).data, .act .user :: c)
        ((schedule moves).data, ((Call.refresh nowMs).code ++ [Instr.act Action.user]) ++ c) :=
      reaches_act (.call (.refresh nowMs)) rfl
    rw [huser]
    rwa [List.append_assoc] at hstep
  have hrefresh : ∃ rest, Reaches
      ((schedule moves).data, (Call.refresh nowMs).code ++ ([Instr.act Action.user] ++ c))
      ({ (schedule moves).data with
        rt := ((schedule moves).data.rt.refresh nowMs polls).1 }, rest) := by
    cases hlog : pollAll nowMs { health := (schedule moves).data.rt.providerHealth } polls with
    | ok log => exact ⟨_, refresh_alone hheld nowMs _ hnames hlog⟩
    | error log => exact ⟨_, refresh_cutShort_alone hheld nowMs _ hnames hlog⟩
  obtain ⟨rest, hrest⟩ := hrefresh
  obtain ⟨choices, hrun⟩ :=
    Threads.reaches_run program hsound (fun m => Or.inl (hfree m)) (hcall.trans hrest)
  refine ⟨choices, ?_⟩
  rw [schedule, Threads.runFrom, Machine.run_append]
  exact (Prod.mk.inj hrun).1

end MemoryPressure
