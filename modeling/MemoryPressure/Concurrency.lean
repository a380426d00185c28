import MemoryPressure.Foundation.Threads
import MemoryPressure.Runtime

/-!
# The runtime under threads (`runtime.cpp`, `core.cpp`)

Threads of user code call the runtime and its subscriptions at any time; a
subscription's callback is user code again, run by the thread that pushes. Every
`lock_guard` scope is a lock, its body and an unlock, and every load and store of
`policy_` is an action of its own, so that any two threads interleave at all of
these points.

- `Call`: what user code may call; `Call.code` is its code.
- `Action`: the steps between two points where another thread can come in.
  What only the holder of `refresh_mutex_` reads or writes (`domain_states_`,
  `generation_` and the id counters) is written in one action, `conclude`.
- `program`: all of it as a `Threads.Program`.

**Assumptions.** A poll is one action, whose answer is a choice of the environment:
`Provider::sample` and `name` neither call the runtime or a subscription, nor take a
mutex that user code holds. A provider that called `set_policy` from its `sample` would
wait for its own thread just as a callback does, and no schedule here shows it. An action
sees the data as they are, so that races on `policy_` and `history_limit_`, which the
source reads and writes under no common mutex, show as an order of their loads and
stores, never as a torn value. `push` and the calls on a subscription name it by its
place in `subscriptions_`; the weak reference a caller may have dropped is not modelled.

**Proof structure.** What holds along schedules is shown of the code that actions put in
front of a thread. `Expands` lists that code whatever the data and the choice, and
`Action.exec_expands` reads it off `Action.exec` once. Everything later is a case
analysis over `Expands`: that scopes nest (`Expands.scoped_owes`, without which `program`
could not be built), which expansions bring in steps on the policy or callbacks on a
delivered event (`Expands.special_or_plain`), and in the modules after this one what is
held where and where a thread is in `set_policy` or `refresh`.
-/

namespace MemoryPressure

variable {F C : Type} [Double F]

/-- The mutexes of the runtime (runtime.h) and of each subscription. -/
inductive Mutex where
  | refresh | current | config | registry | stats
  | subscription (n : Nat)
  deriving DecidableEq, Repr

/-- What the threads share: the runtime and the subscriptions made so far, in the
order of `subscriptions_`, from which none is ever removed. -/
structure Shared (F C : Type) [Double F] where
  rt : PressureRuntime F := PressureRuntime.init
  subscriptions : List (Subscription C) := []

/-- The calls of user code. A subscription is named by its place. -/
inductive Call (F C : Type) [Double F] where
  | setPolicy (p : PressurePolicy F)
  | currentPolicy
  | registerProvider (name : String)
  | setBudget (id : PressureDomainId) (b : Budget)
  | clearBudget (id : PressureDomainId)
  | subscribe (filter : SubscriptionFilter) (cb : Option C)
  | refresh (nowMs : UInt64)
  | currentSnapshot
  | snapshotById (id : Nat)
  | query
  | admitBytes (id : PressureDomainId)
  | setHistoryLimit (n : Nat)
  | push (n : Nat) (e : PressureEvent)
  | tryPop (n : Nat)
  | pending (n : Nat)
  | setCallback (n : Nat) (cb : Option C)
  | close (n : Nat)
  | closed (n : Nat)
  | clear (n : Nat)

/-- What the delivery loop of `refresh` still has to do after a push: the
subscriptions not yet offered the event, and the events after it. -/
structure Delivery where
  subscriptions : List Nat
  event : PressureEvent
  events : List PressureEvent
  deriving DecidableEq

/-- The actions. `user` is user code, which goes on until it returns. `poll` to
`deliver` are the body of `refresh`, each carrying the locals it needs; a `push`
carries the delivery it is part of, if any. -/
inductive Action (F C : Type) [Double F] where
  | user
  | apply (c : Call F C)
  | look
  | readCurrent
  | readHistory (id : Nat)
  | readDomain (id : PressureDomainId)
  | rebuild (p : PressurePolicy F)
  | storePolicy (p : PressurePolicy F)
  | countPolicy
  | loadPolicy (nowMs : UInt64)
  | copyBudgets (nowMs : UInt64) (pol : PressurePolicy F)
  | copyProviders (nowMs : UInt64) (pol : PressurePolicy F) (budgets : Budgets)
  | poll (nowMs : UInt64) (pol : PressurePolicy F) (budgets : Budgets) (log : PollLog F)
      (names : List String)
  | countFailure
  | interpret (nowMs : UInt64) (pol : PressurePolicy F) (budgets : Budgets) (log : PollLog F)
  | countTransition
  | conclude (nowMs : UInt64) (pol : PressurePolicy F) (budgets : Budgets) (log : PollLog F)
  | countGeneration
  | countRequest (type : PressureEventType)
  | publish (snap : Snapshot F)
  | countSnapshot (observations : Nat)
  | deliver (events : List PressureEvent)
  | copySubscriptions (e : PressureEvent) (events : List PressureEvent)
  | offer (d : Delivery)
  | readClosed (n : Nat) (d : Delivery)
  | push (n : Nat) (e : PressureEvent) (d : Option Delivery)
  | pushLocked (n : Nat) (e : PressureEvent) (d : Option Delivery)
  | invoke (n : Nat) (cb : C) (e : PressureEvent) (d : Option Delivery)
  | resume (d : Option Delivery)

/-- What the environment of a thread decides: what user code calls and when it
returns, whether the callback just run threw, the order of the providers in
their map, and what a provider answers. -/
inductive Choice (F C : Type) [Double F] where
  | proceed
  | call (c : Call F C)
  | leave
  | throws
  | order (names : List String)
  | sampled (outcome : SampleOutcome F)

instance : Inhabited (Choice F C) := ⟨.proceed⟩

/-- What a thread lets others know: `set_policy` has rebuilt the debounce
machines for a configuration or stored the policy, a snapshot was published or
read, a callback was invoked. -/
inductive Note (F C : Type) [Double F] where
  | rebuilt (cfg : HysteresisConfig F)
  | stored (cfg : HysteresisConfig F)
  | published (snap : Snapshot F)
  | read (snap : Snapshot F)
  | found (id : Nat) (snap : Option (Snapshot F))
  | invoked (n : Nat) (cb : C) (e : PressureEvent)

open Threads (Instr)

/-- Code of the runtime. -/
abbrev Code (F C : Type) [Double F] := Threads.Code Mutex (Action F C)

/-- One action in a `lock_guard` scope. -/
def guarded (m : Mutex) (a : Action F C) : Code F C := [.lock m, .act a, .unlock m]

/-- The code of a call. -/
def Call.code : Call F C → Code F C
  -- `policy_` is stored between the two scopes, under no mutex
  | .setPolicy p =>
    if (validatePolicy p).isSome then []
    else guarded .refresh (.rebuild p) ++ [.act (.storePolicy p)] ++ guarded .stats .countPolicy
  | .currentPolicy => [.act .look]
  | .registerProvider name => guarded .registry (.apply (.registerProvider name))
  | .setBudget id b =>
    if (validateBudget b).isSome then [] else guarded .config (.apply (.setBudget id b))
  | .clearBudget id => guarded .config (.apply (.clearBudget id))
  | .subscribe filter cb => guarded .registry (.apply (.subscribe filter cb))
  | .refresh nowMs => [.lock .refresh, .act (.loadPolicy nowMs), .unlock .refresh]
  | .currentSnapshot => guarded .current .readCurrent
  | .snapshotById id => guarded .current (.readHistory id)
  | .query => guarded .current .look
  -- unlocks in what `readDomain` expands to, which counts only a domain it found
  | .admitBytes id => [.lock .current, .act (.readDomain id)]
  -- takes no mutex (runtime.h:103)
  | .setHistoryLimit n => [.act (.apply (.setHistoryLimit n))]
  | .push n e => [.act (.push n e none)]
  | .tryPop n => guarded (.subscription n) (.apply (.tryPop n))
  | .pending n => guarded (.subscription n) .look
  | .setCallback n cb => guarded (.subscription n) (.apply (.setCallback n cb))
  | .close n => guarded (.subscription n) (.apply (.close n))
  | .closed n => guarded (.subscription n) .look
  | .clear n => guarded (.subscription n) (.apply (.clear n))

namespace Shared

/-- Change one subscription, if it exists. -/
def updateSubscription (d : Shared F C) (n : Nat) (f : Subscription C → Subscription C) :
    Shared F C :=
  { d with subscriptions := d.subscriptions.modify n f }

/-- What a call with one scope does in it. -/
def apply (d : Shared F C) : Call F C → Shared F C
  | .registerProvider name => { d with rt := d.rt.registerProvider name }
  | .setBudget id b => { d with rt := d.rt.setBudget id b }
  | .clearBudget id => { d with rt := d.rt.clearBudget id }
  | .subscribe filter cb =>
    { d with subscriptions := d.subscriptions ++ [{ filter := filter, callback := cb }] }
  | .setHistoryLimit n => { d with rt := d.rt.setHistoryLimit n }
  | .tryPop n => d.updateSubscription n fun s => s.tryPop.1
  | .setCallback n cb => d.updateSubscription n fun s => s.setCallback cb
  | .close n => d.updateSubscription n fun s => s.close
  | .clear n => d.updateSubscription n fun s => s.clear
  | _ => d

/-- Change the telemetry. -/
def count (d : Shared F C) (f : RuntimeStats → RuntimeStats) : Shared F C :=
  { d with rt := { d.rt with stats := f d.rt.stats } }

/-- The debounce machines of `set_policy` (runtime.cpp:105). -/
def rebuild (d : Shared F C) (p : PressurePolicy F) : Shared F C :=
  { d with rt := { d.rt with
      domainStates := Keyed.mapVal
        (fun st => { st with hysteresis := HysteresisState.new p.hysteresis })
        d.rt.domainStates } }

/-- An escaping exception leaves `refresh` during its polls. -/
def abandon (d : Shared F C) (log : PollLog F) : Shared F C :=
  { d with rt := { d.rt with
      snapshotId := d.rt.snapshotId + 1
      eventId := d.rt.eventId + log.events.length } }

/-- The members only `refresh_mutex_` guards, after a refresh. -/
def conclude (d : Shared F C) (pol : PressurePolicy F) (budgets : Budgets) (nowMs : UInt64)
    (log : PollLog F) : Shared F C :=
  { d with rt := { d.rt with
      domainStates := (PressureRuntime.swept pol budgets d.rt nowMs log).domainStates
      generation := PressureRuntime.newGeneration pol budgets d.rt nowMs log
      snapshotId := d.rt.snapshotId + 1
      eventId :=
          d.rt.eventId + (PressureRuntime.published pol budgets d.rt nowMs log).events.length } }

/-- Publication (runtime.cpp:459). -/
def publish (d : Shared F C) (snap : Snapshot F) : Shared F C :=
  { d with rt := { d.rt with
      currentSnapshot := snap
      history := (d.rt.history ++ [snap]).drop
        ((d.rt.history ++ [snap]).length - d.rt.historyLimit) } }

end Shared

/-- `refresh` counts a provider failure for the sample (runtime.cpp:193 and 213). -/
def SampleOutcome.failed : SampleOutcome F → Bool
  | .returned sample => sample.status = .failed
  | .threw _ => true
  | .escaped => false

/-- The counter of a request event (runtime.cpp:438–447). -/
def RuntimeStats.countRequest (stats : RuntimeStats) : PressureEventType → RuntimeStats
  | .reclaimRequested => { stats with reclaimRequests := stats.reclaimRequests + 1 }
  | .demotionRequested => { stats with demotionRequests := stats.demotionRequests + 1 }
  | .backpressureIssued => { stats with backpressureSignals := stats.backpressureSignals + 1 }
  | _ => stats

/-- What follows a push: nothing after a push of its own, the rest of the loop in
a delivery. -/
def Delivery.code : Option Delivery → Code F C
  | none => []
  | some d => [.act (.offer d)]

/-- The code after the interpretation loop: its `pressure_transitions` scopes and
the read of the previous snapshot (runtime.cpp:254 and 313). -/
def interpretCode (transitions : Nat) (next : Action F C) : Code F C :=
  (List.replicate transitions (guarded .stats .countTransition)).flatten
    ++ guarded .current .look ++ [.act next]

/-- The scopes that end `refresh`: generation, requests, publication, telemetry,
then the delivery. -/
def concludeCode (changed : Bool) (pub : Published F) (observations : Nat) : Code F C :=
  (if changed then guarded .stats .countGeneration else [])
    ++ (pub.events.filter fun e => e.type.isRequest).flatMap
        (fun e => guarded .stats (.countRequest e.type))
    ++ guarded .current (.publish pub.snapshot)
    ++ guarded .stats (.countSnapshot observations)
    ++ [.act (.deliver pub.events)]

/-- The mutexes that what an action expands to unlocks: the action is the first
half of a scope whose result goes on. -/
def Action.owes : Action F C → List Mutex
  | .readDomain _ => [.current]
  | .copyBudgets _ _ => [.config]
  | .copyProviders _ _ _ => [.registry]
  | .copySubscriptions _ _ => [.registry]
  | .readClosed n _ => [.subscription n]
  | .pushLocked n _ _ => [.subscription n]
  | _ => []

/-- What an action does. -/
def Action.exec (a : Action F C) (choice : Choice F C) (d : Shared F C) :
    Option (Shared F C × Code F C × List (Note F C)) :=
  match a with
  | .user =>
    match choice with
    | .call c => some (d, c.code ++ [.act .user], [])
    | .leave => some (d, [], [])
    | _ => none
  | .apply c => some (d.apply c, [], [])
  | .look => some (d, [], [])
  | .readCurrent => some (d, [], [.read d.rt.currentSnapshot])
  | .readHistory id => some (d, [], [.found id (d.rt.history.find? fun s => s.id = id)])
  | .readDomain id =>
    some (d, .unlock .current ::
      (if (d.rt.currentSnapshot.findDomain id).isSome then guarded .stats .look else []), [])
  | .rebuild p => some (d.rebuild p, [], [.rebuilt p.hysteresis])
  | .storePolicy p => some ({ d with rt := { d.rt with policy := p } }, [], [.stored p.hysteresis])
  | .countPolicy =>
    some (d.count fun stats => { stats with policyChanges := stats.policyChanges + 1 }, [], [])
  -- `policy_` is read under `refresh_mutex_` alone, which its store does not take
  | .loadPolicy nowMs => some (d, [.lock .config, .act (.copyBudgets nowMs d.rt.policy)], [])
  | .copyBudgets nowMs pol =>
    some (d, [.unlock .config, .lock .registry, .act (.copyProviders nowMs pol d.rt.budgets)], [])
  -- the providers are polled in the order of their unordered map
  | .copyProviders nowMs pol budgets =>
    match choice with
    | .order names =>
      if (names : Multiset String) = d.rt.providers.entries.map Sigma.snd then
        some (d, [.unlock .registry,
          .act (.poll nowMs pol budgets { health := d.rt.providerHealth } names)], [])
      else none
    | _ => none
  | .poll nowMs pol budgets log [] => some (d, [.act (.interpret nowMs pol budgets log)], [])
  | .poll nowMs pol budgets log (name :: names) =>
    match choice with
    | .sampled outcome =>
      match pollOne nowMs log { name := name, outcome := outcome } with
      -- only `std::exception` is caught: the rest of `refresh` is unwound
      | .error log' => some (d.abandon log', [], [])
      | .ok log' =>
        some (d, (if outcome.failed then guarded .stats .countFailure else [])
          ++ [.act (.poll nowMs pol budgets log' names)], [])
    | _ => none
  | .countFailure =>
    some (d.count fun stats =>
        { stats with providerFailures := stats.providerFailures + 1 }, [], [])
  | .interpret nowMs pol budgets log =>
    let transitions := (PressureRuntime.interpreted pol budgets d.rt nowMs log).2.countP
      fun ds => ds.level ≠ ds.previousLevel
    some (d, interpretCode transitions (.conclude nowMs pol budgets log), [])
  | .countTransition =>
    some (d.count fun stats => { stats with pressureTransitions := stats.pressureTransitions + 1 },
      [], [])
  | .conclude nowMs pol budgets log =>
    some (d.conclude pol budgets nowMs log,
      concludeCode (PressureRuntime.changed pol budgets d.rt nowMs log)
        (PressureRuntime.published pol budgets d.rt nowMs log) log.sightings.length, [])
  | .countGeneration =>
    some (d.count fun stats => { stats with generationChanges := stats.generationChanges + 1 },
      [], [])
  | .countRequest type => some (d.count fun stats => stats.countRequest type, [], [])
  | .publish snap => some (d.publish snap, [], [.published snap])
  | .countSnapshot observations =>
    some (d.count fun stats => { stats with snapshots := stats.snapshots + 1
                                            observations := stats.observations + observations },
      [], [])
  -- the delivery loop, one event at a time over the subscriptions there are then
  | .deliver [] => some (d, [], [])
  | .deliver (e :: events) => some (d, [.lock .registry, .act (.copySubscriptions e events)], [])
  | .copySubscriptions e events =>
    some (d, [.unlock .registry, .act (.offer
      { subscriptions := List.range d.subscriptions.length, event := e, events := events })], [])
  | .offer dl =>
    match dl.subscriptions with
    | [] => some (d, [.act (.deliver dl.events)], [])
    | n :: ns =>
      some (d, [.lock (.subscription n), .act (.readClosed n { dl with subscriptions := ns })], [])
  | .readClosed n dl =>
    some (d, .unlock (.subscription n) ::
      (if (d.subscriptions[n]?).any fun s => s.closed then [.act (.offer dl)]
        else [.act (.push n dl.event (some dl))]), [])
  -- the filter is checked before the mutex of the subscription is taken
  | .push n e dl =>
    match d.subscriptions[n]? with
    | none => none
    | some s =>
      if s.matchesEvent e then some (d, [.lock (.subscription n), .act (.pushLocked n e dl)], [])
      else some (d, Delivery.code dl, [])
  | .pushLocked n e dl =>
    match (d.subscriptions[n]?).bind fun s => s.pushLocked e with
    | none => none
    | some (s', _, cb) =>
      some (d.updateSubscription n fun _ => s', .unlock (.subscription n) ::
        (match cb with
        | none => Delivery.code dl
        | some cb => [.act (.invoke n cb e dl)]), [])
  -- the callback runs after the unlock, and may itself call anything
  | .invoke n cb e dl => some (d, [.act .user, .act (.resume dl)], [.invoked n cb e])
  | .resume dl =>
    match choice with
    -- the rest of the delivery is unwound; the guards of the code behind it unlock
    | .throws => some (d, [], [])
    | _ => some (d, Delivery.code dl, [])

/-! ## What an action expands to

An action computes on the data and may put code in front of its thread. The code is one
of a few shapes, which `Expands` lists; the lemmas of this section take the actions whose
code depends on the choice or on the data one at a time. -/

/-- The actions that put no code in front. -/
def Action.isLeaf : Action F C → Bool
  | .apply _ | .look | .readCurrent | .readHistory _ | .rebuild _ | .storePolicy _ | .countPolicy
  | .countFailure | .countTransition | .countGeneration | .countRequest _ | .publish _
  | .countSnapshot _ => true
  | _ => false

/-- The code an action may put in front, whatever the data and the choice. -/
inductive Expands : Action F C → Code F C → Prop
  | leaf {a} : a.isLeaf = true → Expands a []
  | call (c : Call F C) : Expands .user (c.code ++ [.act .user])
  | leave : Expands .user []
  | readDomain (id) (known : Bool) : Expands (.readDomain id)
      (.unlock .current :: if known then guarded .stats .look else [])
  | loadPolicy (nowMs pol) : Expands (.loadPolicy nowMs)
      [.lock .config, .act (.copyBudgets nowMs pol)]
  | copyBudgets (nowMs pol budgets) : Expands (.copyBudgets nowMs pol)
      [.unlock .config, .lock .registry, .act (.copyProviders nowMs pol budgets)]
  | copyProviders (nowMs pol budgets log names) : Expands (.copyProviders nowMs pol budgets)
      [.unlock .registry, .act (.poll nowMs pol budgets log names)]
  | polled (nowMs pol budgets log) : Expands (.poll nowMs pol budgets log [])
      [.act (.interpret nowMs pol budgets log)]
  | escaped (nowMs pol budgets log name names) :
      Expands (.poll nowMs pol budgets log (name :: names)) []
  | poll (nowMs pol budgets log log' name names) (failed : Bool) :
      Expands (.poll nowMs pol budgets log (name :: names))
        ((if failed then guarded .stats .countFailure else [])
          ++ [.act (.poll nowMs pol budgets log' names)])
  | interpret (nowMs pol budgets log transitions) : Expands (.interpret nowMs pol budgets log)
      (interpretCode transitions (.conclude nowMs pol budgets log))
  | conclude (nowMs pol budgets log changed pub observations) :
      Expands (.conclude nowMs pol budgets log) (concludeCode changed pub observations)
  | delivered : Expands (.deliver []) []
  | deliver (e events) : Expands (.deliver (e :: events))
      [.lock .registry, .act (.copySubscriptions e events)]
  | copySubscriptions (e events dl) : Expands (.copySubscriptions e events)
      [.unlock .registry, .act (.offer dl)]
  | offered (dl) : Expands (.offer dl) [.act (.deliver dl.events)]
  | offer (dl n dl') : Expands (.offer dl) [.lock (.subscription n), .act (.readClosed n dl')]
  | isClosed (n dl) : Expands (.readClosed n dl) [.unlock (.subscription n), .act (.offer dl)]
  | isOpen (n dl) : Expands (.readClosed n dl)
      [.unlock (.subscription n), .act (.push n dl.event (some dl))]
  | misses (n e dl) : Expands (.push n e dl) (Delivery.code dl)
  | pushes (n e dl) : Expands (.push n e dl) [.lock (.subscription n), .act (.pushLocked n e dl)]
  | queued (n e dl) : Expands (.pushLocked n e dl) (.unlock (.subscription n) :: Delivery.code dl)
  | calls (n e dl cb) : Expands (.pushLocked n e dl)
      [.unlock (.subscription n), .act (.invoke n cb e dl)]
  | invoke (n cb e dl) : Expands (.invoke n cb e dl) [.act .user, .act (.resume dl)]
  | thrown (dl) : Expands (.resume dl) []
  | resume (dl) : Expands (.resume dl) (Delivery.code dl)

namespace Action

variable {choice : Choice F C} {d d' : Shared F C} {new : Code F C} {notes : List (Note F C)}

/-- User code makes a call and goes on, or it is over. -/
theorem expands_user (h : Action.user.exec choice d = some (d', new, notes)) :
    Expands .user new := by
  cases choice with
  | call c =>
    obtain ⟨-, rfl, -⟩ := by simpa [exec] using h
    exact .call c
  | leave =>
    obtain ⟨-, rfl, -⟩ := by simpa [exec] using h
    exact .leave
  | _ => simp [exec] at h

/-- The providers come in some order. -/
theorem expands_copyProviders {nowMs : UInt64} {pol : PressurePolicy F} {budgets : Budgets}
    (h : (copyProviders nowMs pol budgets).exec choice d = some (d', new, notes)) :
    Expands (.copyProviders nowMs pol budgets) new := by
  cases choice with
  | order names =>
    simp only [exec] at h
    split_ifs at h
    obtain ⟨-, rfl, -⟩ := by simpa using h
    exact .copyProviders nowMs pol budgets _ names
  | _ => simp [exec] at h

/-- A poll ends in an exception that is not caught, or the next poll follows. -/
theorem expands_poll {nowMs : UInt64} {pol : PressurePolicy F} {budgets : Budgets}
    {log : PollLog F} {names : List String}
    (h : (poll nowMs pol budgets log names).exec choice d = some (d', new, notes)) :
    Expands (.poll nowMs pol budgets log names) new := by
  cases names with
  | nil =>
    obtain ⟨-, rfl, -⟩ := by simpa [exec] using h
    exact .polled nowMs pol budgets log
  | cons name names =>
    cases choice with
    | sampled outcome =>
      simp only [exec] at h
      cases hp : pollOne nowMs log { name := name, outcome := outcome } with
      | error log' =>
        obtain ⟨-, rfl, -⟩ := by simpa [hp] using h
        exact .escaped nowMs pol budgets log name names
      | ok log' =>
        obtain ⟨-, rfl, -⟩ := by simpa [hp] using h
        exact .poll nowMs pol budgets log log' name names _
    | _ => simp [exec] at h

/-- The loop goes on to the next subscription, or to the next event. -/
theorem expands_offer {dl : Delivery} (h : (offer dl).exec choice d = some (d', new, notes)) :
    Expands (.offer dl) new := by
  simp only [exec] at h
  cases hn : dl.subscriptions with
  | nil =>
    obtain ⟨-, rfl, -⟩ := by simpa [hn] using h
    exact .offered dl
  | cons n ns =>
    obtain ⟨-, rfl, -⟩ := by simpa [hn] using h
    exact .offer dl n _

/-- A push goes into its critical section, unless the filter keeps the event out. -/
theorem expands_push {n : Nat} {e : PressureEvent} {dl : Option Delivery}
    (h : (push n e dl).exec choice d = some (d', new, notes)) : Expands (.push n e dl) new := by
  simp only [exec] at h
  cases hs : d.subscriptions[n]? with
  | none => simp [hs] at h
  | some s =>
    by_cases hm : s.matchesEvent e = true
    · obtain ⟨-, rfl, -⟩ := by simpa [hs, hm] using h
      exact .pushes n e dl
    · obtain ⟨-, rfl, -⟩ := by simpa [hs, hm] using h
      exact .misses n e dl

/-- The critical section of a push hands out a callback to invoke, or none. -/
theorem expands_pushLocked {n : Nat} {e : PressureEvent} {dl : Option Delivery}
    (h : (pushLocked n e dl).exec choice d = some (d', new, notes)) :
    Expands (.pushLocked n e dl) new := by
  simp only [exec] at h
  cases hs : (d.subscriptions[n]?).bind fun s => s.pushLocked e with
  | none => simp [hs] at h
  | some out =>
    obtain ⟨s', ok, cb⟩ := out
    obtain ⟨-, rfl, -⟩ := by simpa [hs] using h
    cases cb with
    | none => exact .queued n e dl
    | some cb => exact .calls n e dl cb

/-- A callback returns to what it was called from, or throws out of it. -/
theorem expands_resume {dl : Option Delivery}
    (h : (resume dl).exec choice d = some (d', new, notes)) : Expands (.resume dl) new := by
  cases choice with
  | throws =>
    obtain ⟨-, rfl, -⟩ := by simpa [exec] using h
    exact .thrown dl
  | _ =>
    obtain ⟨-, rfl, -⟩ := by simpa [exec] using h
    exact .resume dl

/-- **What an action expands to**, whoever performs it and whatever it finds. -/
theorem exec_expands {a : Action F C} (h : a.exec choice d = some (d', new, notes)) :
    Expands a new := by
  cases a with
  | user => exact expands_user h
  | copyProviders nowMs pol budgets => exact expands_copyProviders h
  | poll nowMs pol budgets log names => exact expands_poll h
  | offer dl => exact expands_offer h
  | push n e dl => exact expands_push h
  | pushLocked n e dl => exact expands_pushLocked h
  | resume dl => exact expands_resume h
  | deliver events =>
    cases events with
    | nil =>
      obtain ⟨-, rfl, -⟩ := by simpa [exec] using h
      exact .delivered
    | cons e events =>
      obtain ⟨-, rfl, -⟩ := by simpa [exec] using h
      exact .deliver e events
  | readClosed n dl =>
    obtain ⟨-, rfl, -⟩ := by simpa [exec] using h
    split_ifs
    · exact .isClosed n dl
    · exact .isOpen n dl
  -- these have one way to go each
  | readDomain id =>
    obtain ⟨-, rfl, -⟩ := by simpa [exec] using h
    exact .readDomain id _
  | loadPolicy nowMs =>
    obtain ⟨-, rfl, -⟩ := by simpa [exec] using h
    exact .loadPolicy nowMs _
  | copyBudgets nowMs pol =>
    obtain ⟨-, rfl, -⟩ := by simpa [exec] using h
    exact .copyBudgets nowMs pol _
  | interpret nowMs pol budgets log =>
    obtain ⟨-, rfl, -⟩ := by simpa [exec] using h
    exact .interpret nowMs pol budgets log _
  | conclude nowMs pol budgets log =>
    obtain ⟨-, rfl, -⟩ := by simpa [exec] using h
    exact .conclude nowMs pol budgets log _ _ _
  | copySubscriptions e events =>
    obtain ⟨-, rfl, -⟩ := by simpa [exec] using h
    exact .copySubscriptions e events _
  | invoke n cb e dl =>
    obtain ⟨-, rfl, -⟩ := by simpa [exec] using h
    exact .invoke n cb e dl
  | _ =>
    obtain ⟨-, rfl, -⟩ := by simpa [exec] using h
    exact .leaf rfl

end Action

/-! ## Scopes -/

open Threads (Balanced)

theorem owes_of_isLeaf {a : Action F C} (h : a.isLeaf = true) : a.owes = [] := by
  cases a <;> first
    | rfl
    | cases h

theorem balanced_guarded {m : Mutex} {a : Action F C} (h : a.isLeaf = true) :
    Balanced Action.owes (guarded m a) := by
  have howes := owes_of_isLeaf h
  refine ⟨⟨?_, trivial⟩, ?_⟩
  · rw [Threads.held, howes]
    rfl
  · rw [guarded, Threads.held, Threads.held, howes]
    rfl

theorem balanced_act {a : Action F C} (h : a.owes = []) : Balanced Action.owes [Instr.act a] :=
  ⟨trivial, by rw [Threads.held, h]; rfl⟩

/-- A call holds nothing when it is made, and unlocks what it locks. -/
theorem Call.balanced (c : Call F C) : Balanced Action.owes c.code := by
  cases c with
  | setPolicy p =>
    rw [Call.code]
    split_ifs
    · exact .nil
    · exact ((balanced_guarded rfl).append (balanced_act rfl)).append (balanced_guarded rfl)
  | setBudget id b =>
    rw [Call.code]
    split_ifs
    · exact .nil
    · exact balanced_guarded rfl
  | currentPolicy | setHistoryLimit | push => exact balanced_act rfl
  | refresh nowMs => exact ⟨⟨rfl, trivial⟩, rfl⟩
  | admitBytes id => exact ⟨⟨rfl, trivial⟩, rfl⟩
  | _ => exact balanced_guarded rfl

theorem interpretCode_balanced (transitions : Nat) {next : Action F C} (h : next.owes = []) :
    Balanced Action.owes (interpretCode transitions next) :=
  ((Balanced.flatten fun _ hc => List.eq_of_mem_replicate hc ▸ balanced_guarded rfl).append
    (balanced_guarded rfl)).append (balanced_act h)

theorem concludeCode_balanced (changed : Bool) (pub : Published F) (observations : Nat) :
    Balanced Action.owes (concludeCode (C := C) changed pub observations) := by
  unfold concludeCode
  refine ((((?_ : Balanced _ _).append ?_).append (balanced_guarded rfl)).append
    (balanced_guarded rfl)).append (balanced_act rfl)
  · split_ifs
    · exact balanced_guarded rfl
    · exact .nil
  · rw [List.flatMap]
    refine Balanced.flatten ?_
    intro c hc
    obtain ⟨e, -, rfl⟩ := List.mem_map.mp hc
    exact balanced_guarded rfl

theorem Delivery.balanced (dl : Option Delivery) :
    Balanced Action.owes (Delivery.code dl : Code F C) := by
  cases dl with
  | none => exact .nil
  | some d => exact balanced_act rfl

/-- Balanced code is scoped and unlocks what an action that owes nothing owes. -/
theorem scoped_of_balanced {c : Code F C} (h : Balanced Action.owes c) :
    Threads.Scoped Action.owes c ∧ Threads.held Action.owes c = [] := ⟨h.1, h.2⟩

/-- Unlocking first, then balanced code. -/
theorem unlock_scoped {m : Mutex} {c : Code F C} (h : Balanced Action.owes c) :
    Threads.Scoped Action.owes (Instr.unlock m :: c) ∧
      Threads.held Action.owes (Instr.unlock m :: c) = [m] :=
  ⟨h.scoped_self, by rw [Threads.held, h.held_eq]⟩

/-- Every action's code is scoped and unlocks what the action owes. -/
theorem Expands.scoped_owes {a : Action F C} {new : Code F C} (h : Expands a new) :
    Threads.Scoped Action.owes new ∧ Threads.held Action.owes new = a.owes := by
  cases h with
  | leaf hleaf => exact ⟨trivial, (owes_of_isLeaf hleaf).symm⟩
  | call c => exact scoped_of_balanced (c.balanced.append (balanced_act rfl))
  | readDomain id known =>
    refine unlock_scoped ?_
    split_ifs
    · exact balanced_guarded rfl
    · exact .nil
  | poll nowMs pol budgets log log' name names failed =>
    refine scoped_of_balanced (Balanced.append ?_ (balanced_act rfl))
    split_ifs
    · exact balanced_guarded rfl
    · exact .nil
  | interpret => exact scoped_of_balanced (interpretCode_balanced _ rfl)
  | conclude => exact scoped_of_balanced (concludeCode_balanced _ _ _)
  | loadPolicy | copyBudgets | deliver | offer | pushes => exact ⟨⟨rfl, trivial⟩, rfl⟩
  | misses n e dl => exact scoped_of_balanced (Delivery.balanced dl)
  | queued n e dl => exact unlock_scoped (Delivery.balanced dl)
  | resume dl => exact scoped_of_balanced (Delivery.balanced dl)
  | _ => exact ⟨trivial, rfl⟩

/-! ## Where policies change and deliveries call back -/

/-- The action neither is a step of `set_policy` on the policy or the debounce
machines nor invokes a callback on an event that a refresh delivers. -/
def Action.isPlain : Action F C → Bool
  | .rebuild _ | .storePolicy _ | .invoke _ _ _ (some _) => false
  | _ => true

/-- Code with plain actions only. -/
def Plain (c : Code F C) : Prop := ∀ a, Instr.act a ∈ c → a.isPlain = true

theorem Plain.nil : Plain ([] : Code F C) := fun _ h => (by cases h)

theorem Plain.append {c c' : Code F C} (h : Plain c) (h' : Plain c') : Plain (c ++ c') :=
  fun a ha => (List.mem_append.mp ha).elim (h a) (h' a)

theorem plain_act {a : Action F C} (h : a.isPlain = true) : Plain [Instr.act a] := fun b hb => by
  obtain rfl := Instr.act.inj (List.mem_singleton.mp hb)
  exact h

theorem plain_lock {m : Mutex} : Plain ([.lock m] : Code F C) := fun a ha => by
  cases List.mem_singleton.mp ha

theorem plain_unlock {m : Mutex} : Plain ([.unlock m] : Code F C) := fun a ha => by
  cases List.mem_singleton.mp ha

theorem plain_guarded {m : Mutex} {a : Action F C} (h : a.isPlain = true) :
    Plain (guarded m a) :=
  plain_lock.append ((plain_act h).append plain_unlock)

theorem plain_flatten {cs : List (Code F C)} (h : ∀ c ∈ cs, Plain c) : Plain cs.flatten :=
  fun a ha => by
    obtain ⟨c, hc, hac⟩ := List.mem_flatten.mp ha
    exact h c hc a hac

theorem Delivery.plain (dl : Option Delivery) : Plain (Delivery.code dl : Code F C) := by
  cases dl with
  | none => exact .nil
  | some d => exact plain_act rfl

/-- Every call but `set_policy` has plain code: no step on the policy and no callback. -/
theorem Call.plain {c : Call F C} (h : ∀ p, c ≠ .setPolicy p) : Plain c.code := by
  cases c with
  | setPolicy p => exact absurd rfl (h p)
  | setBudget id b =>
    rw [Call.code]
    split_ifs
    · exact .nil
    · exact plain_guarded rfl
  | currentPolicy | setHistoryLimit | push => exact plain_act rfl
  | refresh nowMs => exact plain_lock.append ((plain_act rfl).append plain_unlock)
  | admitBytes id => exact plain_lock.append (plain_act rfl)
  | _ => exact plain_guarded rfl

/-- The expansions that are not plain: user code calls `set_policy`, or a
delivery's push hands out a callback. -/
inductive Special : Action F C → Code F C → Prop
  | setPolicy (p : PressurePolicy F) : Special .user ((Call.setPolicy p).code ++ [.act .user])
  | callback (n e d cb) : Special (.pushLocked n e (some d))
      [.unlock (.subscription n), .act (.invoke n cb e (some d))]

theorem Expands.special_or_plain {a : Action F C} {new : Code F C} (h : Expands a new) :
    Special a new ∨ Plain new := by
  cases h with
  | leaf | leave | escaped | delivered | thrown => exact Or.inr .nil
  | call c =>
    by_cases hset : ∃ p, c = .setPolicy p
    · obtain ⟨p, rfl⟩ := hset
      exact Or.inl (.setPolicy p)
    · exact Or.inr ((Call.plain fun p hp => hset ⟨p, hp⟩).append (plain_act rfl))
  | readDomain id known =>
    cases known with
    | true => exact Or.inr (plain_unlock.append (plain_guarded rfl))
    | false => exact Or.inr (plain_unlock.append .nil)
  | poll nowMs pol budgets log log' name names failed =>
    refine Or.inr (Plain.append ?_ (plain_act rfl))
    split_ifs
    · exact plain_guarded rfl
    · exact .nil
  | interpret =>
    refine Or.inr
      (((plain_flatten fun c hc => ?_).append (plain_guarded rfl)).append (plain_act rfl))
    exact List.eq_of_mem_replicate hc ▸ plain_guarded rfl
  | conclude nowMs pol budgets log changed pub observations =>
    refine Or.inr ((((Plain.append ?_ (plain_flatten fun c hc => ?_)).append
      (plain_guarded rfl)).append (plain_guarded rfl)).append (plain_act rfl))
    · split_ifs
      · exact plain_guarded rfl
      · exact .nil
    · obtain ⟨e, -, rfl⟩ := List.mem_map.mp hc
      exact plain_guarded rfl
  | loadPolicy | deliver | offer | pushes => exact Or.inr (plain_lock.append (plain_act rfl))
  | copyBudgets => exact Or.inr (plain_unlock.append (plain_lock.append (plain_act rfl)))
  | copyProviders | copySubscriptions | isClosed | isOpen =>
    exact Or.inr (plain_unlock.append (plain_act rfl))
  | polled | offered => exact Or.inr (plain_act rfl)
  | misses n e dl => exact Or.inr (Delivery.plain dl)
  | queued n e dl => exact Or.inr (plain_unlock.append (Delivery.plain dl))
  | resume dl => exact Or.inr (Delivery.plain dl)
  | calls n e dl cb =>
    cases dl with
    | none => exact Or.inr (plain_unlock.append (plain_act rfl))
    | some d => exact Or.inl (.callback n e d cb)
  | invoke n cb e dl => exact Or.inr ((plain_act rfl).append (plain_act rfl))

/-- The runtime's code as a program of threads. -/
def program : Threads.Program Mutex (Shared F C) (Action F C) (Choice F C) (Note F C) where
  exec := Action.exec
  owes := Action.owes
  exec_scoped := fun h => (Action.exec_expands h).scoped_owes

/-- A state of the threads. -/
abbrev System (F C : Type) [Double F] := Threads.State Mutex (Shared F C) (Action F C)

/-- A moment with every thread in user code. -/
def quiet (d : Shared F C) : System F C where
  data := d
  owner := fun _ => none
  code := fun _ => [.act .user]

theorem sound_quiet (d : Shared F C) : Threads.Sound program (quiet d) :=
  ⟨fun _ => trivial, fun _ => List.nodup_nil, fun _ _ =>
    ⟨fun h => (by cases h), fun h => (by cases h)⟩⟩

/-- The threads after a schedule, from construction. -/
abbrev schedule (moves : List (Nat × Choice F C)) : System F C :=
  Threads.runFrom program (quiet {}) moves

end MemoryPressure
