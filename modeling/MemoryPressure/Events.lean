import MemoryPressure.Types

/-!
# Events and subscriptions (`events.h`, `core.cpp`)

The bounded notification channel: events, their numbering, and one subscription with its
queue.

A refresh makes its events one after the other and numbers each from `event_id_` as it
makes it. In the model a batch is a list of unnumbered events, which `stampIds` numbers in
order; the lemmas beside it say that whatever does not read the numbers sees the same
batch before and after.

A subscription has a filter, a bound, an overflow policy and a callback. `push` is split
where the source takes the mutex: `matchesEvent` is decided before, `pushLocked` is the
critical section, and the callback it hands out is invoked after unlocking by whoever
called. A callback is a value of an arbitrary type `C`: the model tracks whether and when
it is invoked, not what it is.

With the policy `dropOldest` a full queue makes room by `pop_front`. If the bound is zero
the queue is full while it is empty, and `pop_front` of an empty deque is undefined in
C++. There `push` answers `none`, and it is for each statement about `push` to say that it
is not reached (`ZeroQueue.lean` says when it is).
-/

namespace MemoryPressure

/-- `PressureEventType` (events.h:11). -/
inductive PressureEventType where
  | domainAdded | domainRemoved | pressureEntered | pressureEscalated | pressureRelieved
  | pressureRecovered | budgetChanged | reserveChanged | providerStale | providerFailed
  | providerRecovered | backpressureIssued | reclaimRequested | demotionRequested
  | policyChanged | generationChanged | custom
  deriving DecidableEq, Repr

/-- The types that announce a change of level. -/
def PressureEventType.isTransition : PressureEventType → Bool
  | .pressureEntered | .pressureEscalated | .pressureRelieved | .pressureRecovered => true
  | _ => false

/-- The types that ask for something. -/
def PressureEventType.isRequest : PressureEventType → Bool
  | .reclaimRequested | .demotionRequested | .backpressureIssued => true
  | _ => false

/-- `PressureEvent` (events.h:41). Three fields are fixed-width integers in the source
and naturals here: `id` and `generation` number what 64 bits count from 0, which no run
of a real process brings round, and `severity_rank` is `max(0, rank)` of a level, hence
at most 4, whatever its 32 bits could hold. -/
structure PressureEvent where
  id : Nat := 0
  type : PressureEventType := .custom
  generation : Nat := 0
  timestampMs : UInt64 := 0
  domain : Option PressureDomainId := none
  detail : String := ""
  severityRank : Nat := 0
  deriving DecidableEq, Repr

/-- `make_pressure_event` (runtime.cpp:58), all but the id: every event made is
appended to the batch at once, so `stampIds` numbers the batch in order. -/
def makePressureEvent (type : PressureEventType) (generation : Nat) (nowMs : UInt64)
    (domain : Option PressureDomainId) (detail : String) (sev : Nat) : PressureEvent :=
  { type := type, generation := generation, timestampMs := nowMs, domain := domain,
    detail := detail, severityRank := sev }

/-- `e.id = ++next_id` for each event of a batch, in the order they were made. -/
def stampIds (nextId : Nat) : List PressureEvent → List PressureEvent
  | [] => []
  | e :: es => { e with id := nextId + 1 } :: stampIds (nextId + 1) es

@[simp] theorem length_stampIds (nextId : Nat) (es : List PressureEvent) :
    (stampIds nextId es).length = es.length := by
  induction es generalizing nextId with
  | nil => rfl
  | cons e es ih => rw [stampIds, List.length_cons, ih, List.length_cons]

/-- What does not read ids does not see the stamping. -/
theorem foldl_stampIds {β : Type} {f : β → PressureEvent → β}
    (hf : ∀ b e n, f b { e with id := n } = f b e) (nextId : Nat) (es : List PressureEvent)
    (b : β) : (stampIds nextId es).foldl f b = es.foldl f b := by
  induction es generalizing nextId b with
  | nil => rfl
  | cons e es ih =>
    rw [stampIds, List.foldl_cons, List.foldl_cons, hf, ih]

/-- A map that does not read ids does not see the stamping. -/
theorem map_stampIds {β : Type} {f : PressureEvent → β} (hf : ∀ e n, f { e with id := n } = f e)
    (nextId : Nat) (es : List PressureEvent) : (stampIds nextId es).map f = es.map f := by
  induction es generalizing nextId with
  | nil => rfl
  | cons e es ih =>
    rw [stampIds, List.map_cons, List.map_cons, ih, hf]

/-- A count that does not read ids does not see the stamping. -/
theorem countP_stampIds {p : PressureEvent → Bool} (hp : ∀ e n, p { e with id := n } = p e)
    (nextId : Nat) (es : List PressureEvent) : (stampIds nextId es).countP p = es.countP p := by
  induction es generalizing nextId with
  | nil => rfl
  | cons e es ih =>
    rw [stampIds, List.countP_cons, List.countP_cons, ih, hp]

/-- What does not read ids is found in a stamped batch as in the batch. -/
theorem exists_mem_stampIds {p : PressureEvent → Prop}
    (hp : ∀ e n, p { e with id := n } ↔ p e) (nextId : Nat) (es : List PressureEvent) :
    (∃ e ∈ stampIds nextId es, p e) ↔ ∃ e ∈ es, p e := by
  induction es generalizing nextId with
  | nil => rfl
  | cons e es ih => simp only [stampIds, List.mem_cons, exists_eq_or_imp, ih, hp]

/-! ## Subscriptions -/

/-- `SubscriptionFilter` (events.h:50). -/
structure SubscriptionFilter where
  domains : List PressureDomainId := []
  domainTypes : List DomainType := []
  severities : List PressureLevel := []
  eventTypes : List PressureEventType := []
  deriving DecidableEq, Repr

/-- `EventOverflowPolicy` (events.h:56). -/
inductive EventOverflowPolicy where
  | dropNewest | dropOldest | reject
  deriving DecidableEq, Repr

/-- `Subscription` (events.h:57). -/
structure Subscription (C : Type) where
  filter : SubscriptionFilter := {}
  maxQueue : Nat := 256
  overflowPolicy : EventOverflowPolicy := .dropOldest
  queue : List PressureEvent := []
  callback : Option C := none
  closed : Bool := false
  delivered : Nat := 0
  dropped : Nat := 0
  rejected : Nat := 0

namespace Subscription

variable {C : Type}

/-- `Subscription::matches` (core.cpp:347); `domain_types` is not consulted. -/
def matchesEvent (s : Subscription C) (e : PressureEvent) : Bool :=
  (s.filter.domains.isEmpty || e.domain.any (fun d => s.filter.domains.contains d)) &&
    (s.filter.eventTypes.isEmpty || s.filter.eventTypes.contains e.type) &&
    (s.filter.severities.isEmpty ||
      s.filter.severities.any (fun lv => MemoryPressure.severityRank lv = (e.severityRank : Int)))

/-- `pop_front`; undefined on an empty deque. -/
def popFront (queue : List PressureEvent) : Option (List PressureEvent) :=
  match queue with
  | [] => none
  | _ :: rest => some rest

/-- The part of `push` that accepts the event: enqueue, count, copy the callback
(core.cpp:376). -/
def accept (s : Subscription C) (e : PressureEvent) : Subscription C × Bool × Option C :=
  ({ s with queue := s.queue ++ [e], delivered := s.delivered + 1 }, true, s.callback)

/-- The critical section of `Subscription::push` (core.cpp:368–379): the new
state, what `push` returns and the callback it invokes after unlocking. `none`
is the undefined `pop_front` of an empty queue. -/
def pushLocked (s : Subscription C) (e : PressureEvent) :
    Option (Subscription C × Bool × Option C) :=
  if s.closed then some (s, false, none)
  else if s.queue.length ≥ s.maxQueue then
    match s.overflowPolicy with
    | .reject => some ({ s with rejected := s.rejected + 1 }, false, none)
    | .dropNewest => some ({ s with dropped := s.dropped + 1 }, false, none)
    | .dropOldest =>
      (popFront s.queue).map fun rest =>
        accept { s with queue := rest, dropped := s.dropped + 1 } e
  else some (accept s e)

/-- `Subscription::push` (core.cpp:366). -/
def push (s : Subscription C) (e : PressureEvent) : Option (Subscription C × Bool × Option C) :=
  if s.matchesEvent e then s.pushLocked e else some (s, false, none)

/-- `Subscription::try_pop` (core.cpp:385): the queue without its head, which is
handed out. -/
def tryPop (s : Subscription C) : Subscription C × Option PressureEvent :=
  match s.queue with
  | [] => (s, none)
  | e :: rest => ({ s with queue := rest }, some e)

/-- `Subscription::clear` (core.cpp:413). -/
def clear (s : Subscription C) : Subscription C := { s with queue := [] }

/-- `Subscription::close` (core.cpp:402). -/
def close (s : Subscription C) : Subscription C := { s with closed := true, callback := none }

/-- `Subscription::set_callback` (core.cpp:397). -/
def setCallback (s : Subscription C) (cb : Option C) : Subscription C := { s with callback := cb }

/-- The critical section reaches the callback copy: the subscription is open and
has room, or makes room. -/
def Accepts (s : Subscription C) : Prop :=
  s.closed = false ∧
    (s.queue.length < s.maxQueue ∨ (s.overflowPolicy = .dropOldest ∧ s.queue ≠ []))

/-- The critical section hands out a callback exactly when the subscription
accepts and has one. -/
theorem pushLocked_callback {s s' : Subscription C} {e : PressureEvent} {ok : Bool}
    {cb : Option C} (h : s.pushLocked e = some (s', ok, cb)) :
    cb.isSome ↔ s.Accepts ∧ s.callback.isSome := by
  unfold pushLocked at h
  unfold Accepts
  by_cases hclosed : s.closed = true
  · rw [if_pos hclosed] at h
    obtain ⟨-, -, rfl⟩ := by simpa using h
    simp [hclosed]
  · rw [if_neg hclosed] at h
    have hopen : s.closed = false := Bool.eq_false_iff.mpr hclosed
    by_cases hfull : s.queue.length ≥ s.maxQueue
    · rw [if_pos hfull] at h
      have hnot : ¬ s.queue.length < s.maxQueue := Nat.not_lt.mpr hfull
      cases hpol : s.overflowPolicy with
      | reject =>
        rw [hpol] at h
        obtain ⟨-, -, rfl⟩ := by simpa using h
        simp [hnot]
      | dropNewest =>
        rw [hpol] at h
        obtain ⟨-, -, rfl⟩ := by simpa using h
        simp [hnot]
      | dropOldest =>
        rw [hpol] at h
        cases hq : s.queue with
        | nil => simp [popFront, hq] at h
        | cons q qs =>
          simp only [popFront, hq, accept, Option.map_some, Option.some.injEq,
            Prod.mk.injEq] at h
          obtain ⟨-, -, rfl⟩ := h
          simp [hopen]
    · rw [if_neg hfull] at h
      simp only [accept, Option.some.injEq, Prod.mk.injEq] at h
      obtain ⟨-, -, rfl⟩ := h
      simp [hopen, Nat.lt_of_not_le hfull]

end Subscription

end MemoryPressure
