import MemoryPressure.Foundation.Machine
import MemoryPressure.Events

/-!
# A subscription as a bounded queue (`core.cpp`)

One subscription under any sequence of pushes, pops, clears and a close. A run
keeps a note of every call that has a result; the counters of the subscription
are compared with what the notes say.

- `Pushes`, `PopsEmpty`, `push_cases`: the ways a push can go, one constructor for each
  branch, and when it is undefined.
- `Accounted`: what holds of the queue and its counters after every run; one
  lemma for each operation.
- `bounded_queue`: the queue is the newest part of what was accepted, and no
  counter misses an event.

**What is compared.** The notes are what the callers saw: which events they pushed,
whether the subscription was open then, what `push` returned and what was popped. From
them alone follow the events accepted, offered and popped (`acceptedEvents`, `offeredTo`,
`poppedEvents`); `delivered`, `dropped` and `rejected` are fields of the subscription.
`Accounted` says that the two agree, and every overflow policy has its own equation, since
`dropped` counts events turned away under one policy and events taken out under another.

**Proof structure.** `Accounted` is an invariant of `queueStep`. A push is split by
`push_cases` into the event that is not for the subscription (`ignored`), the one turned
away (`refused`) and the one accepted, before which the oldest may have gone
(`accepted`); `step` collects the four calls and `run` is the induction.

Queues that have room for at least one event are the subject here, of whatever bound;
`ZeroQueue.lean` takes the bound 0, where making room is undefined. One thread at a time
calls: each call is one region under the subscription's mutex.
-/

namespace MemoryPressure

variable {C : Type}

/-! ## Runs of one subscription -/

/-- The calls on a subscription that change its queue. -/
inductive QueueOp where
  | push (e : PressureEvent)
  | tryPop
  | clear
  | close

/-- What a call reports: a push whether the subscription was open and whether it
returned true, a pop its event, a clear how many events it drops. -/
inductive QueueNote where
  | pushed (e : PressureEvent) (wasOpen ok : Bool)
  | popped (e : PressureEvent)
  | cleared (n : Nat)

/-- One call; `none` once a push was undefined. -/
def queueStep (s : Option (Subscription C)) (op : QueueOp) :
    Option (Subscription C) × List QueueNote :=
  match s with
  | none => (none, [])
  | some s =>
    match op with
    | .push e =>
      match s.push e with
      | none => (none, [])
      | some (s', ok, _) => (some s', [.pushed e (!s.closed) ok])
    | .tryPop => (some s.tryPop.1, s.tryPop.2.toList.map .popped)
    | .clear => (some s.clear, [.cleared s.queue.length])
    | .close => (some s.close, [])

/-- The events pushed that a filter lets through, in order. -/
def matchedBy (s : Subscription C) (notes : List QueueNote) : List PressureEvent :=
  notes.filterMap fun note => match note with
    | .pushed e _ _ => if s.matchesEvent e then some e else none
    | _ => none

/-- How many of the events that a filter lets through were pushed while the subscription was
open. -/
def offeredTo (s : Subscription C) (notes : List QueueNote) : Nat :=
  notes.countP fun note => match note with
    | .pushed e wasOpen _ => wasOpen && s.matchesEvent e
    | _ => false

/-- The events whose push returned true, in order. -/
def acceptedEvents (notes : List QueueNote) : List PressureEvent :=
  notes.filterMap fun note => match note with
    | .pushed e _ true => some e
    | _ => none

/-- The events popped, in order. -/
def poppedEvents (notes : List QueueNote) : List PressureEvent :=
  notes.filterMap fun note => match note with
    | .popped e => some e
    | _ => none

/-- How many events were cleared. -/
def clearedCount : List QueueNote → Nat
  | [] => 0
  | .cleared n :: notes => n + clearedCount notes
  | _ :: notes => clearedCount notes

/-! ## How a push can go -/

namespace Subscription

/-- The outcome of a push, branch by branch. -/
inductive Pushes (s : Subscription C) (e : PressureEvent) :
    Subscription C × Bool × Option C → Prop
  | misses : s.matchesEvent e = false → Pushes s e (s, false, none)
  | closed : s.matchesEvent e = true → s.closed = true → Pushes s e (s, false, none)
  | queued : s.matchesEvent e = true → s.closed = false → s.queue.length < s.maxQueue →
      Pushes s e (s.accept e)
  | rejected : s.matchesEvent e = true → s.closed = false → s.overflowPolicy = .reject →
      Pushes s e ({ s with rejected := s.rejected + 1 }, false, none)
  | droppedNew : s.matchesEvent e = true → s.closed = false → s.overflowPolicy = .dropNewest →
      Pushes s e ({ s with dropped := s.dropped + 1 }, false, none)
  | droppedOld (q rest) : s.matchesEvent e = true → s.closed = false →
      s.overflowPolicy = .dropOldest → s.queue = q :: rest →
      Pushes s e (accept { s with queue := rest, dropped := s.dropped + 1 } e)

/-- The push that is undefined: it makes room in a queue that has none. -/
structure PopsEmpty (s : Subscription C) (e : PressureEvent) : Prop where
  matching : s.matchesEvent e = true
  opened : s.closed = false
  policy : s.overflowPolicy = .dropOldest
  queue : s.queue = []
  maxQueue : s.maxQueue = 0

theorem push_of_popsEmpty {s : Subscription C} {e : PressureEvent} (h : s.PopsEmpty e) :
    s.push e = none := by
  have hfull : s.queue.length ≥ s.maxQueue := by
    rw [h.maxQueue]
    exact Nat.zero_le _
  rw [push, if_pos h.matching, pushLocked, if_neg (by simp [h.opened]), if_pos hfull, h.policy]
  simp only [h.queue, popFront, Option.map_none]

/-- **How a push can go**: it is undefined, or one of the outcomes. -/
theorem push_cases (s : Subscription C) (e : PressureEvent) :
    (s.push e = none ∧ PopsEmpty s e) ∨ ∃ out, s.push e = some out ∧ Pushes s e out := by
  unfold push
  -- one constructor for each branch of `push`, in the order of the source
  by_cases hmatch : s.matchesEvent e = true
  · rw [if_pos hmatch]
    unfold pushLocked
    by_cases hclosed : s.closed = true
    · rw [if_pos hclosed]
      exact .inr ⟨_, rfl, .closed hmatch hclosed⟩
    · have hopen : s.closed = false := Bool.eq_false_iff.mpr hclosed
      rw [if_neg hclosed]
      by_cases hfull : s.queue.length ≥ s.maxQueue
      · rw [if_pos hfull]
        obtain ⟨filter, maxQueue, policy, queue, callback, closed, delivered, dropped, rejected⟩ :=
          s
        cases policy with
        | reject => exact .inr ⟨_, rfl, .rejected hmatch hopen rfl⟩
        | dropNewest => exact .inr ⟨_, rfl, .droppedNew hmatch hopen rfl⟩
        | dropOldest =>
          cases queue with
          -- a full queue that is empty has no room at all
          | nil => exact .inl ⟨rfl, hmatch, hopen, rfl, rfl, Nat.le_zero.mp hfull⟩
          | cons q rest => exact .inr ⟨_, rfl, .droppedOld q rest hmatch hopen rfl rfl⟩
      · rw [if_neg hfull]
        exact .inr ⟨_, rfl, .queued hmatch hopen (Nat.lt_of_not_le hfull)⟩
  · rw [if_neg hmatch]
    exact .inr ⟨_, rfl, .misses (Bool.eq_false_iff.mpr hmatch)⟩

theorem pushes_of_push {s : Subscription C} {e : PressureEvent}
    {out : Subscription C × Bool × Option C} (h : s.push e = some out) : Pushes s e out := by
  rcases s.push_cases e with ⟨hnone, -⟩ | ⟨out', hout, hpushes⟩
  · rw [h] at hnone
    cases hnone
  · rw [h] at hout
    obtain rfl := Option.some.inj hout
    exact hpushes

/-- A push neither closes nor reopens. -/
theorem Pushes.closed_eq {s : Subscription C} {e : PressureEvent}
    {out : Subscription C × Bool × Option C} (h : s.Pushes e out) : out.1.closed = s.closed := by
  cases h <;> rfl

/-- A push that finds the subscription closed does nothing. -/
theorem Pushes.eq_of_closed {s : Subscription C} {e : PressureEvent}
    {out : Subscription C × Bool × Option C} (h : s.Pushes e out) (hclosed : s.closed = true) :
    out = (s, false, none) := by
  cases h with
  | misses _ => rfl
  | closed _ _ => rfl
  | queued _ hopen _ => exact absurd hclosed (by simp [hopen])
  | rejected _ hopen _ => exact absurd hclosed (by simp [hopen])
  | droppedNew _ hopen _ => exact absurd hclosed (by simp [hopen])
  | droppedOld _ _ _ hopen _ _ => exact absurd hclosed (by simp [hopen])

/-- **A push** with room for one event is always defined. -/
theorem push_spec (s : Subscription C) (hmax : 1 ≤ s.maxQueue) (e : PressureEvent) :
    ∃ out, s.push e = some out ∧ Pushes s e out := by
  rcases s.push_cases e with ⟨-, hempty⟩ | hout
  · rw [hempty.maxQueue] at hmax
    exact absurd hmax (by decide)
  · exact hout

end Subscription

/-! ## What a run accounts for -/

section

variable (s : Subscription C) (notes more : List QueueNote)

@[simp] theorem matchedBy_append :
    matchedBy s (notes ++ more) = matchedBy s notes ++ matchedBy s more :=
  List.filterMap_append ..

@[simp] theorem offeredTo_append :
    offeredTo s (notes ++ more) = offeredTo s notes + offeredTo s more := List.countP_append ..

@[simp] theorem poppedEvents_append :
    poppedEvents (notes ++ more) = poppedEvents notes ++ poppedEvents more :=
  List.filterMap_append ..

@[simp] theorem clearedCount_append :
    clearedCount (notes ++ more) = clearedCount notes + clearedCount more := by
  induction notes with
  | nil => exact (Nat.zero_add _).symm
  | cons note notes ih => cases note <;> simp [clearedCount, ih, Nat.add_assoc]

end

/-- What a subscription that started as `s₀` and its notes have to do with each
other. -/
structure Accounted (s₀ s : Subscription C) (notes : List QueueNote) : Prop where
  filter : s.filter = s₀.filter
  maxQueue : s.maxQueue = s₀.maxQueue
  policy : s.overflowPolicy = s₀.overflowPolicy
  bounded : s.queue.length ≤ s.maxQueue
  /-- The queue is the newest part of what was accepted. -/
  newest : s.queue <:+ acceptedEvents notes
  /-- What was popped and what is queued were accepted in that order. -/
  order : List.Sublist (poppedEvents notes ++ s.queue) (acceptedEvents notes)
  matched : List.Sublist (acceptedEvents notes) (matchedBy s₀ notes)
  delivered : s.delivered = (poppedEvents notes).length + clearedCount notes + s.queue.length
    + if s.overflowPolicy = .dropOldest then s.dropped else 0
  offered : offeredTo s₀ notes = s.delivered + s.rejected
    + if s.overflowPolicy = .dropNewest then s.dropped else 0

namespace Accounted

variable {s₀ s : Subscription C} {notes : List QueueNote}

theorem start (filter : SubscriptionFilter) (maxQueue : Nat) (policy : EventOverflowPolicy)
    (cb : Option C) :
    Accounted { filter := filter, maxQueue := maxQueue, overflowPolicy := policy, callback := cb }
      { filter := filter, maxQueue := maxQueue, overflowPolicy := policy, callback := cb } [] where
  filter := rfl
  maxQueue := rfl
  policy := rfl
  bounded := Nat.zero_le _
  newest := List.suffix_rfl
  order := List.Sublist.refl _
  matched := List.Sublist.refl _
  delivered := by cases policy <;> rfl
  offered := by cases policy <;> rfl

theorem matchesEvent_eq (h : Accounted s₀ s notes) (e : PressureEvent) :
    s.matchesEvent e = s₀.matchesEvent e := by
  unfold Subscription.matchesEvent
  rw [h.filter]

/-- A push that finds the subscription closed or is not for it is only noted. -/
theorem ignored (h : Accounted s₀ s notes) {e : PressureEvent} {wasOpen : Bool}
    (hmiss : (wasOpen && s.matchesEvent e) = false) :
    Accounted s₀ s (notes ++ [.pushed e wasOpen false]) := by
  rw [h.matchesEvent_eq] at hmiss
  have hmatched : List.Sublist (matchedBy s₀ notes)
      (matchedBy s₀ (notes ++ [.pushed e wasOpen false])) := by
    rw [matchedBy_append]
    exact List.sublist_append_left ..
  refine ⟨h.filter, h.maxQueue, h.policy, h.bounded, ?_, ?_, ?_, ?_, ?_⟩
  · simpa [acceptedEvents] using h.newest
  · simpa [acceptedEvents, poppedEvents] using h.order
  · simpa [acceptedEvents] using h.matched.trans hmatched
  · simpa [poppedEvents, clearedCount] using h.delivered
  · simpa [offeredTo, hmiss] using h.offered

/-- A push that is turned away and counted. -/
theorem refused (h : Accounted s₀ s notes) {e : PressureEvent} {s' : Subscription C}
    (hmatch : s.matchesEvent e = true)
    (hs' : s' = { s with rejected := s'.rejected, dropped := s'.dropped })
    (hold : (if s.overflowPolicy = .dropOldest then s'.dropped else 0)
      = if s.overflowPolicy = .dropOldest then s.dropped else 0)
    (hcount : (s'.rejected + if s.overflowPolicy = .dropNewest then s'.dropped else 0)
      = (s.rejected + if s.overflowPolicy = .dropNewest then s.dropped else 0) + 1) :
    Accounted s₀ s' (notes ++ [.pushed e true false]) := by
  have hoffered := h.offered
  have hmatched : List.Sublist (matchedBy s₀ notes)
      (matchedBy s₀ (notes ++ [.pushed e true false])) := by
    rw [matchedBy_append]
    exact List.sublist_append_left ..
  rw [h.matchesEvent_eq] at hmatch
  rw [hs']
  refine ⟨h.filter, h.maxQueue, h.policy, h.bounded, ?_, ?_, ?_, ?_, ?_⟩
  · simpa [acceptedEvents] using h.newest
  · simpa [acceptedEvents, poppedEvents] using h.order
  · simpa [acceptedEvents] using h.matched.trans hmatched
  · dsimp only
    rw [hold]
    simpa [poppedEvents, clearedCount] using h.delivered
  · dsimp only
    have hone : offeredTo s₀ [.pushed e true false] = 1 := by simp [offeredTo, hmatch]
    rw [offeredTo_append, hone]
    omega

/-- A push that is accepted, for which the oldest events may have made room. -/
theorem accepted (h : Accounted s₀ s notes) {e : PressureEvent} (lost : List PressureEvent)
    {rest : List PressureEvent} (hmatch : s.matchesEvent e = true) (hqueue : s.queue = lost ++ rest)
    (hroom : rest.length < s.maxQueue) (hlost : s.overflowPolicy ≠ .dropOldest → lost = []) :
    Accounted s₀
      (Subscription.accept { s with queue := rest, dropped := s.dropped + lost.length } e).1
      (notes ++ [.pushed e true true]) := by
  have hoffered := h.offered
  have hdelivered := h.delivered
  have hlen := congrArg List.length hqueue
  rw [List.length_append] at hlen
  rw [h.matchesEvent_eq] at hmatch
  have hacc : acceptedEvents (notes ++ [.pushed e true true]) = acceptedEvents notes ++ [e] := by
    simp [acceptedEvents]
  have hpop : poppedEvents (notes ++ [.pushed e true true]) = poppedEvents notes := by
    simp [poppedEvents]
  have hmat : matchedBy s₀ (notes ++ [.pushed e true true]) = matchedBy s₀ notes ++ [e] := by
    simp [matchedBy, hmatch]
  -- what is lost is counted under `dropOldest`, and nothing is lost otherwise
  have hold : (if s.overflowPolicy = .dropOldest then s.dropped + lost.length else 0)
      = (if s.overflowPolicy = .dropOldest then s.dropped else 0) + lost.length := by
    split_ifs with hpol
    · rfl
    · rw [hlost hpol]
      rfl
  have hnew : (if s.overflowPolicy = .dropNewest then s.dropped + lost.length else 0)
      = if s.overflowPolicy = .dropNewest then s.dropped else 0 := by
    split_ifs with hpol
    · rw [hlost (by rw [hpol]; decide)]
      rfl
    · rfl
  refine ⟨h.filter, h.maxQueue, h.policy, ?_, ?_, ?_, ?_, ?_, ?_⟩
  · show (rest ++ [e]).length ≤ s.maxQueue
    rw [List.length_append, List.length_singleton]
    exact hroom
  · rw [hacc]
    have hsuffix : rest <:+ acceptedEvents notes :=
      (hqueue ▸ List.suffix_append lost rest).trans h.newest
    obtain ⟨front, hfront⟩ := hsuffix
    exact ⟨front, by rw [← hfront, List.append_assoc]; rfl⟩
  · rw [hacc, hpop]
    have hkept : List.Sublist (poppedEvents notes ++ rest) (acceptedEvents notes) :=
      (List.Sublist.append_left (hqueue ▸ List.sublist_append_right lost rest) _).trans h.order
    show List.Sublist (poppedEvents notes ++ (rest ++ [e])) _
    rw [← List.append_assoc]
    exact hkept.append (List.Sublist.refl [e])
  · rw [hacc, hmat]
    exact h.matched.append (List.Sublist.refl [e])
  · rw [hpop, clearedCount_append]
    show s.delivered + 1 = (poppedEvents notes).length + (clearedCount notes + 0)
      + (rest ++ [e]).length + if s.overflowPolicy = .dropOldest then s.dropped + lost.length else 0
    rw [hold, List.length_append, List.length_singleton]
    omega
  · have hone : offeredTo s₀ [.pushed e true true] = 1 := by simp [offeredTo, hmatch]
    rw [offeredTo_append, hone]
    show _ = s.delivered + 1 + s.rejected
      + if s.overflowPolicy = .dropNewest then s.dropped + lost.length else 0
    rw [hnew]
    omega

/-- **A push keeps the accounts.** -/
theorem push (h : Accounted s₀ s notes) {e : PressureEvent}
    {out : Subscription C × Bool × Option C} (hout : s.Pushes e out) :
    Accounted s₀ out.1 (notes ++ [.pushed e (!s.closed) out.2.1]) := by
  have hwas : s.closed = false → (!s.closed) = true := fun hopen => by rw [hopen]; rfl
  cases hout with
  | misses hmatch => exact h.ignored (by rw [hmatch, Bool.and_false])
  | closed hmatch hclosed => exact h.ignored (by rw [hclosed]; rfl)
  | queued hmatch hopen hroom =>
    rw [hwas hopen]
    exact h.accepted [] hmatch rfl hroom fun _ => rfl
  | rejected hmatch hopen hpol =>
    rw [hwas hopen]
    exact h.refused hmatch rfl (by simp) (by simp [hpol])
  | droppedNew hmatch hopen hpol =>
    rw [hwas hopen]
    exact h.refused hmatch rfl (by simp [hpol]) (by simp [hpol]; omega)
  | droppedOld q rest hmatch hopen hpol hq =>
    have hfits := h.bounded
    rw [hq, List.length_cons] at hfits
    rw [hwas hopen]
    exact h.accepted [q] hmatch hq hfits fun hne => absurd hpol hne

/-- A pop hands out the oldest event. -/
theorem pop (h : Accounted s₀ s notes) :
    Accounted s₀ s.tryPop.1 (notes ++ s.tryPop.2.toList.map .popped) := by
  have hdelivered := h.delivered
  unfold Subscription.tryPop
  cases hq : s.queue with
  | nil => simpa using h
  | cons e rest =>
    have hbounded := h.bounded
    have hnewest := h.newest
    have horder := h.order
    rw [hq] at hbounded hnewest horder hdelivered
    simp only [Option.toList_some, List.map_cons, List.map_nil]
    refine ⟨h.filter, h.maxQueue, h.policy, Nat.le_of_succ_le hbounded, ?_, ?_, ?_, ?_, ?_⟩
    · simpa [acceptedEvents] using (List.suffix_cons e rest).trans hnewest
    · simpa [acceptedEvents, poppedEvents] using horder
    · simpa [acceptedEvents, matchedBy] using h.matched
    · simp only [poppedEvents_append, clearedCount_append, List.length_append]
      have hone : (poppedEvents [.popped e]).length = 1 := rfl
      have hzero : clearedCount [.popped e] = 0 := rfl
      rw [hone, hzero]
      rw [List.length_cons] at hdelivered
      omega
    · simpa [offeredTo] using h.offered

/-- A clear drops what is queued. -/
theorem clear (h : Accounted s₀ s notes) :
    Accounted s₀ s.clear (notes ++ [.cleared s.queue.length]) := by
  have hdelivered := h.delivered
  refine ⟨h.filter, h.maxQueue, h.policy, Nat.zero_le _, List.nil_suffix, ?_, ?_, ?_, ?_⟩
  · have hpopped := (List.sublist_append_left (poppedEvents notes) s.queue).trans h.order
    simpa [acceptedEvents, poppedEvents, Subscription.clear] using hpopped
  · simpa [acceptedEvents, matchedBy] using h.matched
  · have hnone : poppedEvents [.cleared s.queue.length] = [] := rfl
    have hall : clearedCount [.cleared s.queue.length] = s.queue.length := by simp [clearedCount]
    rw [poppedEvents_append, clearedCount_append, hnone, hall, List.append_nil]
    show s.delivered = (poppedEvents notes).length + (clearedCount notes + s.queue.length) + 0
      + if s.overflowPolicy = .dropOldest then s.dropped else 0
    omega
  · have hnone : offeredTo s₀ [.cleared s.queue.length] = 0 := rfl
    rw [offeredTo_append, hnone]
    exact h.offered

/-- A close leaves the queue. -/
theorem close (h : Accounted s₀ s notes) : Accounted s₀ s.close notes :=
  ⟨h.filter, h.maxQueue, h.policy, h.bounded, h.newest, h.order, h.matched, h.delivered, h.offered⟩

/-- **Every call keeps the accounts.** -/
theorem step (h : Accounted s₀ s notes) (hmax : 1 ≤ s₀.maxQueue) (op : QueueOp) :
    ∃ s', (queueStep (some s) op).1 = some s' ∧
      Accounted s₀ s' (notes ++ (queueStep (some s) op).2) := by
  cases op with
  | push e =>
    obtain ⟨out, hpush, hout⟩ := s.push_spec (h.maxQueue ▸ hmax) e
    refine ⟨out.1, ?_, ?_⟩
    · simp only [queueStep, hpush]
    · simpa only [queueStep, hpush] using h.push hout
  | tryPop => exact ⟨_, rfl, h.pop⟩
  | clear => exact ⟨_, rfl, h.clear⟩
  | close =>
    refine ⟨_, rfl, ?_⟩
    show Accounted s₀ s.close (notes ++ [])
    rw [List.append_nil]
    exact h.close

/-- **Every run keeps the accounts.** -/
theorem run (h : Accounted s₀ s notes) (hmax : 1 ≤ s₀.maxQueue) (ops : List QueueOp) :
    ∃ s', Machine.run queueStep (some s) ops = some s' ∧
      Accounted s₀ s' (notes ++ Machine.outputs queueStep (some s) ops) := by
  induction ops generalizing s notes with
  | nil => exact ⟨s, rfl, by rwa [Machine.outputs_nil, List.append_nil]⟩
  | cons op ops ih =>
    obtain ⟨s₁, hs₁, h₁⟩ := h.step hmax op
    obtain ⟨s₂, hs₂, h₂⟩ := ih h₁
    refine ⟨s₂, ?_, ?_⟩
    · rw [Machine.run_cons, hs₁, hs₂]
    · rw [Machine.outputs_cons, hs₁, ← List.append_assoc]
      exact h₂

end Accounted

/-- **The bounded queue**: whatever is pushed, popped, cleared and closed, the queue fits
its bound and is the newest part of what was accepted; what is popped is a subsequence of
the matching events pushed; and the counters add up to them. Which counter an event is in
depends on the overflow policy; every event that was offered is in exactly one place:
popped, queued, cleared, dropped or rejected. -/
theorem bounded_queue (filter : SubscriptionFilter) {maxQueue : Nat} (hmax : 1 ≤ maxQueue)
    (policy : EventOverflowPolicy) (cb : Option C) (ops : List QueueOp) :
    let s₀ : Subscription C :=
      { filter := filter, maxQueue := maxQueue, overflowPolicy := policy, callback := cb }
    let notes := Machine.outputs queueStep (some s₀) ops
    ∃ s, Machine.run queueStep (some s₀) ops = some s ∧
      s.queue.length ≤ maxQueue ∧
      List.Sublist (poppedEvents notes) (matchedBy s₀ notes) ∧
      s.delivered = (poppedEvents notes).length + clearedCount notes + s.queue.length
        + (if policy = .dropOldest then s.dropped else 0) ∧
      offeredTo s₀ notes = s.delivered + s.rejected
        + (if policy = .dropNewest then s.dropped else 0) ∧
      s.queue = (acceptedEvents notes).drop ((acceptedEvents notes).length - s.queue.length) := by
  intro s₀ notes
  obtain ⟨s, hrun, h⟩ := (Accounted.start filter maxQueue policy cb).run hmax ops
  have hpolicy : s.overflowPolicy = policy := h.policy
  have hdelivered := h.delivered
  have hoffered := h.offered
  rw [hpolicy] at hdelivered hoffered
  refine ⟨s, hrun, Nat.le_trans h.bounded (Nat.le_of_eq h.maxQueue), ?_, hdelivered, hoffered, ?_⟩
  · exact (List.sublist_append_left _ s.queue).trans (h.order.trans h.matched)
  · exact List.suffix_iff_eq_drop.mp h.newest

/-- Three events through a queue of two that drops the oldest, one of them popped. -/
theorem bounded_queue_overflows :
    let e (n : Nat) : PressureEvent := { id := n }
    let ops : List QueueOp := [.push (e 1), .push (e 2), .push (e 3), .tryPop, .close, .push (e 4)]
    let s₀ : Subscription Unit := { maxQueue := 2 }
    ∃ s, Machine.run queueStep (some s₀) ops = some s ∧
      poppedEvents (Machine.outputs queueStep (some s₀) ops) = [e 2] ∧ s.queue = [e 3] ∧
      s.delivered = 3 ∧ s.dropped = 1 ∧ s.queue.length ≤ 2 := by
  intro e ops s₀
  obtain ⟨s, hrun, hfits, -⟩ :=
    bounded_queue {} (by decide : 1 ≤ 2) .dropOldest (none : Option Unit) ops
  refine ⟨s, hrun, rfl, ?_, ?_, ?_, hfits⟩ <;> obtain rfl := Option.some.inj hrun <;> rfl

end MemoryPressure
