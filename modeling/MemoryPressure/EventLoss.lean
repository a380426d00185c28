import MemoryPressure.Session

/-!
# What a subscriber can tell about lost events (`runtime.cpp`, `core.cpp`)

Events are numbered through, a refresh delivers its batch in that order, and an
unfiltered subscription that drops its oldest events counts what it drops. So
its consumer can tell from the ids and counters alone what it missed.

- `InStep`: a subscription that was offered the events up to `seen`, all of them
  in order; kept by a push of the next event and by a pop.
- `Phase.pendingFor`: the events of the batch in progress not yet offered to it.
- `Tracks`: the subscription is in step up to these; kept by every turn but an
  exception that leaves some of them undelivered.
- `loss_observable_iff`: between refreshes the ids and counters account for every
  event produced exactly when no such exception happened.

**From one step to a session.** `Tracks.step` is the step lemma, with one case for each
kind of turn (`call`, `deliver`, `refresh`, and `calm` for the turns that leave the
delivery where it is); `Spared` is what it asks of a callback's exception. `Following`
adds the reports: how many events were `produced`, which the ids follow
(`eventId_step`) and the counts of the snapshots add up to (`produced_eq_counts`).

**Why the condition is exact.** An exception thrown while events are left for the
subscription ends the refresh with those events neither queued nor counted
(`Following.not_spared`), and nothing that happens later brings them back: the subscription
stays behind the number of events produced. `loss_unobservable` is such a session with two
subscribers, of which the other one throws.

The snapshot counts its batch modulo `2 ^ 32`; the statement asks that no refresh produce
that many events at once. What is followed are the events of refreshes. A push by user
code would put an event into the queue that no refresh numbered, and is no turn of a
session (`Session.lean`).
-/

namespace MemoryPressure

variable {F C : Type} [Double F]

/-! ## A subscription in step

With every event let through and the oldest dropped first, what is queued is the end of
the range of ids offered, and what was popped or dropped is the rest of it. -/

/-- The subscription was offered the events `1` to `seen`, in that order: of
these it queues the newest, and it counts those dropped. -/
structure InStep (sub : Subscription C) (popped : List PressureEvent) (seen : Nat) : Prop where
  unfiltered : sub.filter = {}
  room : 1 ≤ sub.maxQueue
  policy : sub.overflowPolicy = .dropOldest
  opened : sub.closed = false
  queued : sub.queue.map PressureEvent.id
    = List.range' (seen + 1 - sub.queue.length) sub.queue.length
  rising : ((popped ++ sub.queue).map PressureEvent.id).Pairwise (· < ·)
  below : ∀ e ∈ popped ++ sub.queue, e.id ≤ seen
  counted : sub.dropped + popped.length + sub.queue.length = seen

namespace InStep

variable {sub : Subscription C} {popped : List PressureEvent} {seen : Nat}

theorem start (cb : Option C) : InStep ({ callback := cb } : Subscription C) [] 0 where
  unfiltered := rfl
  room := (by decide : 1 ≤ 256)
  policy := rfl
  opened := rfl
  queued := rfl
  rising := List.Pairwise.nil
  below := fun e he => by cases he
  counted := rfl

/-- The next event is accepted, whatever makes room for it. -/
theorem accept (h : InStep sub popped seen) {e : PressureEvent} (he : e.id = seen + 1)
    (lost rest : List PressureEvent) (hqueue : sub.queue = lost ++ rest) :
    InStep (Subscription.accept
        { sub with queue := rest, dropped := sub.dropped + lost.length } e).1
      popped (seen + 1) := by
  have hcount := h.counted
  have hlen := congrArg List.length hqueue
  rw [List.length_append] at hlen
  have hkept : List.Sublist (popped ++ rest) (popped ++ sub.queue) := by
    rw [hqueue]
    exact List.Sublist.append_left (List.sublist_append_right lost rest) popped
  -- the ids of what is kept are the last of a range
  have hids : rest.map PressureEvent.id = List.range' (seen + 1 - rest.length) rest.length := by
    have hdrop := congrArg (List.drop lost.length) h.queued
    rw [hqueue, List.map_append, List.drop_left' (by rw [List.length_map]), List.drop_range',
      List.length_append] at hdrop
    rw [hdrop]
    congr 1 <;> omega
  refine ⟨h.unfiltered, h.room, h.policy, h.opened, ?_, ?_, ?_, ?_⟩
  · show (rest ++ [e]).map PressureEvent.id
      = List.range' (seen + 1 + 1 - (rest ++ [e]).length) (rest ++ [e]).length
    rw [List.map_append, hids, List.length_append, List.length_singleton, List.map_singleton, he,
      List.range'_concat]
    congr 2 <;> omega
  · show ((popped ++ (rest ++ [e])).map PressureEvent.id).Pairwise (· < ·)
    rw [← List.append_assoc, List.map_append, List.pairwise_append]
    refine ⟨h.rising.sublist (hkept.map _), List.pairwise_singleton _ _, ?_⟩
    intro a ha b hb
    obtain ⟨x, hx, rfl⟩ := List.mem_map.mp ha
    rw [List.map_singleton, List.mem_singleton] at hb
    have hle := h.below x (hkept.subset hx)
    omega
  · intro x hx
    change x ∈ popped ++ (rest ++ [e]) at hx
    rw [← List.append_assoc, List.mem_append, List.mem_singleton] at hx
    rcases hx with hold | rfl
    · exact Nat.le_succ_of_le (h.below x (hkept.subset hold))
    · exact Nat.le_of_eq he
  · show sub.dropped + lost.length + popped.length + (rest ++ [e]).length = seen + 1
    rw [List.length_append, List.length_singleton]
    omega

/-- **The next event is pushed**: an open, unfiltered subscription takes it. -/
theorem push (h : InStep sub popped seen) {e : PressureEvent} (he : e.id = seen + 1) :
    ∃ sub' cb, sub.push e = some (sub', true, cb) ∧ InStep sub' popped (seen + 1) := by
  have hmatch : sub.matchesEvent e = true := by
    rw [Subscription.matchesEvent, h.unfiltered]
    rfl
  obtain ⟨out, hpush, hout⟩ := sub.push_spec h.room e
  cases hout with
  | misses hmiss => exact absurd hmatch (by rw [hmiss]; decide)
  | closed _ hclosed => exact absurd hclosed (by rw [h.opened]; decide)
  | queued => exact ⟨_, _, hpush, h.accept he [] _ rfl⟩
  | rejected _ _ hpol => exact absurd hpol (by rw [h.policy]; decide)
  | droppedNew _ _ hpol => exact absurd hpol (by rw [h.policy]; decide)
  | droppedOld q rest _ _ _ hq => exact ⟨_, _, hpush, h.accept he [q] rest hq⟩

/-- **A pop** hands out the oldest queued event. -/
theorem pop (h : InStep sub popped seen) :
    InStep sub.tryPop.1 (popped ++ sub.tryPop.2.toList) seen := by
  unfold Subscription.tryPop
  cases hq : sub.queue with
  | nil => simpa using h
  | cons q rest =>
    have hqueued := h.queued
    have hcount := h.counted
    rw [hq, List.length_cons] at hqueued hcount
    rw [List.map_cons, List.range'_succ] at hqueued
    -- what was popped and what is queued are the same events in the same order
    have hsame : popped ++ [q] ++ rest = popped ++ sub.queue := by
      rw [hq, List.append_assoc]
      rfl
    refine ⟨h.unfiltered, h.room, h.policy, h.opened, ?_, ?_, ?_, ?_⟩
    · show rest.map PressureEvent.id = List.range' (seen + 1 - rest.length) rest.length
      rw [(List.cons.inj hqueued).2]
      congr 1
      omega
    · show ((popped ++ [q] ++ rest).map PressureEvent.id).Pairwise (· < ·)
      rw [hsame]
      exact h.rising
    · show ∀ e ∈ popped ++ [q] ++ rest, e.id ≤ seen
      rw [hsame]
      exact h.below
    · show sub.dropped + (popped ++ [q]).length + rest.length = seen
      rw [List.length_append, List.length_singleton]
      omega

theorem setCallback (h : InStep sub popped seen) (cb : Option C) :
    InStep (sub.setCallback cb) popped seen :=
  ⟨h.unfiltered, h.room, h.policy, h.opened, h.queued, h.rising, h.below, h.counted⟩

end InStep

/-! ## The batch in progress

In the middle of a delivery a subscription may already have been offered the event that
others still wait for. `Phase.waiting` are those it has not been offered to, so what is
pending for one subscription is read off the phase alone. -/

/-- The subscriptions the event in delivery has not been offered to. -/
def Phase.waiting : Phase → List Nat
  | .idle | .between _ => []
  | .offering d | .calling _ d => d.subscriptions

/-- The events of the batch in progress that subscription `n` has not been
offered. -/
def Phase.pendingFor (n : Nat) : Phase → List PressureEvent
  | .idle => []
  | .between events => events
  | .offering d | .calling _ d => (if n ∈ d.subscriptions then [d.event] else []) ++ d.events

/-- The subscription a call closes or clears. -/
def Call.empties : Call F C → Option Nat
  | .close n | .clear n => some n
  | _ => none

/-- The turn neither closes nor clears subscription `n`. -/
def Turn.keeps (n : Nat) : Turn F C → Prop
  | .call c => c.1.empties ≠ some n
  | _ => True

/-- The providers throw at most `std::exception`. -/
def Turn.completes : Turn F C → Prop
  | .refresh _ polls => Completes polls
  | _ => True

instance (n : Nat) (turn : Turn F C) : Decidable (turn.keeps n) :=
  match turn with
  | .call c => inferInstanceAs (Decidable (c.1.empties ≠ some n))
  | .setPolicy _ | .refresh _ _ | .deliver | .callbackReturns | .callbackThrows =>
    inferInstanceAs (Decidable True)

instance (turn : Turn F C) : Decidable turn.completes :=
  match turn with
  | .refresh _ polls => inferInstanceAs (Decidable (Completes polls))
  | .setPolicy _ | .call _ | .deliver | .callbackReturns | .callbackThrows =>
    inferInstanceAs (Decidable True)

/-- The turn is the exception of a callback. -/
def Turn.throws : Turn F C → Bool
  | .callbackThrows => true
  | _ => false

/-- The subscription whose callback is running. -/
def Phase.caller : Phase → Option Nat
  | .calling m _ => some m
  | _ => none

/-- A callback that throws does so when subscription `n` has been offered the
whole batch. -/
def Spared (n : Nat) (s : Session F C) (turn : Turn F C) : Prop :=
  turn.throws = true → s.phase.caller.isSome = true → s.phase.pendingFor n = []

instance (n : Nat) (s : Session F C) (turn : Turn F C) : Decidable (Spared n s turn) :=
  inferInstanceAs (Decidable (_ → _ → _ = _))

/-- Subscription `n` is in step but for the events of the batch in progress that
it has not been offered. -/
structure Tracks (n : Nat) (s : Session F C) (popped : List PressureEvent) : Prop where
  once : s.phase.waiting.Nodup
  inStep : ∃ sub seen, s.subscriptions[n]? = some sub ∧ InStep sub popped seen ∧
    (s.phase.pendingFor n).map PressureEvent.id
      = List.range' (seen + 1) (s.phase.pendingFor n).length ∧
    seen + (s.phase.pendingFor n).length = s.rt.eventId

theorem stampIds_ids (nextId : Nat) (es : List PressureEvent) :
    (stampIds nextId es).map PressureEvent.id = List.range' (nextId + 1) es.length := by
  induction es generalizing nextId with
  | nil => rfl
  | cons e es ih =>
    rw [stampIds, List.map_cons, ih, List.length_cons, List.range'_succ]

namespace Tracks

variable {n : Nat} {s : Session F C} {popped : List PressureEvent}

/-- What a turn does that leaves the delivery where it is. -/
theorem calm (h : Tracks n s popped) {s' : Session F C} (more : List PressureEvent)
    (hphase : s'.phase = s.phase) (hevent : s'.rt.eventId = s.rt.eventId)
    (hsub : ∀ sub seen, s.subscriptions[n]? = some sub → InStep sub popped seen →
      ∃ sub', s'.subscriptions[n]? = some sub' ∧ InStep sub' (popped ++ more) seen) :
    Tracks n s' (popped ++ more) := by
  obtain ⟨sub, seen, hget, hin, hids, hcount⟩ := h.inStep
  obtain ⟨sub', hget', hin'⟩ := hsub sub seen hget hin
  refine ⟨hphase ▸ h.once, sub', seen, hget', hin', ?_, ?_⟩
  · rw [hphase]
    exact hids
  · rw [hphase, hevent]
    exact hcount

/-- The delivery goes on without subscription `n` being offered anything. -/
theorem move (h : Tracks n s popped) {s' : Session F C} (hrt : s'.rt = s.rt)
    (hsub : s'.subscriptions[n]? = s.subscriptions[n]?) (honce : s'.phase.waiting.Nodup)
    (hpending : s'.phase.pendingFor n = s.phase.pendingFor n) : Tracks n s' popped := by
  obtain ⟨sub, seen, hget, hin, hids, hcount⟩ := h.inStep
  refine ⟨honce, sub, seen, hsub ▸ hget, hin, ?_, ?_⟩
  · rw [hpending]
    exact hids
  · rw [hpending, hrt]
    exact hcount

/-- A call of one scope. -/
theorem call (h : Tracks n s popped) {c : ScopedCall F C} (hkeeps : (Turn.call c).keeps n) :
    Tracks n (s.step (.call c)).1 (popped ++ poppedFrom n (s.step (.call c)).2) := by
  obtain ⟨c, hscope⟩ := c
  have hquiet : ∀ {s' : Session F C}, s'.phase = s.phase → s'.rt.eventId = s.rt.eventId →
      s'.subscriptions = s.subscriptions → Tracks n s' (popped ++ []) := fun hp he hs =>
    h.calm [] hp he fun sub seen hget hin => ⟨sub, hs ▸ hget, by rwa [List.append_nil]⟩
  cases c with
  | setPolicy | refresh | push => cases hscope
  | registerProvider | clearBudget | setHistoryLimit | currentPolicy | currentSnapshot
  | snapshotById | query | admitBytes | pending | closed => exact hquiet rfl rfl rfl
  | setBudget id b =>
    have hevent := congrArg PressureRuntime.eventId (s.rt.setBudget_eq id b)
    exact hquiet rfl hevent rfl
  | subscribe filter cb =>
    refine h.calm [] rfl rfl fun sub seen hget hin => ⟨sub, ?_, by rwa [List.append_nil]⟩
    show (s.subscriptions ++ [_])[n]? = some sub
    rw [List.getElem?_append_left (List.getElem?_eq_some_iff.mp hget).1, hget]
  | tryPop m =>
    refine h.calm _ rfl rfl ?_
    intro sub seen hget hin
    refine ⟨_, subscription_modify hget m _, ?_⟩
    show InStep _ (popped ++ poppedFrom n (s.toShared.pops (.tryPop m))) seen
    rw [poppedFrom_pops hget]
    split_ifs
    · exact hin.pop
    · rwa [List.append_nil]
  | setCallback m cb =>
    refine h.calm [] rfl rfl ?_
    intro sub seen hget hin
    refine ⟨_, subscription_modify hget m _, ?_⟩
    rw [List.append_nil]
    split_ifs
    · exact hin.setCallback cb
    · exact hin
  | close m | clear m =>
    have hm : m ≠ n := by
      rintro rfl
      exact hkeeps rfl
    refine h.calm [] rfl rfl fun sub seen hget hin => ⟨sub, ?_, by rwa [List.append_nil]⟩
    exact (subscription_modify hget m _).trans (congrArg some (if_neg hm))

/-- The next event is offered to the next subscription. -/
theorem offer (h : Tracks n s popped) {d : Delivery} (hphase : s.phase = .offering d) {m : Nat}
    {ns : List Nat} (hsubs : d.subscriptions = m :: ns) {sub sub' : Subscription C} {ok : Bool}
    {cb : Option C} (hget : s.subscriptions[m]? = some sub)
    (hpush : sub.push d.event = some (sub', ok, cb)) {phase : Phase}
    (hnext : phase.waiting = ns ∧
      phase.pendingFor n = (if n ∈ ns then [d.event] else []) ++ d.events) :
    Tracks n ((s.withShared (s.toShared.updateSubscription m fun _ => sub')).inPhase phase)
      popped := by
  have honce := h.once
  rw [hphase, Phase.waiting, hsubs, List.nodup_cons] at honce
  have hmodify : ((s.withShared (s.toShared.updateSubscription m fun _ => sub')).inPhase
      phase).subscriptions[n]? = (s.subscriptions.modify m fun _ => sub')[n]? := rfl
  by_cases hm : m = n
  · subst hm
    -- it is offered the first of the events it still waits for
    obtain ⟨mine, seen, hmine, hin, hids, hcount⟩ := h.inStep
    obtain rfl : mine = sub := Option.some.inj (hmine.symm.trans hget)
    have hpending : s.phase.pendingFor m = d.event :: d.events := by
      rw [hphase, Phase.pendingFor, hsubs]
      simp
    rw [hpending, List.map_cons, List.length_cons, List.range'_succ] at hids
    rw [hpending, List.length_cons] at hcount
    obtain ⟨hid, hrest⟩ := List.cons.inj hids
    obtain ⟨sub₁, cb₁, hpush₁, hin₁⟩ := hin.push hid
    obtain ⟨rfl, -⟩ := Prod.mk.inj (Option.some.inj (hpush.symm.trans hpush₁))
    have hleft : phase.pendingFor m = d.events := by
      rw [hnext.2, if_neg honce.1, List.nil_append]
    refine ⟨hnext.1 ▸ honce.2, sub', seen + 1, ?_, hin₁, ?_, ?_⟩
    · rw [hmodify, List.getElem?_modify, hget]
      simp
    · show (phase.pendingFor m).map PressureEvent.id
        = List.range' (seen + 1 + 1) (phase.pendingFor m).length
      rw [hleft, hrest]
    · show seen + 1 + (phase.pendingFor m).length = s.rt.eventId
      rw [hleft]
      omega
  · refine h.move rfl ?_ (hnext.1 ▸ honce.2) ?_
    · rw [hmodify, List.getElem?_modify]
      simp [hm]
    · show phase.pendingFor n = s.phase.pendingFor n
      rw [hnext.2, hphase, Phase.pendingFor, hsubs]
      simp [Ne.symm hm]

/-- One step of the delivery loop. -/
theorem deliver (h : Tracks n s popped) : Tracks n s.deliver popped := by
  unfold Session.deliver
  cases hphase : s.phase with
  | idle | calling => exact h
  | between events =>
    cases events with
    | nil => exact h.move rfl rfl List.nodup_nil (by rw [hphase]; rfl)
    | cons e events =>
      refine h.move rfl rfl List.nodup_range ?_
      obtain ⟨sub, seen, hget, -⟩ := h.inStep
      have hlt : n < s.subscriptions.length := (List.getElem?_eq_some_iff.mp hget).1
      rw [hphase]
      simp [Phase.pendingFor, hlt]
  | offering d =>
    dsimp only
    cases hsubs : d.subscriptions with
    | nil =>
      refine h.move rfl rfl List.nodup_nil ?_
      rw [hphase]
      simp [Phase.pendingFor, hsubs]
    | cons m ns =>
      dsimp only
      cases hget : s.subscriptions[m]? with
      | none => exact h
      | some sub =>
        dsimp only
        split_ifs with hclosed
        · -- a closed subscription is not the one that is tracked
          have hm : m ≠ n := by
            rintro rfl
            obtain ⟨mine, seen, hmine, hin, -⟩ := h.inStep
            obtain rfl : mine = sub := Option.some.inj (hmine.symm.trans hget)
            rw [hin.opened] at hclosed
            cases hclosed
          have honce := h.once
          rw [hphase, Phase.waiting, hsubs, List.nodup_cons] at honce
          refine h.move rfl rfl honce.2 ?_
          rw [hphase]
          simp [Phase.pendingFor, hsubs, Ne.symm hm]
        · cases hpush : sub.push d.event with
          | none => exact h
          | some out =>
            obtain ⟨sub', ok, cb⟩ := out
            refine h.offer hphase hsubs hget hpush ?_
            by_cases hcb : cb.isSome = true
            · rw [if_pos hcb]
              exact ⟨rfl, rfl⟩
            · rw [if_neg hcb]
              exact ⟨rfl, rfl⟩

/-- A refresh that completes starts to deliver the events that come next. -/
theorem refresh (h : Tracks n s popped) {nowMs : UInt64} {polls : List (Poll F)}
    (hcompletes : Completes polls) : Tracks n (s.step (.refresh nowMs polls)).1 popped := by
  cases hphase : s.phase with
  | idle =>
    obtain ⟨sub, seen, hget, hin, -, hcount⟩ := h.inStep
    rw [hphase] at hcount
    have hseen : seen = s.rt.eventId := hcount
    rcases s.rt.refresh_cases nowMs polls with ⟨log, hlog⟩ | ⟨hnc, -⟩
    · simp only [Session.step, hphase, hlog.refresh_eq]
      refine ⟨List.nodup_nil, sub, seen, hget, hin, ?_, ?_⟩
      · show (stampIds s.rt.eventId _).map PressureEvent.id = _
        rw [stampIds_ids, hseen]
        show _ = List.range' _ (stampIds s.rt.eventId _).length
        rw [length_stampIds]
      · rw [hseen]
        rfl
    · exact absurd hcompletes hnc
  | _ =>
    simp only [Session.step, hphase]
    exact h

/-- **A turn keeps the subscription in step** unless it throws while events are
left for it. -/
theorem step (h : Tracks n s popped) {turn : Turn F C} (hkeeps : turn.keeps n)
    (hcompletes : turn.completes) (hspared : Spared n s turn) :
    Tracks n (s.step turn).1 (popped ++ poppedFrom n (s.step turn).2) := by
  cases turn with
  | call c => exact h.call hkeeps
  | deliver =>
    show Tracks n s.deliver (popped ++ [])
    rw [List.append_nil]
    exact h.deliver
  | refresh nowMs polls =>
    have hnone : poppedFrom n (s.step (.refresh nowMs polls)).2 = [] := by
      cases hphase : s.phase <;> simp only [Session.step, hphase]
      · exact poppedFrom_published n _
      all_goals rfl
    rw [hnone, List.append_nil]
    exact h.refresh hcompletes
  | setPolicy p =>
    cases hphase : s.phase <;> simp only [Session.step, hphase]
    · have hevent := congrArg PressureRuntime.eventId (s.rt.setPolicy_eq p)
      refine h.calm [] rfl hevent fun sub seen hget hin => ⟨sub, hget, ?_⟩
      rwa [List.append_nil]
    all_goals
      rw [poppedFrom, List.filterMap_nil, List.append_nil]
      exact h
  | callbackReturns =>
    cases hphase : s.phase <;> simp only [Session.step, hphase] <;>
      rw [poppedFrom, List.filterMap_nil, List.append_nil]
    case calling m d =>
      have honce := h.once
      rw [hphase] at honce
      exact h.move rfl rfl honce (by rw [hphase]; rfl)
    all_goals exact h
  | callbackThrows =>
    cases hphase : s.phase <;> simp only [Session.step, hphase] <;>
      rw [poppedFrom, List.filterMap_nil, List.append_nil]
    case calling m d =>
      exact h.move rfl rfl List.nodup_nil (hspared rfl (by rw [hphase]; rfl)).symm
    all_goals exact h

end Tracks

/-! ## What is produced

The event counter, the ids of the events and the counts in the snapshots are three records
of one number. A refresh that is cut short has taken ids for events it never publishes;
the sessions here have no such refresh (`Turn.completes`). -/

/-- How many events were produced. -/
def produced (reports : List (Report F)) : Nat :=
  ((publishedIn reports).map fun pub => pub.events.length).sum

@[simp] theorem produced_append (as bs : List (Report F)) :
    produced (as ++ bs) = produced as + produced bs := by
  rw [produced, publishedIn_append, List.map_append, List.sum_append]
  rfl

/-- The event counter counts what is produced. -/
theorem eventId_step {s : Session F C} {turn : Turn F C} (hcompletes : turn.completes) :
    (s.step turn).1.rt.eventId = s.rt.eventId + produced (s.step turn).2 := by
  cases turn with
  | call c =>
    have hnone : produced (s.step (.call c)).2 = 0 := by
      show ((publishedIn (s.toShared.pops c.1)).map _).sum = 0
      rw [publishedIn_pops]
      rfl
    rw [hnone]
    obtain ⟨c, hscope⟩ := c
    cases c with
    | setBudget id b =>
      have hevent := congrArg PressureRuntime.eventId (s.rt.setBudget_eq id b)
      exact hevent
    | _ => rfl
  | deliver => exact congrArg PressureRuntime.eventId Session.deliver_rt
  | setPolicy p =>
    cases hphase : s.phase <;> simp only [Session.step, hphase]
    · have hevent := congrArg PressureRuntime.eventId (s.rt.setPolicy_eq p)
      exact hevent
    all_goals rfl
  | refresh nowMs polls =>
    cases hphase : s.phase <;> simp only [Session.step, hphase]
    · rcases s.rt.refresh_cases nowMs polls with ⟨log, hlog⟩ | ⟨hnc, -⟩
      · rw [hlog.refresh_eq]
        rfl
      · exact absurd hcompletes hnc
    all_goals rfl
  | callbackReturns | callbackThrows =>
    cases hphase : s.phase <;> simp only [Session.step, hphase] <;> rfl

/-- The ids and counters of subscription `n` account for every event produced:
what was popped and what is queued ascends, the queued ids are consecutive and
end at the number of events produced, and the rest was dropped and counted. -/
def AccountsFor (n : Nat) (s : Session F C) (reports : List (Report F)) : Prop :=
  ∃ sub, s.subscriptions[n]? = some sub ∧
    ((poppedFrom n reports ++ sub.queue).map PressureEvent.id).Pairwise (· < ·) ∧
    sub.queue.map PressureEvent.id
      = List.range' (produced reports + 1 - sub.queue.length) sub.queue.length ∧
    sub.dropped + (poppedFrom n reports).length + sub.queue.length = produced reports

/-- Loss is observable: they account for every event produced, and the counts of
the published snapshots add up to it. -/
def LossObservable (n : Nat) (s : Session F C) (reports : List (Report F)) : Prop :=
  AccountsFor n s reports ∧
    produced reports
      = ((publishedIn reports).map fun pub => pub.snapshot.events.count.toNat).sum

/-- A published snapshot counts its batch, modulo `2 ^ 32`. -/
theorem count_published {s : Session F C} {turns : List (Turn F C)} :
    ∀ pub ∈ publishedIn (s.reports turns),
      pub.snapshot.events.count = UInt32.ofNat pub.events.length := by
  intro pub hpub
  rw [(Session.run_runtime s turns).2] at hpub
  obtain ⟨before, op, -, -, hout⟩ := Machine.exists_step_of_mem_outputs step hpub
  obtain ⟨nowMs, polls, log, rfl, -, rfl⟩ := step_publishes hout
  show UInt32.ofNat _ = UInt32.ofNat (stampIds _ _).length
  rw [length_stampIds]

/-- The counts of the snapshots add up to the events produced, unless a refresh
produces `2 ^ 32` of them. -/
theorem produced_eq_counts {s : Session F C} {turns : List (Turn F C)}
    (hfew : ∀ pub ∈ publishedIn (s.reports turns), pub.events.length < 2 ^ 32) :
    produced (s.reports turns)
      = ((publishedIn (s.reports turns)).map fun pub => pub.snapshot.events.count.toNat).sum := by
  unfold produced
  congr 1
  refine List.map_congr_left ?_
  intro pub hpub
  rw [count_published pub hpub]
  exact (UInt32.toNat_ofNat_of_lt (hfew pub hpub)).symm

/-! ## Runs

Up to the first refresh a session makes no events, so that a subscription made by then
starts in step (`Unstarted`). From there on it follows, or has lost an event for good. -/

/-- Subscription `n` is in step with what the run produced. -/
structure Following (n : Nat) (x : Session F C × List (Report F)) : Prop where
  tracks : Tracks n x.1 (poppedFrom n x.2)
  counter : x.1.rt.eventId = produced x.2

/-- Between refreshes a subscription in step accounts for everything. -/
theorem Following.accountsFor {n : Nat} {x : Session F C × List (Report F)} (h : Following n x)
    (hidle : x.1.phase = .idle) : AccountsFor n x.1 x.2 := by
  obtain ⟨sub, seen, hget, hin, -, hcount⟩ := h.tracks.inStep
  rw [hidle, h.counter] at hcount
  obtain rfl : seen = produced x.2 := hcount
  exact ⟨sub, hget, hin.rising, hin.queued, hin.counted⟩

theorem Following.step {n : Nat} {x : Session F C × List (Report F)} (h : Following n x)
    {turn : Turn F C} (hkeeps : turn.keeps n) (hcompletes : turn.completes)
    (hspared : Spared n x.1 turn) :
    Following n (Machine.traced Session.step x turn).1 where
  tracks := by
    show Tracks n (x.1.step turn).1 (poppedFrom n (x.2 ++ (x.1.step turn).2))
    rw [poppedFrom_append]
    exact h.tracks.step hkeeps hcompletes hspared
  counter := by
    show (x.1.step turn).1.rt.eventId = produced (x.2 ++ (x.1.step turn).2)
    rw [produced_append, eventId_step hcompletes, h.counter]

/-- **An exception loses events without a trace**: thrown while events are left
for a subscription, it ends the refresh with those events neither queued nor
counted. -/
theorem Following.not_spared {n : Nat} {x : Session F C × List (Report F)} (h : Following n x)
    {turn : Turn F C} (hspared : ¬ Spared n x.1 turn) :
    (Machine.traced Session.step x turn).1.1.phase = .idle ∧
      ¬ AccountsFor n (Machine.traced Session.step x turn).1.1
        (Machine.traced Session.step x turn).1.2 := by
  obtain ⟨s, out⟩ := x
  unfold Spared at hspared
  push Not at hspared
  obtain ⟨hthrows, hcaller, hleft⟩ := hspared
  obtain ⟨sub, seen, hget, hin, -, hcount⟩ := h.tracks.inStep
  have hlost : 0 < (s.phase.pendingFor n).length := List.length_pos_of_ne_nil hleft
  have hcounter : s.rt.eventId = produced out := h.counter
  cases turn with
  | callbackThrows =>
    cases hphase : s.phase with
    | calling m d =>
      have hstep : Machine.traced Session.step (s, out) .callbackThrows
          = ((s.inPhase .idle, out ++ []), []) := by
        simp only [Machine.traced, Session.step, hphase]
      rw [hstep, List.append_nil]
      refine ⟨rfl, ?_⟩
      rintro ⟨sub', hget', -, -, hsum⟩
      obtain rfl : sub = sub' := Option.some.inj (hget.symm.trans hget')
      have hcounted := hin.counted
      dsimp only at hcount hcounted hsum
      omega
    | _ =>
      dsimp only at hcaller
      rw [hphase] at hcaller
      cases hcaller
  | _ => cases hthrows

/-- The turn is a refresh. -/
def Turn.refreshes : Turn F C → Bool
  | .refresh _ _ => true
  | _ => false

/-- What holds before the first refresh. -/
structure Unstarted (x : Session F C × List (Report F)) : Prop where
  idle : x.1.phase = .idle
  counter : x.1.rt.eventId = 0
  silent : publishedIn x.2 = []
  known : ∀ m e, .popped m e ∈ x.2 → m < x.1.subscriptions.length

theorem Unstarted.step {x : Session F C × List (Report F)} (h : Unstarted x) {turn : Turn F C}
    (hturn : turn.refreshes = false) : Unstarted (Machine.traced Session.step x turn).1 := by
  obtain ⟨s, out⟩ := x
  have hidle : s.phase = .idle := h.idle
  have hcompletes : turn.completes := by
    cases turn with
    | refresh => cases hturn
    | _ => trivial
  have hsilent : publishedIn (s.step turn).2 = [] := by
    cases turn with
    | refresh => cases hturn
    | call c => exact publishedIn_pops _ _
    | setPolicy | deliver | callbackReturns | callbackThrows =>
      simp [Session.step, hidle, publishedIn]
  refine ⟨?_, ?_, ?_, fun m e he => ?_⟩
  · show (s.step turn).1.phase = .idle
    cases turn with
    | refresh => cases hturn
    | call c => exact hidle
    | setPolicy | deliver | callbackReturns | callbackThrows =>
      simp [Session.step, Session.deliver, hidle]
  · show (s.step turn).1.rt.eventId = 0
    rw [eventId_step hcompletes, produced, hsilent]
    exact h.counter
  · show publishedIn (out ++ (s.step turn).2) = []
    rw [publishedIn_append, hsilent, List.append_nil]
    exact h.silent
  · refine Nat.lt_of_lt_of_le ?_ (Session.length_le_step turn)
    rcases List.mem_append.mp he with hold | hnew
    · exact h.known m e hold
    · cases turn with
      | refresh => cases hturn
      | call c =>
        obtain ⟨c, hscope⟩ := c
        change Report.popped m e ∈ s.toShared.pops c at hnew
        cases c with
        | tryPop k =>
          obtain ⟨e', he', heq⟩ := List.mem_map.mp hnew
          obtain ⟨rfl, -⟩ := Report.popped.inj heq
          rw [Option.mem_toList, Option.bind_eq_some_iff] at he'
          obtain ⟨sub, hget, -⟩ := he'
          exact (List.getElem?_eq_some_iff.mp hget).1
        | _ => cases hnew
      | setPolicy | deliver | callbackReturns | callbackThrows =>
        simp [Session.step, hidle] at hnew

/-- A subscription made before the first refresh starts in step. -/
theorem Unstarted.subscribe {x : Session F C × List (Report F)} (h : Unstarted x) (cb : Option C) :
    Following x.1.subscriptions.length
      (Machine.traced Session.step x (.call ⟨.subscribe {} cb, rfl⟩)).1 := by
  obtain ⟨s, out⟩ := x
  have hidle : s.phase = .idle := h.idle
  have hnone : poppedFrom s.subscriptions.length (out ++ ([] : List (Report F))) = [] := by
    rw [List.append_nil]
    refine List.filterMap_eq_nil_iff.mpr ?_
    intro report hreport
    cases report with
    | published pub => rfl
    | popped m e => exact if_neg (Nat.ne_of_lt (h.known m e hreport))
  have hget : (s.subscriptions ++ [({ filter := {}, callback := cb } : Subscription C)])[
      s.subscriptions.length]? = some { callback := cb } := by simp
  refine ⟨⟨?_, _, 0, hget, ?_, ?_, ?_⟩, ?_⟩
  · show s.phase.waiting.Nodup
    rw [hidle]
    exact List.nodup_nil
  · show InStep _ (poppedFrom s.subscriptions.length (out ++ ([] : List (Report F)))) 0
    rw [hnone]
    exact .start cb
  · show (s.phase.pendingFor _).map _ = _
    rw [hidle]
    show [] = List.range' 1 (s.phase.pendingFor _).length
    rw [hidle]
    rfl
  · show 0 + (s.phase.pendingFor _).length = s.rt.eventId
    rw [hidle]
    exact h.counter.symm
  · show s.rt.eventId = produced (out ++ [])
    rw [List.append_nil, produced, h.silent]
    exact h.counter

/-- Nothing is produced before the first refresh. -/
theorem unstarted_run {pre : List (Turn F C)} (hpre : ∀ turn ∈ pre, turn.refreshes = false) :
    Unstarted (Session.runFrom {} pre, Session.reports {} pre) := by
  have hrun := Machine.run_traced Session.step ({} : Session F C) [] pre
  rw [List.nil_append] at hrun
  rw [← hrun]
  refine Machine.run_invariant (Machine.traced Session.step) (I := Unstarted)
    (fun x turn hturn h => h.step (hpre turn hturn)) ⟨rfl, rfl, rfl, fun m e he => ?_⟩
  cases he

/-- **Event loss is observable, exactly when**: an unfiltered subscription made
before the first refresh, never closed or cleared, accounts between refreshes
for every event produced if and only if no callback throws while events of the
batch in progress are left for it. -/
theorem loss_observable_iff (pre : List (Turn F C)) (hpre : ∀ turn ∈ pre, turn.refreshes = false)
    (cb : Option C) (turns : List (Turn F C))
    (hkeeps : ∀ turn ∈ turns, turn.keeps (Session.runFrom {} pre).subscriptions.length)
    (hcompletes : ∀ turn ∈ turns, turn.completes)
    (hfew : ∀ pub ∈ publishedIn
        (Session.reports {} (pre ++ .call ⟨.subscribe {} cb, rfl⟩ :: turns)),
      pub.events.length < 2 ^ 32) :
    (∀ mid post, turns = mid ++ post →
        (Session.runFrom {} (pre ++ .call ⟨.subscribe {} cb, rfl⟩ :: mid)).phase = .idle →
        LossObservable (Session.runFrom {} pre).subscriptions.length
          (Session.runFrom {} (pre ++ .call ⟨.subscribe {} cb, rfl⟩ :: mid))
          (Session.reports {} (pre ++ .call ⟨.subscribe {} cb, rfl⟩ :: mid)))
      ↔ Machine.Along Session.step (Spared (Session.runFrom {} pre).subscriptions.length)
          (Session.runFrom {} (pre ++ [.call ⟨.subscribe {} cb, rfl⟩])) turns := by
  generalize hn : (Session.runFrom {} pre).subscriptions.length = n at hkeeps ⊢
  generalize hsub : (Turn.call ⟨.subscribe {} cb, rfl⟩ : Turn F C) = sub at hfew ⊢
  -- the session with its reports, from the subscription on
  have hstart : Following n
      (Session.runFrom {} (pre ++ [sub]), Session.reports {} (pre ++ [sub])) := by
    have hmade := (unstarted_run hpre).subscribe cb
    rw [hsub, hn] at hmade
    rwa [Session.runFrom, Session.reports, Machine.run_append, Machine.outputs_append,
      Machine.outputs_cons, Machine.outputs_nil, List.append_nil]
  have hat : ∀ mid, Machine.run (Machine.traced Session.step)
        (Session.runFrom {} (pre ++ [sub]), Session.reports {} (pre ++ [sub])) mid
      = (Session.runFrom {} (pre ++ sub :: mid), Session.reports {} (pre ++ sub :: mid)) := by
    intro mid
    have hsplit : pre ++ sub :: mid = (pre ++ [sub]) ++ mid := by rw [List.append_assoc]; rfl
    rw [Machine.run_traced, hsplit]
    exact Prod.ext (Machine.run_append ..).symm (Machine.outputs_append ..).symm
  have hiff := Machine.checkpoints_iff_along (Machine.traced Session.step)
    (I := Following n) (Q := fun x turn => Spared n x.1 turn)
    (s := (Session.runFrom {} (pre ++ [sub]), Session.reports {} (pre ++ [sub]))) turns
    (fun x h hidle => h.accountsFor hidle)
    (fun x turn hturn h hspared => h.step (hkeeps turn hturn) (hcompletes turn hturn) hspared)
    (fun x turn _ h hspared => h.not_spared hspared) hstart
  rw [Machine.along_traced] at hiff
  rw [← hiff]
  refine forall_congr' fun mid => forall_congr' fun post => forall_congr' fun heq => ?_
  rw [hat mid]
  refine imp_congr_right fun _ =>
    ⟨fun h => h.1, fun h => ⟨h, produced_eq_counts fun pub hpub => ?_⟩⟩
  refine hfew pub ?_
  have hsplit : pre ++ sub :: turns = (pre ++ sub :: mid) ++ post := by
    rw [heq, List.append_assoc]
    rfl
  rw [hsplit, Session.reports, Machine.outputs_append, publishedIn_append]
  exact List.mem_append_left _ hpub

/-- A host appears and another subscriber is called back on its first event. -/
def hostAnnounced (another : Option Unit) : List (Turn ℚ Unit) :=
  [.call ⟨.registerProvider "host", rfl⟩,
    .refresh 1000 [{ name := "host", outcome := .returned { observations :=
      [{ id := { high := 0, low := 1 }, type := .hostMemory, totalCapacity := 100,
         committed := 30 }] } }],
    .call ⟨.setCallback 0 another, rfl⟩, .deliver, .deliver]

/-- The first subscriber has no callback: the second is offered every event, pops
one and keeps the other. -/
theorem loss_observable_polled :
    let pre : List (Turn ℚ Unit) := [.call ⟨.subscribe {} none, rfl⟩]
    let turns := hostAnnounced none ++ [.deliver, .deliver, .call ⟨.tryPop 1, rfl⟩, .deliver,
      .deliver, .deliver, .deliver, .deliver]
    let run := pre ++ .call ⟨.subscribe {} none, rfl⟩ :: turns
    (Session.runFrom {} run).phase = .idle ∧ produced (Session.reports {} run) = 2 ∧
      LossObservable 1 (Session.runFrom {} run) (Session.reports {} run) := by
  intro pre turns run
  have hidle : (Session.runFrom {} run).phase = .idle := by decide +kernel
  have hall := (loss_observable_iff pre (by decide) none turns (by decide +kernel)
    (by decide +kernel) (by decide +kernel)).mpr (by decide +kernel)
  exact ⟨hidle, by decide +kernel, hall turns [] (List.append_nil turns).symm hidle⟩

/-- **Not always**: the callback of the first subscriber throws on the first
event. The second, which has none, has no trace of the two events produced. -/
theorem loss_unobservable :
    let turns : List (Turn ℚ Unit) := [.call ⟨.subscribe {} none, rfl⟩,
      .call ⟨.subscribe {} none, rfl⟩] ++ hostAnnounced (some ()) ++ [.callbackThrows]
    Machine.Along Session.step
        (fun s turn => turn.throws = true → s.phase.caller ≠ some 1) {} turns ∧
      (∀ turn ∈ turns, turn.keeps 1 ∧ turn.completes) ∧
      (Session.runFrom {} turns).phase = .idle ∧ produced (Session.reports {} turns) = 2 ∧
      ((Session.runFrom {} turns).subscriptions[1]?.map fun sub => (sub.queue, sub.dropped))
        = some ([], 0) ∧
      ¬ LossObservable 1 (Session.runFrom {} turns) (Session.reports {} turns) := by
  intro turns
  have hproduced : produced (Session.reports {} turns) = 2 := by decide +kernel
  have hpopped : (poppedFrom 1 (Session.reports {} turns)).length = 0 := by decide +kernel
  have hsub : ((Session.runFrom {} turns).subscriptions[1]?.map fun sub => (sub.queue, sub.dropped))
      = some ([], 0) := by decide +kernel
  refine ⟨by decide +kernel, by decide +kernel, by decide +kernel, hproduced, hsub, ?_⟩
  rintro ⟨⟨sub, hget, -, -, hsum⟩, -⟩
  rw [hget] at hsub
  obtain ⟨hqueue, hdropped⟩ := Prod.mk.inj (Option.some.inj hsub)
  rw [hproduced, hpopped, hqueue, hdropped] at hsum
  cases hsum

end MemoryPressure
