import MemoryPressure.BoundedQueue

/-!
# Queues of any bound, none included (`core.cpp`)

`bounded_queue` is about queues with room for an event. The constructor takes any
bound, and a full queue that drops its oldest event pops the front before it pushes;
with a bound of 0 the full queue is empty.

- `WithinBound.step`, `popsEmpty_iff`: a call keeps the bound, but for the push that
  is undefined, and when it is.
- `queue_bounded_iff`: the runs of which every call is defined and keeps the bound.

`pop_front` of an empty deque has no defined result in C++, and the model has none for
the call either: `queueStep` stops, and a run is over there. Whether that happens is told
from what is pushed before the first close (`openPart`), since a closed subscription
returns before it makes room. `WithinBound` keeps what the condition speaks of, filter,
bound and overflow policy, which no call changes, next to the bound itself.

Subscriptions that a runtime makes have a bound of 256 (runtime.cpp:136), so the undefined
push is one of a subscription that user code constructs itself.
-/

namespace MemoryPressure

variable {C : Type}

/-- The call is `close`. -/
def QueueOp.isClose : QueueOp → Bool
  | .close => true
  | _ => false

/-- The part of a run before the first close. -/
def openPart (ops : List QueueOp) : List QueueOp := ops.takeWhile fun op => !op.isClose

theorem openPart_cons_of_close {op : QueueOp} (h : op.isClose = true) (ops : List QueueOp) :
    openPart (op :: ops) = [] := by
  rw [openPart, List.takeWhile_cons_of_neg (by simp [h])]

theorem openPart_cons {op : QueueOp} (h : op.isClose = false) (ops : List QueueOp) :
    openPart (op :: ops) = op :: openPart ops := by
  rw [openPart, List.takeWhile_cons_of_pos (by simp [h]), openPart]

/-- What stays of a subscription that started as `s₀`. -/
structure WithinBound (s₀ s : Subscription C) : Prop where
  filter : s.filter = s₀.filter
  maxQueue : s.maxQueue = s₀.maxQueue
  policy : s.overflowPolicy = s₀.overflowPolicy
  bounded : s.queue.length ≤ s.maxQueue

namespace WithinBound

variable {s₀ s : Subscription C}

theorem matchesEvent_eq (h : WithinBound s₀ s) (e : PressureEvent) :
    s.matchesEvent e = s₀.matchesEvent e := by
  unfold Subscription.matchesEvent
  rw [h.filter]

/-- A push that is defined stays within the bound. -/
theorem push (h : WithinBound s₀ s) {e : PressureEvent} {out : Subscription C × Bool × Option C}
    (hout : s.Pushes e out) : WithinBound s₀ out.1 := by
  cases hout with
  | misses _ => exact h
  | closed _ _ => exact h
  | queued _ _ hroom =>
    refine ⟨h.filter, h.maxQueue, h.policy, ?_⟩
    show (s.queue ++ [e]).length ≤ s.maxQueue
    rw [List.length_append, List.length_singleton]
    exact hroom
  | rejected _ _ _ => exact ⟨h.filter, h.maxQueue, h.policy, h.bounded⟩
  | droppedNew _ _ _ => exact ⟨h.filter, h.maxQueue, h.policy, h.bounded⟩
  | droppedOld q rest _ _ _ hq =>
    refine ⟨h.filter, h.maxQueue, h.policy, ?_⟩
    have hfits := h.bounded
    rw [hq, List.length_cons] at hfits
    show (rest ++ [e]).length ≤ s.maxQueue
    rw [List.length_append, List.length_singleton]
    exact hfits

/-- A pop leaves no more. -/
theorem tryPop (h : WithinBound s₀ s) :
    WithinBound s₀ s.tryPop.1 ∧ s.tryPop.1.closed = s.closed := by
  unfold Subscription.tryPop
  cases hq : s.queue with
  | nil => exact ⟨h, rfl⟩
  | cons e rest =>
    have hfits := h.bounded
    rw [hq, List.length_cons] at hfits
    exact ⟨⟨h.filter, h.maxQueue, h.policy, Nat.le_of_succ_le hfits⟩, rfl⟩

theorem clear (h : WithinBound s₀ s) : WithinBound s₀ s.clear :=
  ⟨h.filter, h.maxQueue, h.policy, Nat.zero_le _⟩

theorem close (h : WithinBound s₀ s) : WithinBound s₀ s.close :=
  ⟨h.filter, h.maxQueue, h.policy, h.bounded⟩

/-- **When a push is undefined**: it is let through to an open queue of no room that
drops its oldest event. -/
theorem popsEmpty_iff (h : WithinBound s₀ s) (e : PressureEvent) :
    s.PopsEmpty e ↔ s₀.maxQueue = 0 ∧ s₀.overflowPolicy = .dropOldest ∧ s.closed = false ∧
      s₀.matchesEvent e = true := by
  constructor
  · rintro ⟨hmatch, hopen, hpolicy, -, hzero⟩
    exact ⟨h.maxQueue ▸ hzero, h.policy ▸ hpolicy, hopen, h.matchesEvent_eq e ▸ hmatch⟩
  · rintro ⟨hzero, hpolicy, hopen, hmatch⟩
    have hbounded := h.bounded
    rw [h.maxQueue, hzero] at hbounded
    exact ⟨(h.matchesEvent_eq e).trans hmatch, hopen, h.policy.trans hpolicy,
      List.eq_nil_of_length_eq_zero (Nat.le_zero.mp hbounded), h.maxQueue.trans hzero⟩

end WithinBound

/-! ## Runs -/

/-- The call does not pop an empty queue. -/
def Defined (s : Option (Subscription C)) (op : QueueOp) : Prop :=
  ∀ sub e, s = some sub → op = .push e → ¬ sub.PopsEmpty e

/-- A subscription within its bound, and not undefined. -/
def Bounded (s₀ : Subscription C) (s : Option (Subscription C)) : Prop :=
  ∃ sub, s = some sub ∧ WithinBound s₀ sub

variable {s₀ s : Subscription C}

/-- **One call** that is defined stays within the bound, and leaves open what is, but
for a close. -/
theorem WithinBound.step (h : WithinBound s₀ s) {op : QueueOp} (hdef : Defined (some s) op) :
    ∃ s', (queueStep (some s) op).1 = some s' ∧ WithinBound s₀ s' ∧
      s'.closed = (s.closed || op.isClose) := by
  cases op with
  | push e =>
    rcases s.push_cases e with ⟨-, hempty⟩ | ⟨out, hpush, hout⟩
    · exact absurd hempty (hdef s e rfl rfl)
    · refine ⟨out.1, by simp only [queueStep, hpush], h.push hout, ?_⟩
      exact hout.closed_eq.trans (Bool.or_false _).symm
  | tryPop => exact ⟨_, rfl, h.tryPop.1, h.tryPop.2.trans (Bool.or_false _).symm⟩
  | clear => exact ⟨_, rfl, h.clear, (Bool.or_false _).symm⟩
  | close => exact ⟨_, rfl, h.close, (Bool.or_true _).symm⟩

/-- One that is not is undefined, and nothing follows it. -/
theorem queueStep_of_not_defined {op : QueueOp} (hdef : ¬ Defined (some s) op) :
    (queueStep (some s) op).1 = none := by
  rw [Defined] at hdef
  push Not at hdef
  obtain ⟨sub, e, hsub, rfl, hempty⟩ := hdef
  obtain rfl := Option.some.inj hsub
  simp only [queueStep, Subscription.push_of_popsEmpty hempty]

/-- **When every call of a run is defined**, in terms of what is pushed. -/
theorem WithinBound.along_defined_iff (h : WithinBound s₀ s) (ops : List QueueOp) :
    Machine.Along queueStep Defined (some s) ops ↔
      (s₀.maxQueue = 0 → s₀.overflowPolicy = .dropOldest → s.closed = false →
        ∀ e, .push e ∈ openPart ops → s₀.matchesEvent e = false) := by
  induction ops generalizing s with
  | nil =>
    refine iff_of_true trivial ?_
    intro _ _ _ e he
    cases he
  | cons op ops ih =>
    rw [Machine.along_cons]
    by_cases hdef : Defined (some s) op
    · obtain ⟨s', hs', h', hclosed⟩ := h.step hdef
      rw [and_iff_right hdef, hs', ih h', hclosed]
      refine imp_congr_right fun hzero => imp_congr_right fun hpolicy => ?_
      cases hclose : op.isClose with
      | true =>
        -- after the close nothing is let in, and nothing before it is left
        rw [Bool.or_true, openPart_cons_of_close hclose]
        refine iff_of_true nofun ?_
        intro _ e he
        cases he
      | false =>
        rw [Bool.or_false, openPart_cons hclose]
        refine imp_congr_right fun hopen => ?_
        constructor
        · intro hrest e he
          rcases List.mem_cons.mp he with heq | he
          · refine Bool.eq_false_iff.mpr ?_
            intro hmatch
            exact hdef s e rfl heq.symm ((h.popsEmpty_iff e).mpr ⟨hzero, hpolicy, hopen, hmatch⟩)
          · exact hrest e he
        · intro hall e he
          exact hall e (List.mem_cons_of_mem _ he)
    · refine iff_of_false (fun hall => hdef hall.1) ?_
      intro hall
      rw [Defined] at hdef
      push Not at hdef
      obtain ⟨sub, e, hsub, rfl, hempty⟩ := hdef
      obtain rfl := Option.some.inj hsub
      obtain ⟨hzero, hpolicy, hopen, hmatch⟩ := (h.popsEmpty_iff e).mp hempty
      have hmiss := hall hzero hpolicy hopen e (List.mem_cons_self ..)
      rw [hmatch] at hmiss
      cases hmiss

/-- **Queues of any bound**: every call of a run is defined and leaves no more queued than
the bound allows exactly when the queue has room for an event, or does not make room for a
new one, or nothing it would let in is pushed before it is first closed. The one call that
is undefined is a push that makes room in a queue of bound 0. -/
theorem queue_bounded_iff (filter : SubscriptionFilter) (maxQueue : Nat)
    (policy : EventOverflowPolicy) (cb : Option C) (ops : List QueueOp) :
    let s₀ : Subscription C :=
      { filter := filter, maxQueue := maxQueue, overflowPolicy := policy, callback := cb }
    (∀ before after, ops = before ++ after →
        ∃ s, Machine.run queueStep (some s₀) before = some s ∧ s.queue.length ≤ maxQueue) ↔
      0 < maxQueue ∨ policy ≠ .dropOldest ∨
        ∀ e, .push e ∈ openPart ops → s₀.matchesEvent e = false := by
  intro s₀
  have hstart : WithinBound s₀ s₀ := ⟨rfl, rfl, rfl, Nat.zero_le _⟩
  have hgood : ∀ s, Bounded s₀ s → True → ∃ sub, s = some sub ∧ sub.queue.length ≤ maxQueue := by
    rintro _ ⟨sub, rfl, h⟩ -
    exact ⟨sub, rfl, Nat.le_trans h.bounded (Nat.le_of_eq h.maxQueue)⟩
  have hkeep : ∀ s, ∀ op ∈ ops, Bounded s₀ s → Defined s op → Bounded s₀ (queueStep s op).1 := by
    rintro _ op - ⟨sub, rfl, h⟩ hdef
    obtain ⟨s', hs', h', -⟩ := h.step hdef
    exact ⟨s', hs', h'⟩
  have hbreak : ∀ s, ∀ op ∈ ops, Bounded s₀ s → ¬ Defined s op →
      True ∧ ¬ ∃ sub, (queueStep s op).1 = some sub ∧ sub.queue.length ≤ maxQueue := by
    rintro _ op - ⟨sub, rfl, -⟩ hdef
    rw [queueStep_of_not_defined hdef]
    refine ⟨trivial, ?_⟩
    rintro ⟨sub', heq, -⟩
    cases heq
  have hrun := Machine.checkpoints_iff_along queueStep ops hgood hkeep hbreak ⟨s₀, rfl, hstart⟩
  rw [hstart.along_defined_iff] at hrun
  simp only [forall_const] at hrun
  rw [hrun]
  constructor
  · intro h
    by_cases hzero : maxQueue = 0
    · by_cases hpolicy : policy = .dropOldest
      · exact .inr (.inr (h hzero hpolicy rfl))
      · exact .inr (.inl hpolicy)
    · exact .inl (Nat.pos_of_ne_zero hzero)
  · rintro (hpos | hpolicy | hmiss) hzero hold -
    · exact absurd hzero (Nat.ne_of_gt hpos)
    · exact absurd hold hpolicy
    · exact hmiss

/-- A queue of bound 0 under the default policy: the first event it lets in pops the
front of nothing. -/
theorem queue_of_none_undefined :
    let s₀ : Subscription Unit := { maxQueue := 0 }
    Machine.run queueStep (some s₀) [.push {}] = none ∧
      ¬ ∀ before after, [QueueOp.push {}] = before ++ after →
        ∃ s, Machine.run queueStep (some s₀) before = some s ∧ s.queue.length ≤ 0 := by
  refine ⟨rfl, ?_⟩
  intro h
  obtain ⟨s, hrun, -⟩ := h [.push {}] [] rfl
  cases hrun

end MemoryPressure
