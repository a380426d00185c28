import MemoryPressure.BoundedQueue
import MemoryPressure.Concurrency
import MemoryPressure.Run

/-!
# A runtime with its subscribers (`runtime.cpp`, `core.cpp`)

Refreshes come one after the other, each under `refresh_mutex_` until its batch
is delivered. Anything that does not take that mutex may happen between any two
steps of the delivery, be it in a callback or on another thread.

- `Phase`: where the delivery of the refresh in progress stands.
- `Turn`, `Session.step`: one scope of a call, one push of the delivery loop, the
  return of a callback or its exception, which leaves the loop and the refresh.
- `step_runtime`: on the runtime itself a turn is an operation of a sequential
  run or nothing, so that what holds of every run holds of every session.

A session is coarser than a schedule of threads: a refresh up to its publication is one
turn, as it may be by `serializable`, and what is left to interleave is the delivery.
`performed` lists the operations of the runtime in the order of the turns, and
`run_runtime` is the refinement: the runtime of a session is that of the sequential run of
`performed`, and the session publishes what that run publishes. A call of `set_policy` or
`refresh` in the middle of a delivery waits, which is a turn that changes nothing; in a
callback it would wait for ever (`Reentrancy.lean`). A push by user code on its own account
is not a turn: what subscribers are promised is about the events of refreshes.

The list of subscriptions only grows (`length_le_step`), as `subscriptions_` does in the
source, and grows by calls of `subscribe` alone (`length_step`).
-/

namespace MemoryPressure

variable {F C : Type} [Double F]

/-- The calls whose effect is their one scope (`Shared.apply`). -/
def Call.isScope : Call F C → Bool
  | .setPolicy _ | .refresh _ | .push _ _ => false
  | _ => true

/-- A call that is over with its one scope. -/
abbrev ScopedCall (F C : Type) [Double F] := { c : Call F C // c.isScope = true }

/-- Where the delivery loop stands (runtime.cpp:471–475): before an event, before
the next subscription is offered it, or in the callback of a subscription. -/
inductive Phase where
  | idle
  | between (events : List PressureEvent)
  | offering (d : Delivery)
  | calling (n : Nat) (d : Delivery)
  deriving DecidableEq

/-- The phase a refresh ends its critical part in: a delivery, unless it was cut
short. -/
def Phase.afterRefresh : List (Published F) → Phase
  | [] => .idle
  | pub :: _ => .between pub.events

/-- The runtime, its subscriptions and the delivery in progress. -/
structure Session (F C : Type) [Double F] extends Shared F C where
  phase : Phase := .idle

/-- What can happen next. -/
inductive Turn (F C : Type) [Double F] where
  | setPolicy (p : PressurePolicy F)
  | refresh (nowMs : UInt64) (polls : List (Poll F))
  | call (c : ScopedCall F C)
  | deliver
  | callbackReturns
  | callbackThrows

/-- What a turn lets its caller know. -/
inductive Report (F : Type) [Double F] where
  | published (pub : Published F)
  | popped (n : Nat) (e : PressureEvent)

/-- The events a call pops. -/
def Shared.pops (d : Shared F C) : Call F C → List (Report F)
  | .tryPop n => ((d.subscriptions[n]?).bind fun s => s.tryPop.2).toList.map (.popped n)
  | _ => []

namespace Session

/-- The state with other shared data. -/
def withShared (s : Session F C) (d : Shared F C) : Session F C := { s with toShared := d }

/-- The state in another phase. -/
def inPhase (s : Session F C) (phase : Phase) : Session F C := { s with phase := phase }

/-- One step of the delivery loop. A subscription that is closed is passed over;
a push that is undefined goes nowhere. -/
def deliver (s : Session F C) : Session F C :=
  match s.phase with
  | .idle | .calling _ _ => s
  | .between [] => s.inPhase .idle
  | .between (e :: events) => s.inPhase (.offering
      { subscriptions := List.range s.subscriptions.length, event := e, events := events })
  | .offering d =>
    match d.subscriptions with
    | [] => s.inPhase (.between d.events)
    | n :: ns =>
      match s.subscriptions[n]? with
      | none => s
      | some sub =>
        if sub.closed then s.inPhase (.offering { d with subscriptions := ns })
        else
          match sub.push d.event with
          | none => s
          | some (sub', _, cb) =>
            (s.withShared (s.toShared.updateSubscription n fun _ => sub')).inPhase
              (if cb.isSome then .calling n { d with subscriptions := ns }
                else .offering { d with subscriptions := ns })

/-- One turn: `set_policy` and `refresh` wait for the refresh in progress. -/
def step (s : Session F C) : Turn F C → Session F C × List (Report F)
  | .setPolicy p =>
    match s.phase with
    | .idle => (s.withShared { s.toShared with rt := s.rt.setPolicy p }, [])
    | _ => (s, [])
  | .refresh nowMs polls =>
    match s.phase with
    | .idle =>
      ((s.withShared { s.toShared with rt := (s.rt.refresh nowMs polls).1 }).inPhase
          (Phase.afterRefresh (s.rt.refresh nowMs polls).2),
        (s.rt.refresh nowMs polls).2.map .published)
    | _ => (s, [])
  | .call c => (s.withShared (s.toShared.apply c.1), s.toShared.pops c.1)
  | .deliver => (s.deliver, [])
  | .callbackReturns =>
    match s.phase with
    | .calling _ d => (s.inPhase (.offering d), [])
    | _ => (s, [])
  | .callbackThrows =>
    match s.phase with
    | .calling _ _ => (s.inPhase .idle, [])
    | _ => (s, [])

/-- The session after a list of turns. -/
abbrev runFrom (s : Session F C) (turns : List (Turn F C)) : Session F C :=
  Machine.run Session.step s turns

/-- Everything reported along a list of turns. -/
abbrev reports (s : Session F C) (turns : List (Turn F C)) : List (Report F) :=
  Machine.outputs Session.step s turns

end Session

/-! ## The runtime of a session -/

/-- The snapshots and batches among the reports. -/
def publishedIn (reports : List (Report F)) : List (Published F) :=
  reports.filterMap fun report => match report with
    | .published pub => some pub
    | .popped _ _ => none

/-- The events subscription `n` handed out among the reports. -/
def poppedFrom (n : Nat) (reports : List (Report F)) : List PressureEvent :=
  reports.filterMap fun report => match report with
    | .popped m e => if m = n then some e else none
    | .published _ => none

@[simp] theorem publishedIn_append (as bs : List (Report F)) :
    publishedIn (as ++ bs) = publishedIn as ++ publishedIn bs := List.filterMap_append ..

@[simp] theorem poppedFrom_append (n : Nat) (as bs : List (Report F)) :
    poppedFrom n (as ++ bs) = poppedFrom n as ++ poppedFrom n bs := List.filterMap_append ..

@[simp] theorem publishedIn_published (pubs : List (Published F)) :
    publishedIn (pubs.map .published) = pubs := by
  induction pubs with
  | nil => rfl
  | cons pub pubs ih => exact congrArg (pub :: ·) ih

@[simp] theorem poppedFrom_published (n : Nat) (pubs : List (Published F)) :
    poppedFrom n (pubs.map .published) = [] := by
  induction pubs with
  | nil => rfl
  | cons pub pubs ih => exact ih

theorem publishedIn_pops (d : Shared F C) (c : Call F C) : publishedIn (d.pops c) = [] := by
  cases c with
  | tryPop n =>
    rw [Shared.pops]
    cases (d.subscriptions[n]?).bind fun s => s.tryPop.2 <;> rfl
  | _ => rfl

/-- A call on subscription `m` leaves every other subscription as it is. -/
theorem subscription_modify {subs : List (Subscription C)} {n : Nat} {sub : Subscription C}
    (hsub : subs[n]? = some sub) (m : Nat) (f : Subscription C → Subscription C) :
    (subs.modify m f)[n]? = some (if m = n then f sub else sub) := by
  rw [List.getElem?_modify, hsub]
  split_ifs <;> rfl

/-- A call of `try_pop` on subscription `m` hands out an event of that subscription only. -/
theorem poppedFrom_pops {d : Shared F C} {n : Nat} {sub : Subscription C}
    (hsub : d.subscriptions[n]? = some sub) (m : Nat) :
    poppedFrom n (d.pops (.tryPop m)) = if m = n then sub.tryPop.2.toList else [] := by
  rw [Shared.pops]
  by_cases hm : m = n
  · subst hm
    rw [if_pos rfl, hsub, Option.bind_some]
    cases sub.tryPop.2 <;> simp [poppedFrom]
  · rw [if_neg hm]
    cases (d.subscriptions[m]?).bind fun s => s.tryPop.2 <;> simp [poppedFrom, hm]

/-- The operation on the runtime that a call is. -/
def Call.op : Call F C → Option (Op F)
  | .registerProvider name => some (.registerProvider name)
  | .setBudget id b => some (.setBudget id b)
  | .clearBudget id => some (.clearBudget id)
  | .setHistoryLimit n => some (.setHistoryLimit n)
  | _ => none

/-- The operation on the runtime that a turn is, where it does not wait. -/
def Turn.op (s : Session F C) : Turn F C → Option (Op F)
  | .setPolicy p =>
    match s.phase with
    | .idle => some (.setPolicy p)
    | _ => none
  | .refresh nowMs polls =>
    match s.phase with
    | .idle => some (.refresh nowMs polls)
    | _ => none
  | .call c => c.1.op
  | .deliver | .callbackReturns | .callbackThrows => none

theorem apply_runtime (d : Shared F C) (c : Call F C) :
    (d.apply c).rt = runFrom d.rt c.op.toList := by
  cases c <;> rfl

/-- The call makes a subscription. -/
def Call.subscribes : Call F C → Bool
  | .subscribe _ _ => true
  | _ => false

/-- The turn makes a subscription. -/
def Turn.subscribes : Turn F C → Bool
  | .call c => c.1.subscribes
  | _ => false

/-- A call that does not subscribe keeps the list of subscriptions as long. -/
theorem length_apply (d : Shared F C) {c : Call F C} (h : c.subscribes = false) :
    (d.apply c).subscriptions.length = d.subscriptions.length := by
  cases c with
  | subscribe => cases h
  | tryPop | setCallback | close | clear => exact List.length_modify ..
  | _ => rfl

namespace Session

variable {s : Session F C}

@[simp] theorem withShared_rt (d : Shared F C) : (s.withShared d).rt = d.rt := rfl

@[simp] theorem withShared_subscriptions (d : Shared F C) :
    (s.withShared d).subscriptions = d.subscriptions := rfl

@[simp] theorem withShared_phase (d : Shared F C) : (s.withShared d).phase = s.phase := rfl

@[simp] theorem inPhase_rt (phase : Phase) : (s.inPhase phase).rt = s.rt := rfl

@[simp] theorem inPhase_subscriptions (phase : Phase) :
    (s.inPhase phase).subscriptions = s.subscriptions := rfl

@[simp] theorem inPhase_phase (phase : Phase) : (s.inPhase phase).phase = phase := rfl

/-- A delivery is not an operation on the runtime. -/
@[simp] theorem deliver_rt : s.deliver.rt = s.rt := by
  unfold deliver
  split
  · rfl
  · rfl
  · rfl
  · rfl
  · split
    · rfl
    · split
      · rfl
      · split_ifs
        · rfl
        · split
          · rfl
          · rfl

/-- **A turn on the runtime**: it is one operation of a sequential run, or none,
and publishes what that operation publishes. -/
theorem step_runtime (turn : Turn F C) :
    (s.step turn).1.rt = MemoryPressure.runFrom s.rt (turn.op s).toList ∧
      publishedIn (s.step turn).2 = publishedBy s.rt (turn.op s).toList := by
  cases turn with
  | setPolicy p =>
    cases hphase : s.phase <;> simp only [Session.step, Turn.op, hphase] <;> exact ⟨rfl, rfl⟩
  | refresh nowMs polls =>
    cases hphase : s.phase with
    | idle =>
      simp only [Session.step, Turn.op, hphase]
      refine ⟨rfl, ?_⟩
      rw [publishedIn_published]
      exact (List.append_nil _).symm
    | _ =>
      simp only [Session.step, Turn.op, hphase]
      exact ⟨rfl, rfl⟩
  | call c =>
    refine ⟨apply_runtime _ _, ?_⟩
    show publishedIn (s.toShared.pops c.1) = publishedBy s.rt c.1.op.toList
    rw [publishedIn_pops]
    cases c.1 <;> rfl
  | deliver => exact ⟨deliver_rt, rfl⟩
  | callbackReturns | callbackThrows =>
    cases hphase : s.phase <;> simp only [Session.step, Turn.op, hphase] <;> exact ⟨rfl, rfl⟩

/-- The operations on the runtime along a list of turns. -/
def performed (s : Session F C) : List (Turn F C) → List (Op F)
  | [] => []
  | turn :: turns => (turn.op s).toList ++ performed (s.step turn).1 turns

/-- **A session runs its runtime**: in every session the runtime is in a state of
a sequential run, and the session publishes what that run does. -/
theorem run_runtime (s : Session F C) (turns : List (Turn F C)) :
    (s.runFrom turns).rt = MemoryPressure.runFrom s.rt (s.performed turns) ∧
      publishedIn (s.reports turns) = publishedBy s.rt (s.performed turns) := by
  induction turns generalizing s with
  | nil => exact ⟨rfl, rfl⟩
  | cons turn turns ih =>
    obtain ⟨hrt, hpub⟩ := step_runtime (s := s) turn
    obtain ⟨hrt', hpub'⟩ := ih (s.step turn).1
    rw [performed, MemoryPressure.runFrom, publishedBy, Machine.run_append, Machine.outputs_append]
    refine ⟨?_, ?_⟩
    · show ((s.step turn).1.runFrom turns).rt = _
      rw [hrt', hrt]
    · show publishedIn ((s.step turn).2 ++ (s.step turn).1.reports turns) = _
      rw [publishedIn_append, hpub, hpub', hrt]

/-- The delivery leaves the list of subscriptions as long. -/
@[simp] theorem length_deliver : s.deliver.subscriptions.length = s.subscriptions.length := by
  unfold deliver
  split
  · rfl
  · rfl
  · rfl
  · rfl
  · split
    · rfl
    · split
      · rfl
      · split_ifs
        · rfl
        · split
          · rfl
          · exact List.length_modify ..

/-- A turn that is not a call of `subscribe` leaves the list of subscriptions as long as it
was. -/
theorem length_step {turn : Turn F C} (h : turn.subscribes = false) :
    (s.step turn).1.subscriptions.length = s.subscriptions.length := by
  cases turn with
  | call c => exact length_apply _ h
  | deliver => exact length_deliver
  | setPolicy | refresh | callbackReturns | callbackThrows =>
    cases hphase : s.phase
    all_goals simp only [Session.step, hphase, inPhase_subscriptions, withShared_subscriptions]

/-- The list of subscriptions never gets shorter. -/
theorem length_le_step (turn : Turn F C) :
    s.subscriptions.length ≤ (s.step turn).1.subscriptions.length := by
  by_cases h : turn.subscribes = true
  · cases turn with
    | call c =>
      obtain ⟨c, hscope⟩ := c
      cases c with
      | subscribe filter cb =>
        show _ ≤ (s.subscriptions ++ [_]).length
        rw [List.length_append]
        exact Nat.le_add_right ..
      | _ => cases h
    | _ => cases h
  · exact Nat.le_of_eq (length_step (Bool.eq_false_iff.mpr h)).symm

end Session

end MemoryPressure
