import MemoryPressure.EventLoss
import MemoryPressure.Telemetry

/-!
# The numbers of the events (`runtime.cpp`)

`refresh` numbers its events from `event_id_` as it makes them, and publishes
the batch at its end. So the ids of a run increase from batch to batch, and an
exception that gets through a `sample()` takes the ids of the events made before it.

- `Op.abandoned`: the events an exception takes.
- `eventNumbers_step`: a step moves the counter by what it publishes and what it abandons.
- `event_numbers`: the ids of a run increase, up to the counter; they have no gap
  exactly when no event was abandoned.

Both halves are the library's rules for numbers from a counter (`Machine.numbers_run`,
`Machine.numbers_range_iff`). A consumer that finds a gap between two ids therefore cannot
tell by the ids alone whether its queue dropped an event or no such event was published.
-/

namespace MemoryPressure

variable {F : Type} [Double F]

open PressureRuntime (published)

/-- The events of a refresh that is cut short: numbered, and never published. -/
def Op.abandoned : Op F → List PressureEvent
  | .refresh nowMs polls =>
    if Completes polls then [] else (polled polls).flatMap (Poll.events nowMs)
  | _ => []

/-- The ids of a published batch. -/
def Published.eventIds (pub : Published F) : List Nat := pub.events.map PressureEvent.id

/-- The ids of a batch follow the counter. -/
theorem eventIds_published (rt : PressureRuntime F) (nowMs : UInt64) (log : PollLog F) :
    (published rt.policy rt.budgets rt nowMs log).eventIds = List.range' (rt.eventId + 1)
      (published rt.policy rt.budgets rt nowMs log).events.length := by
  rw [Published.eventIds, published, stampIds_ids, length_stampIds]

/-- A step moves the counter by what it publishes and what it abandons. -/
theorem eventNumbers_step (rt : PressureRuntime F) (op : Op F) :
    (step rt op).2.flatMap Published.eventIds = List.range' (rt.eventId + 1)
        ((step rt op).2.flatMap Published.eventIds).length ∧
      (step rt op).1.eventId
        = rt.eventId + ((step rt op).2.flatMap Published.eventIds).length +
            op.abandoned.length := by
  cases op with
  | setPolicy p =>
    have hevent := congrArg PressureRuntime.eventId (rt.setPolicy_eq p)
    exact ⟨rfl, hevent⟩
  | setBudget id b =>
    have hevent := congrArg PressureRuntime.eventId (rt.setBudget_eq id b)
    exact ⟨rfl, hevent⟩
  | clearBudget | setHistoryLimit | registerProvider => exact ⟨rfl, rfl⟩
  | refresh nowMs polls =>
    obtain ⟨log, hok, hends⟩ := refresh_polled rt nowMs polls
    show (rt.refresh nowMs polls).2.flatMap _ = _ ∧ (rt.refresh nowMs polls).1.eventId = _
    rcases hends with hlog | ⟨hnot, heq⟩
    · have hnone : (Op.refresh nowMs polls).abandoned = [] := if_pos hlog.completes
      rw [step, hlog.refresh_eq, hnone, List.flatMap_singleton, eventIds_published,
        List.length_range']
      exact ⟨rfl, rfl⟩
    · have hlost : (Op.refresh nowMs polls).abandoned = log.events := by
        rw [(pollAll_adds hok).1, List.nil_append]
        exact if_neg hnot
      rw [step, heq, hlost]
      exact ⟨rfl, rfl⟩

theorem numbers_events (rt : PressureRuntime F) (op : Op F) :
    Machine.Numbers step PressureRuntime.eventId Published.eventIds rt op where
  range := (eventNumbers_step rt op).1
  le := by
    have hcount := (eventNumbers_step rt op).2
    omega

theorem noGap_iff (rt : PressureRuntime F) (op : Op F) :
    Machine.NoGap step PressureRuntime.eventId Published.eventIds rt op ↔ op.abandoned = [] := by
  have hcount := (eventNumbers_step rt op).2
  rw [Machine.NoGap, ← List.length_eq_zero_iff]
  omega

/-- **Event numbers.** In every run the ids of the events, in the order they were
published, increase from 1, and none is above the counter. They are all the numbers
up to the counter exactly when no refresh was left by an exception after it had made
an event. -/
theorem event_numbers (ops : List (Op F)) :
    let ids := (publishedBy PressureRuntime.init ops).flatMap Published.eventIds
    let counter := (runFrom PressureRuntime.init ops).eventId
    ids.Pairwise (· < ·) ∧ (∀ n ∈ ids, 1 ≤ n ∧ n ≤ counter) ∧
      (ids = List.range' 1 counter ↔ ∀ op ∈ ops, op.abandoned = []) := by
  intro ids counter
  have hnumbers : ∀ rt : PressureRuntime F, ∀ op ∈ ops,
      Machine.Numbers step PressureRuntime.eventId Published.eventIds rt op :=
    fun rt op _ => numbers_events rt op
  obtain ⟨hlt, hbounds, -⟩ := Machine.numbers_run (s := PressureRuntime.init) hnumbers
  refine ⟨hlt, hbounds, ?_⟩
  have hrange := Machine.numbers_range_iff (s := PressureRuntime.init) hnumbers
  have halong : Machine.Along step
      (Machine.NoGap step PressureRuntime.eventId Published.eventIds) PressureRuntime.init ops
        ↔ Machine.Along step (fun _ op => op.abandoned = []) PressureRuntime.init ops :=
    Machine.along_iff step (I := fun _ => True) (fun _ _ _ _ _ => trivial)
      (fun rt op _ _ => noGap_iff rt op) trivial
  rw [halong, Machine.along_const_iff] at hrange
  exact hrange

/-- The second refresh loses the event of its first provider to the exception of its
second, and the third one goes on with the next number. -/
example :
    let stale : Poll ℚ := { name := "disk", outcome := .returned { status := .stale } }
    let escaped : Poll ℚ := { name := "gpu", outcome := .escaped }
    (publishedBy PressureRuntime.init
        [.refresh 1000 [stale], .refresh 2000 [stale, escaped], .refresh 3000 [stale]]).flatMap
      Published.eventIds = [1, 2, 4] := by
  decide +kernel

end MemoryPressure
