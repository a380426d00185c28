import Mathlib.Data.List.TakeWhile
import MemoryPressure.Signals

/-!
# Expiry of stale telemetry (`runtime.cpp`)

`backpressure` derives `expiry_ms` from the timestamp of the domain it finds in
the current snapshot, and a domain that is only retained is stamped with the
time of the refresh that retains it (runtime.cpp:323). So the signal of a domain nobody
observes any more is renewed by every refresh.

- `stamped_published`: whatever a refresh publishes carries that refresh's
  time, observed or not.
- `Op.sampled`, `lastObserved`, `publishedSince`: what a run says about when a
  provider last observed a domain and about the refreshes since.
- `Clocked`: the invariant of a run with times that do not go back. Everything in the
  snapshot carries its time, and that is the latest published since the last observation.
- `expires_iff`: the signal expires 10 s after the last observation exactly when
  no refresh published at a later time since.

Two things are asked of the clock: that it does not go back, and that it stays far enough
from the 64-bit limit for the 10 seconds to be added. A refresh that an exception cuts short
may have sampled a domain without publishing it; its observations count as observations,
which is in favour of the signal.
-/

namespace MemoryPressure

variable {F : Type} [Double F]

/-! ## When a run observes and publishes -/

/-- The time of a refresh. -/
def Op.refreshTime : Op F → Option UInt64
  | .refresh nowMs _ => some nowMs
  | _ => none

/-- The time of a refresh that publishes. -/
def Op.publishTime : Op F → Option UInt64
  | .refresh nowMs polls => if Completes polls then some nowMs else none
  | _ => none

/-- The domains the providers of a refresh observed, up to the exception that
cuts it short, if one does. -/
def Op.sampled : Op F → List PressureDomainId
  | .refresh _ polls =>
    (sightingsOf (polls.takeWhile fun poll => !poll.outcome.escapes)).map fun sight => sight.2.id
  | _ => []

/-- The time of the last refresh of a run in which a provider observed `d`. -/
def lastObserved (d : PressureDomainId) (ops : List (Op F)) : Option UInt64 :=
  (ops.reverse.find? fun op => d ∈ op.sampled).bind Op.refreshTime

/-- The times of the refreshes that published since, newest first. -/
def publishedSince (d : PressureDomainId) (ops : List (Op F)) : List UInt64 :=
  (ops.reverse.takeWhile fun op => d ∉ op.sampled).filterMap Op.publishTime

/-- The times of the refreshes of a run, in order. -/
def refreshTimes (ops : List (Op F)) : List UInt64 := ops.filterMap Op.refreshTime

theorem refreshTimes_concat (ops : List (Op F)) (op : Op F) :
    refreshTimes (ops ++ [op]) = refreshTimes ops ++ op.refreshTime.toList := by
  rw [refreshTimes, List.filterMap_append, refreshTimes]
  cases h : op.refreshTime <;> simp [h]

theorem lastObserved_concat (d : PressureDomainId) (ops : List (Op F)) (op : Op F) :
    lastObserved d (ops ++ [op]) =
      if d ∈ op.sampled then op.refreshTime else lastObserved d ops := by
  rw [lastObserved, List.reverse_append, List.reverse_singleton, List.singleton_append,
    List.find?_cons]
  by_cases h : d ∈ op.sampled <;> simp [h, lastObserved]

theorem publishedSince_concat (d : PressureDomainId) (ops : List (Op F)) (op : Op F) :
    publishedSince d (ops ++ [op]) =
      if d ∈ op.sampled then [] else op.publishTime.toList ++ publishedSince d ops := by
  rw [publishedSince, List.reverse_append, List.reverse_singleton, List.singleton_append,
    List.takeWhile_cons]
  by_cases h : d ∈ op.sampled
  · simp [h]
  · cases hp : op.publishTime <;> simp [h, hp, publishedSince]

/-- Whoever published did so at one of the run's times. -/
theorem publishedSince_subset (d : PressureDomainId) (ops : List (Op F)) :
    ∀ t ∈ publishedSince d ops, t ∈ refreshTimes ops := by
  intro t ht
  obtain ⟨op, hop, htime⟩ := List.mem_filterMap.mp ht
  refine List.mem_filterMap.mpr
    ⟨op, List.mem_reverse.mp ((List.takeWhile_sublist _).subset hop), ?_⟩
  cases op with
  | refresh nowMs polls =>
    rw [Op.publishTime] at htime
    split_ifs at htime
    exact htime
  | _ => cases htime

/-- What a completing refresh observes is all it sampled. -/
theorem sampled_of_completes {rt : PressureRuntime F} {nowMs : UInt64} {polls : List (Poll F)}
    {log : PollLog F} (h : PressureRuntime.CompletesWith rt nowMs polls log) :
    (Op.refresh nowMs polls).sampled = PressureRuntime.observedIds log := by
  have hall : polls.takeWhile (fun poll => !poll.outcome.escapes) = polls :=
    List.takeWhile_eq_self_iff.2 fun poll hpoll => by simp [h.completes poll hpoll]
  rw [Op.sampled, hall, h.observedIds_eq]

/-! ## What is published is stamped now -/

/-- Whatever a refresh publishes carries the time of the refresh, retained
entries included. -/
theorem stamped_published {pol : PressurePolicy F} {budgets : Budgets} {rt : PressureRuntime F}
    {nowMs : UInt64} {log : PollLog F} :
    ∀ ds ∈ (PressureRuntime.published pol budgets rt nowMs log).snapshot.domains,
      ds.timestampMs = nowMs :=
  PressureRuntime.forall_published (fun _ _ => rfl) (fun _ _ _ => rfl) (fun _ _ h => h)

/-- A call publishes at its time, stamping everything with it, or leaves the
current snapshot alone. -/
theorem snapshot_step (rt : PressureRuntime F) (op : Op F) :
    (op.publishTime = none ∧ (step rt op).1.currentSnapshot = rt.currentSnapshot) ∨
      ∃ nowMs, op.publishTime = some nowMs ∧ op.refreshTime = some nowMs ∧
        (step rt op).1.currentSnapshot.timestampMs = nowMs ∧
        (∀ ds ∈ (step rt op).1.currentSnapshot.domains, ds.timestampMs = nowMs) ∧
        ∀ d ∈ (step rt op).1.currentSnapshot.ids,
          d ∈ op.sampled ∨ d ∈ rt.currentSnapshot.ids := by
  rcases step_output rt op with ⟨hquiet, hcur⟩ | ⟨pub, hout, hcur⟩
  · refine Or.inl ⟨?_, hcur⟩
    -- only a refresh publishes
    cases op with
    | refresh nowMs polls =>
      rw [Op.publishTime]
      rcases rt.refresh_cases nowMs polls with ⟨log, hlog⟩ | ⟨hnc, -⟩
      · have hpub : (rt.refresh nowMs polls).2 = [] := hquiet
        rw [hlog.refresh_eq] at hpub
        cases hpub
      · exact if_neg hnc
    | _ => rfl
  · right
    obtain ⟨nowMs, polls, log, rfl, hlog, rfl⟩ :=
      step_publishes (show pub ∈ (step rt op).2 from hout ▸ List.mem_singleton_self pub)
    refine ⟨nowMs, if_pos hlog.completes, rfl, ?_, ?_, fun d hd => ?_⟩
    · rw [hcur]
      rfl
    · rw [hcur]
      exact stamped_published
    · rw [hcur, PressureRuntime.ids_published, List.mem_append] at hd
      rcases hd with hobs | hkept
      · exact Or.inl (sampled_of_completes hlog ▸ hobs)
      · obtain ⟨pd, hpd, rfl⟩ := List.mem_map.mp hkept
        exact Or.inr (List.mem_map_of_mem (List.mem_filter.mp hpd).1)

/-! ## The clock of a run -/

/-- What a run with nondecreasing times makes true of its current snapshot. -/
structure Clocked (ops : List (Op F)) (snap : Snapshot F) : Prop where
  /-- Everything in the snapshot carries its time. -/
  stamped : ∀ ds ∈ snap.domains, ds.timestampMs = snap.timestampMs
  /-- The time of the snapshot is one of the run's, if it has any domain. -/
  timed : ∀ d ∈ snap.ids, snap.timestampMs ∈ refreshTimes ops
  /-- Every domain of the snapshot was observed once. -/
  observed : ∀ d ∈ snap.ids, ∃ t, lastObserved d ops = some t
  /-- The time of the snapshot is the latest published since a domain was last observed. -/
  latest : ∀ d ∈ snap.ids, ∀ t, lastObserved d ops = some t →
    (snap.timestampMs ≤ t ↔ ∀ t' ∈ publishedSince d ops, t' ≤ t)

theorem Clocked.concat {ops : List (Op F)} {rt : PressureRuntime F} {op : Op F}
    (hmono : (refreshTimes (ops ++ [op])).Pairwise (· ≤ ·))
    (h : Clocked ops rt.currentSnapshot) :
    Clocked (ops ++ [op]) (step rt op).1.currentSnapshot := by
  rw [refreshTimes_concat, List.pairwise_append] at hmono
  obtain ⟨-, -, hlate⟩ := hmono
  rcases snapshot_step rt op with ⟨hpub, hcur⟩ | ⟨nowMs, hpub, htime, hnow, hstamp, hids⟩
  · rw [hcur]
    refine ⟨h.stamped, fun d hd => ?_, fun d hd => ?_, fun d hd t ht => ?_⟩
    · rw [refreshTimes_concat]
      exact List.mem_append_left _ (h.timed d hd)
    · rw [lastObserved_concat]
      split_ifs with hs
      · cases op with
        | refresh nowMs polls => exact ⟨nowMs, rfl⟩
        | _ => cases hs
      · exact h.observed d hd
    · rw [lastObserved_concat] at ht
      rw [publishedSince_concat, hpub]
      split_ifs at ht ⊢ with hs
      · -- observed by a refresh that was cut short
        refine iff_of_true (hlate _ (h.timed d hd) t ?_) (fun t' ht' => by cases ht')
        rw [ht]
        exact List.mem_singleton_self t
      · exact h.latest d hd t ht
  · have hbefore : ∀ t ∈ refreshTimes ops, t ≤ nowMs := fun t ht =>
      hlate t ht nowMs (by rw [htime]; exact List.mem_singleton_self nowMs)
    refine ⟨hnow ▸ hstamp, fun d hd => ?_, fun d hd => ?_, fun d hd t ht => ?_⟩
    · rw [refreshTimes_concat, htime, hnow]
      exact List.mem_append_right _ (List.mem_singleton_self nowMs)
    · rw [lastObserved_concat]
      split_ifs with hs
      · exact ⟨nowMs, htime⟩
      · exact h.observed d ((hids d hd).resolve_left hs)
    · rw [lastObserved_concat] at ht
      rw [publishedSince_concat, hnow, hpub]
      split_ifs at ht ⊢ with hs
      · obtain rfl : nowMs = t := Option.some.inj (htime.symm.trans ht)
        exact iff_of_true (UInt64.le_refl nowMs) (fun t' ht' => by cases ht')
      · constructor
        · intro hle t' ht'
          rcases List.mem_cons.mp ht' with rfl | hold
          · exact hle
          · exact UInt64.le_trans (hbefore t' (publishedSince_subset d ops t' hold)) hle
        · intro hall
          exact hall nowMs (List.mem_cons_self ..)

/-- **Every run with nondecreasing times keeps its clock.** -/
theorem clocked_run (ops : List (Op F)) (hmono : (refreshTimes ops).Pairwise (· ≤ ·)) :
    Clocked ops (runFrom PressureRuntime.init ops).currentSnapshot := by
  induction ops using List.reverseRecOn with
  | nil =>
    refine ⟨fun ds hds => ?_, fun d hd => ?_, fun d hd => ?_, fun d hd => ?_⟩
    · cases hds
    · cases hd
    · cases hd
    · cases hd
  | append_singleton ops op ih =>
    rw [runFrom, Machine.run_append]
    refine Clocked.concat hmono (ih ?_)
    rw [refreshTimes_concat] at hmono
    exact (List.pairwise_append.mp hmono).1

/-! ## Expiry -/

/-- The backpressure signal of `d` expires at most 10 s after a provider last
observed `d`. -/
def ExpiresInTime (ops : List (Op F)) (d : PressureDomainId) : Prop :=
  ∃ t, lastObserved d ops = some t ∧
    (PressureRuntime.backpressure (some (runFrom PressureRuntime.init ops).currentSnapshot)
      d).expiryMs.toNat ≤ t.toNat + 10000

/-- A refresh published `d` at a later time than a provider last observed it. -/
def Outlived (ops : List (Op F)) (d : PressureDomainId) : Prop :=
  ∃ t, lastObserved d ops = some t ∧ ∃ t' ∈ publishedSince d ops, t < t'

/-- The signal of a published domain expires 10 s after its snapshot. -/
theorem expiryMs_eq {snap : Snapshot F} (hstamp : ∀ ds ∈ snap.domains,
    ds.timestampMs = snap.timestampMs) {d : PressureDomainId} (hd : d ∈ snap.ids) :
    (PressureRuntime.backpressure (some snap) d).expiryMs = snap.timestampMs + 10 * 1000 := by
  cases hfind : snap.findDomain d with
  | none => exact absurd hd (Snapshot.findDomain_eq_none.mp hfind)
  | some ds =>
    rw [PressureRuntime.backpressure]
    simp only [hfind]
    rw [hstamp ds (Snapshot.findDomain_some hfind).1]

/-- **Stale telemetry expires, exactly when**: in a run with nondecreasing refresh times
far from the 64-bit limit, the signal of a published domain expires within 10 s of the
domain's last observation if and only if no refresh published at a later time since. A
signal is stamped with the time of its snapshot. A domain that is retained is stamped anew
each time it is published, though nobody observed it since. -/
theorem expires_iff (ops : List (Op F)) (hmono : (refreshTimes ops).Pairwise (· ≤ ·))
    (hfar : ∀ t ∈ refreshTimes ops, t.toNat + 10000 < 2 ^ 64) {d : PressureDomainId}
    (hd : d ∈ (runFrom PressureRuntime.init ops).currentSnapshot.ids) :
    ExpiresInTime ops d ↔ ¬ Outlived ops d := by
  have hclock := clocked_run ops hmono
  obtain ⟨t, ht⟩ := hclock.observed d hd
  have hroom := hfar _ (hclock.timed d hd)
  have hexp := congrArg UInt64.toNat (expiryMs_eq hclock.stamped hd)
  rw [UInt64.toNat_add] at hexp
  have hsum : (10 * 1000 : UInt64).toNat = 10000 := rfl
  rw [hsum, Nat.mod_eq_of_lt hroom] at hexp
  have hin : ExpiresInTime ops d
      ↔ (runFrom PressureRuntime.init ops).currentSnapshot.timestampMs ≤ t := by
    rw [ExpiresInTime, ht, UInt64.le_iff_toNat_le]
    simp only [Option.some.injEq, exists_eq_left', hexp]
    omega
  have hout : Outlived ops d ↔ ¬ ∀ t' ∈ publishedSince d ops, t' ≤ t := by
    rw [Outlived, ht]
    simp only [Option.some.injEq, exists_eq_left', not_forall, UInt64.not_le, exists_prop]
  rw [hin, hout, not_not]
  exact hclock.latest d hd t ht

/-- A host observed at 1000, whose provider is down at 2000 and at 11500. -/
def hostGoesSilent : List (Op ℚ) :=
  [.registerProvider "host",
    .refresh 1000 [{ name := "host", outcome := .returned { observations :=
      [{ id := { high := 0, low := 1 }, type := .hostMemory, totalCapacity := 100,
         committed := 90 }] } }],
    .refresh 2000 [{ name := "host", outcome := .threw "timeout" }],
    .refresh 11500 [{ name := "host", outcome := .threw "timeout" }]]

/-- The clock of that run stays far from the 64-bit limit. -/
theorem far_hostGoesSilent : ∀ t ∈ refreshTimes hostGoesSilent, t.toNat + 10000 < 2 ^ 64 := by
  have hall : (refreshTimes hostGoesSilent).all (fun t => t.toNat + 10000 < 2 ^ 64) := by
    decide +kernel
  intro t ht
  exact of_decide_eq_true (List.all_eq_true.mp hall t ht)

/-- While the host answers, its signal expires in time. -/
theorem expires_while_observed : ExpiresInTime (hostGoesSilent.take 2) { high := 0, low := 1 } :=
  (expires_iff (hostGoesSilent.take 2) (by decide +kernel)
    (fun t ht => far_hostGoesSilent t (((List.take_sublist 2 _).filterMap _).subset ht))
    (by decide +kernel)).mpr (by
      rintro ⟨t, -, t', ht', -⟩
      have hnone : publishedSince { high := 0, low := 1 } (hostGoesSilent.take 2) = [] := by
        decide +kernel
      rw [hnone] at ht'
      cases ht')

/-- **Not always**: 10.5 s after the only observation of the host, its signal
still has 10 s to go. -/
theorem stale_signal_renewed :
    (refreshTimes hostGoesSilent).Pairwise (· ≤ ·) ∧
      (∀ t ∈ refreshTimes hostGoesSilent, t.toNat + 10000 < 2 ^ 64) ∧
      { high := 0, low := 1 } ∈ (runFrom PressureRuntime.init hostGoesSilent).currentSnapshot.ids ∧
      lastObserved { high := 0, low := 1 } hostGoesSilent = some 1000 ∧
      (PressureRuntime.backpressure
        (some (runFrom PressureRuntime.init hostGoesSilent).currentSnapshot)
        { high := 0, low := 1 }).expiryMs = 21500 ∧
      ¬ ExpiresInTime hostGoesSilent { high := 0, low := 1 } := by
  have hlast : lastObserved { high := 0, low := 1 } hostGoesSilent = some 1000 := by decide +kernel
  have hexp : (PressureRuntime.backpressure
      (some (runFrom PressureRuntime.init hostGoesSilent).currentSnapshot)
      { high := 0, low := 1 }).expiryMs = 21500 := by decide +kernel
  refine ⟨by decide +kernel, far_hostGoesSilent, by decide +kernel, hlast, hexp, ?_⟩
  rintro ⟨t, ht, hle⟩
  obtain rfl := Option.some.inj (hlast.symm.trans ht)
  rw [hexp] at hle
  exact absurd hle (by decide)

end MemoryPressure
