import MemoryPressure.Foundation.LongestSuffix
import MemoryPressure.Trend

/-!
# The window of a trend (`core.cpp:207`)

`add_sample` evicts from the front by age before it appends and by count after, and
neither loop sees a sample that is gone already.

- `InWindow`: what a window may hold, given the sample added last.
- `longestSuffix_addSample`: one call makes of the longest suffix in the window the
  longest one in the next window.
- `window_longest_suffix`: so after any calls the samples kept are the longest suffix of
  those added since the last reset.

The statement is declarative: nothing is said of loops, only that what is kept is in the
window and that one sample more would not be. Evicting twice agrees with it because both
bounds are kept by suffixes (`InWindow.suffix`), what is out of a window stays out of every
later one (`InWindow.before`), and in time order the expired samples are the first ones
(`SamplesInOrder.expired`). That the longest suffix can be found call by call is the general
fact of `LongestSuffix.lean`.

The cutoff saturates at 0, as the source has it: with a time less than the maximal age
nothing is too old. Timestamps that go back are set aside. There a loop that evicts from
the front stops at the first sample that is young enough, whatever is behind it.
-/

namespace MemoryPressure

/-- The calls on a trend estimator. -/
inductive TrendOp where
  | addSample (committed timestampMs : UInt64)
  | reset

/-- The samples added since the construction or the last reset, oldest first. -/
def sinceReset (ops : List TrendOp) : List TrendSample :=
  ops.foldl (fun added op =>
    match op with
    | .addSample committed timestampMs => added ++ [⟨timestampMs, committed⟩]
    | .reset => []) []

namespace TrendEstimator

/-- One call. -/
def call (e : TrendEstimator) : TrendOp → TrendEstimator
  | .addSample committed timestampMs => e.addSample committed timestampMs
  | .reset => e.reset

/-- Calls one after another. -/
def calls (e : TrendEstimator) (ops : List TrendOp) : TrendEstimator := ops.foldl call e

end TrendEstimator

/-- What a window may hold when `last` was added last: no more than `windowSamples`
samples, and none older than the time of `last` less `maxWindowAgeMs`, or than 0. -/
structure InWindow (windowSamples : Nat) (maxWindowAgeMs : UInt64) (last : Option TrendSample)
    (window : List TrendSample) : Prop where
  few : window.length ≤ windowSamples
  recent : ∀ x ∈ last, ∀ s ∈ window, x.tMs.toNat - maxWindowAgeMs.toNat ≤ s.tMs.toNat

/-! ## One call -/

/-- What the first loop of `add_sample` evicts at the time of `x` (core.cpp:208). -/
def TrendEstimator.expired (maxWindowAgeMs : UInt64) (x s : TrendSample) : Bool :=
  s.tMs < if maxWindowAgeMs > x.tMs then 0 else x.tMs - maxWindowAgeMs

open TrendEstimator (expired)

/-- The cutoff saturates at 0. -/
theorem expired_eq_false_iff {maxAge : UInt64} {x s : TrendSample} :
    expired maxAge x s = false ↔ x.tMs.toNat - maxAge.toNat ≤ s.tMs.toNat := by
  have hcutoff : (if maxAge > x.tMs then 0 else x.tMs - maxAge).toNat
      = x.tMs.toNat - maxAge.toNat := by
    split_ifs with h
    · have hlt := UInt64.lt_iff_toNat_lt.mp h
      rw [UInt64.toNat_zero]
      omega
    · exact UInt64.toNat_sub_of_le _ _ (UInt64.not_lt.mp h)
  rw [expired, decide_eq_false_iff_not, UInt64.not_lt, UInt64.le_iff_toNat_le, hcutoff]

/-- In time order what is expired comes first. -/
theorem SamplesInOrder.expired {samples : List TrendSample} (h : SamplesInOrder samples)
    (maxAge : UInt64) (x : TrendSample) :
    samples.Pairwise fun a b => expired maxAge x b = true → expired maxAge x a = true := by
  refine h.imp ?_
  intro a b hab hb
  exact decide_eq_true (UInt64.lt_of_le_of_lt hab (of_decide_eq_true hb))

/-- The window after a sample: what is not expired at its time, up to the count. -/
theorem inWindow_some_iff {n : Nat} {maxAge : UInt64} {x : TrendSample}
    {window : List TrendSample} :
    InWindow n maxAge (some x) window ↔
      (∀ s ∈ window, expired maxAge x s = false) ∧ window.length ≤ n := by
  simp only [expired_eq_false_iff]
  constructor
  · rintro ⟨hfew, hrecent⟩
    exact ⟨hrecent x rfl, hfew⟩
  · rintro ⟨hrecent, hfew⟩
    refine ⟨hfew, ?_⟩
    intro y hy
    obtain rfl := Option.some.inj hy
    exact hrecent

/-- Part of a window is a window. -/
theorem InWindow.suffix {n : Nat} {maxAge : UInt64} {last : Option TrendSample}
    {window zs : List TrendSample} (h : InWindow n maxAge last window) (hzs : zs <:+ window) :
    InWindow n maxAge last zs :=
  ⟨hzs.length_le.trans h.few, fun y hy s hs => h.recent y hy s (hzs.subset hs)⟩

/-- What stays in the window of a later sample was in the window before. -/
theorem InWindow.before {n : Nat} {maxAge : UInt64} {last : Option TrendSample} {x : TrendSample}
    {zs : List TrendSample} (hlast : ∀ y ∈ last, y.tMs ≤ x.tMs)
    (h : InWindow n maxAge (some x) (zs ++ [x])) :
    InWindow n maxAge last zs ∧ ∀ s ∈ zs, expired maxAge x s = false := by
  obtain ⟨hfresh, hfew⟩ := inWindow_some_iff.mp h
  have hfresh' : ∀ s ∈ zs, expired maxAge x s = false := fun s hs =>
    hfresh s (List.mem_append_left _ hs)
  rw [List.length_append] at hfew
  refine ⟨⟨by omega, ?_⟩, hfresh'⟩
  intro y hy s hs
  have hle := UInt64.le_iff_toNat_le.mp (hlast y hy)
  have hs' := expired_eq_false_iff.mp (hfresh' s hs)
  omega

/-- **One sample more**: of the longest suffix in the window, `add_sample` makes the
longest one in the window of the new sample. -/
theorem TrendEstimator.longestSuffix_addSample {e : TrendEstimator} {added : List TrendSample}
    {x : TrendSample} (horder : SamplesInOrder (added ++ [x]))
    (h : LongestSuffix (InWindow e.windowSamples e.maxWindowAgeMs added.getLast?) added e.samples) :
    LongestSuffix (InWindow e.windowSamples e.maxWindowAgeMs (some x)) (added ++ [x])
      (e.addSample x.committed x.tMs).samples := by
  obtain ⟨hsorted, -, hlast⟩ := List.pairwise_append.mp horder
  -- by age, before the sample comes in
  have hage := longestSuffix_dropWhile
    (SamplesInOrder.expired (hsorted.sublist h.suffix.sublist) e.maxWindowAgeMs x)
  have hkept := h.narrow (fun zs => h.holds.suffix) hage
  -- by count, after it
  have hfresh : ∀ s ∈ e.samples.dropWhile (expired e.maxWindowAgeMs x) ++ [x],
      expired e.maxWindowAgeMs x s = false := by
    rw [List.forall_mem_append, List.forall_mem_singleton]
    exact ⟨hage.holds, expired_eq_false_iff.mpr (Nat.sub_le _ _)⟩
  have hcount := (LongestSuffix.self hfresh).narrow
    (fun zs hzs s hs => hfresh s (hzs.subset hs)) (longestSuffix_drop e.windowSamples _)
  refine hkept.concat (fun zs => InWindow.before ?_) (hcount.congr fun zs => ?_)
  · intro y hy
    exact hlast y (List.mem_of_getLast? hy) x (List.mem_singleton_self x)
  · exact inWindow_some_iff.symm

/-! ## Any calls -/

namespace TrendEstimator

theorem calls_concat (e : TrendEstimator) (ops : List TrendOp) (op : TrendOp) :
    e.calls (ops ++ [op]) = (e.calls ops).call op := by
  rw [calls, calls, List.foldl_append]
  rfl

/-- The configuration stays. -/
theorem calls_config (e : TrendEstimator) (ops : List TrendOp) :
    (e.calls ops).windowSamples = e.windowSamples ∧
      (e.calls ops).maxWindowAgeMs = e.maxWindowAgeMs := by
  induction ops using List.reverseRecOn with
  | nil => exact ⟨rfl, rfl⟩
  | append_singleton ops op ih =>
    rw [calls_concat]
    cases op with
    | addSample committed timestampMs => exact ih
    | reset => exact ih

end TrendEstimator

theorem sinceReset_addSample (ops : List TrendOp) (committed timestampMs : UInt64) :
    sinceReset (ops ++ [.addSample committed timestampMs])
      = sinceReset ops ++ [⟨timestampMs, committed⟩] := by
  rw [sinceReset, sinceReset, List.foldl_append]
  rfl

theorem sinceReset_reset (ops : List TrendOp) : sinceReset (ops ++ [.reset]) = [] := by
  rw [sinceReset, List.foldl_append]
  rfl

/-- **The trend window is the recent history**: whatever was called on a new estimator, if
the timestamps added since the last reset do not go back, it keeps the longest suffix of
these samples that is in the window of the last one. The window of a sample holds at most
`window_samples` samples, none of them older than `max_window_age_ms` before it. -/
theorem window_longest_suffix (windowSamples : Nat) (maxWindowAgeMs : UInt64)
    (ops : List TrendOp) (horder : SamplesInOrder (sinceReset ops)) :
    LongestSuffix (InWindow windowSamples maxWindowAgeMs (sinceReset ops).getLast?)
      (sinceReset ops)
      (TrendEstimator.calls { windowSamples := windowSamples, maxWindowAgeMs := maxWindowAgeMs }
        ops).samples := by
  let e : TrendEstimator := { windowSamples := windowSamples, maxWindowAgeMs := maxWindowAgeMs }
  have hempty : LongestSuffix (InWindow windowSamples maxWindowAgeMs none) [] [] :=
    .self ⟨Nat.zero_le _, nofun⟩
  induction ops using List.reverseRecOn with
  | nil => exact hempty
  | append_singleton ops op ih =>
    rw [TrendEstimator.calls_concat]
    cases op with
    | reset =>
      rw [sinceReset_reset]
      exact hempty
    | addSample committed timestampMs =>
      rw [sinceReset_addSample] at horder ⊢
      have hwindow : (e.calls ops).windowSamples = windowSamples := (e.calls_config ops).1
      have hage : (e.calls ops).maxWindowAgeMs = maxWindowAgeMs := (e.calls_config ops).2
      have h := TrendEstimator.longestSuffix_addSample (e := e.calls ops) horder
      rw [hwindow, hage] at h
      rw [List.getLast?_concat]
      exact h (ih (List.pairwise_append.mp horder).1)

/-- A window of two samples and 100 ms: of three samples within 100 ms the last two
are kept, and of these only the one within 100 ms of a fourth. -/
theorem window_longest_suffix_kept :
    let ops : List TrendOp := [.addSample 5 1000, .reset, .addSample 1 0, .addSample 2 50,
      .addSample 3 50, .addSample 4 150]
    sinceReset ops = [⟨0, 1⟩, ⟨50, 2⟩, ⟨50, 3⟩, ⟨150, 4⟩] ∧
      LongestSuffix (InWindow 2 100 (some ⟨150, 4⟩)) (sinceReset ops) [⟨50, 3⟩, ⟨150, 4⟩] := by
  intro ops
  exact ⟨rfl, window_longest_suffix 2 100 ops (by unfold SamplesInOrder; decide)⟩

end MemoryPressure
