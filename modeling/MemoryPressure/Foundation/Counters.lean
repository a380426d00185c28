import MemoryPressure.Foundation.Machine
import Mathlib.Algebra.BigOperators.Group.List.Basic
import Mathlib.Algebra.GroupWithZero.Nat
import Mathlib.Data.List.Range

/-!
# Counters and numbers

What a machine does with counters of its own, over whole runs. The machines are those
of `Foundation/Machine.lean`; a counter is any function of their state.

**Counters that accumulate.** A counter of this kind grows with each step by what the
label of the step weighs and by what its outputs weigh, in any commutative monoid. Then
after a run it holds the sum over the labels and over the outputs of the run
(`count_run`), which is what it means for telemetry to account for a run: the state can
be forgotten, what was asked for and what was put out say it all.

**Counters that pay for each other.** Where every step spends no more than it earns
plus what it is paid for its outputs, no run does (`spend_run`). This is the amortized
form: a step may save now, and what it saved counts as spent only later.

**Numbers.** A counter may also hand out numbers, one for each thing a step puts out
(`Numbers`); a step may number things that it then does not put out, which leaves a gap.

- `numbers_run`: the numbers of a run increase, and none is above the counter.
- `numbers_range_iff`: they are all the numbers that the counter passes exactly when no
  step leaves a gap (`NoGap`).

All three are inductions over the labels from what one step does, and all of them take
the per-step facts under an invariant or along a property of the run, so that a user
proves them once for each step.
-/

namespace Machine

universe u v w

variable {σ : Type u} {α : Type v} {ω : Type w} (step : σ → α → σ × List ω)

/-! ## Counters -/

/-- Counting is summing one for each. -/
theorem sum_indicator (p : α → Bool) (l : List α) :
    (l.map fun a => if p a then 1 else 0).sum = l.countP p := by
  induction l with
  | nil => rfl
  | cons a l ih => rw [List.map_cons, List.sum_cons, ih, List.countP_cons, Nat.add_comm]

/-- Counting by cases that exclude each other. -/
theorem countP_split {p q r : α → Bool} {l : List α}
    (h : ∀ a ∈ l, p a = (q a || r a) ∧ (q a && r a) = false) :
    l.countP p = l.countP q + l.countP r := by
  rw [← sum_indicator, ← sum_indicator, ← sum_indicator, ← List.sum_map_add]
  refine congrArg List.sum (List.map_congr_left fun a ha => ?_)
  obtain ⟨hp, hone⟩ := h a ha
  rw [hp]
  cases hq : q a <;> cases hr : r a <;> simp_all

/-- **A counter accounts for the run**: what every step adds for its label and for
what it puts out is what the run has added. -/
theorem count_run {M : Type*} [AddCommMonoid M] (count : σ → M) (label : α → M) (output : ω → M)
    {I : σ → Prop} {s : σ} {as : List α}
    (hkeep : ∀ s, ∀ a ∈ as, I s → I (step s a).1)
    (hstep : ∀ s, ∀ a ∈ as, I s →
      count (step s a).1 = count s + (label a + ((step s a).2.map output).sum)) (h : I s) :
    count (run step s as)
      = count s + ((as.map label).sum + ((outputs step s as).map output).sum) := by
  induction as generalizing s with
  | nil => simp
  | cons a as ih =>
    have hhead := hstep s a (List.mem_cons_self ..) h
    have htail := ih (fun s b hb => hkeep s b (List.mem_cons_of_mem a hb))
      (fun s b hb => hstep s b (List.mem_cons_of_mem a hb)) (hkeep s a (List.mem_cons_self ..) h)
    rw [run_cons, htail, hhead, List.map_cons, List.sum_cons, outputs_cons, List.map_append,
      List.sum_append, add_assoc, add_add_add_comm]

/-- **A run spends what it has**: where no step spends more than it earns and is paid
for what it puts out, no run does. What is saved on the way counts as spent. -/
theorem spend_run (spent earned : σ → Nat) (paid : ω → Nat) {I : σ → Prop} {Q : σ → α → Prop}
    {s : σ} {as : List α} (hkeep : ∀ s a, Q s a → I s → I (step s a).1)
    (hstep : ∀ s a, Q s a → I s → spent (step s a).1 + earned s
      ≤ spent s + earned (step s a).1 + ((step s a).2.map paid).sum)
    (hq : Along step Q s as) (h : I s) :
    spent (run step s as) + earned s
      ≤ spent s + earned (run step s as) + ((outputs step s as).map paid).sum := by
  induction as generalizing s with
  | nil => exact Nat.le_add_right ..
  | cons a as ih =>
    have hhead := hstep s a hq.1 h
    have htail := ih hq.2 (hkeep s a hq.1 h)
    rw [run_cons, outputs_cons, List.map_append, List.sum_append]
    omega

/-! ## Numbers -/

/-- A step takes the numbers of what it puts out from its counter, one after the
other, and may leave a gap behind them. -/
structure Numbers (count : σ → Nat) (numbers : ω → List Nat) (s : σ) (a : α) : Prop where
  range : (step s a).2.flatMap numbers
    = List.range' (count s + 1) ((step s a).2.flatMap numbers).length
  le : count s + ((step s a).2.flatMap numbers).length ≤ count (step s a).1

/-- The step leaves no gap. -/
def NoGap (count : σ → Nat) (numbers : ω → List Nat) (s : σ) (a : α) : Prop :=
  count (step s a).1 = count s + ((step s a).2.flatMap numbers).length

variable {step} {count : σ → Nat} {numbers : ω → List Nat}

/-- **Numbers increase**: those of a run are above the counter it started with, at
most the counter it ends with, and increasing. -/
theorem numbers_run {s : σ} {as : List α}
    (hstep : ∀ s, ∀ a ∈ as, Numbers step count numbers s a) :
    ((outputs step s as).flatMap numbers).Pairwise (· < ·) ∧
      (∀ n ∈ (outputs step s as).flatMap numbers, count s < n ∧ n ≤ count (run step s as)) ∧
      count s + ((outputs step s as).flatMap numbers).length ≤ count (run step s as) := by
  induction as generalizing s with
  | nil => simp
  | cons a as ih =>
    have hhead := hstep s a (List.mem_cons_self ..)
    obtain ⟨hlt, hbounds, hlen⟩ := ih (s := (step s a).1)
      fun s b hb => hstep s b (List.mem_cons_of_mem a hb)
    have hmem : ∀ n ∈ (step s a).2.flatMap numbers,
        count s < n ∧ n ≤ count (step s a).1 := by
      intro n hn
      rw [hhead.range, List.mem_range'_1] at hn
      have hle := hhead.le
      omega
    rw [outputs_cons, List.flatMap_append, List.length_append, run_cons]
    refine ⟨List.pairwise_append.mpr ⟨?_, hlt, fun m hm n hn => ?_⟩, ?_, ?_⟩
    · rw [hhead.range]
      exact List.pairwise_lt_range'
    · exact lt_of_le_of_lt (hmem m hm).2 (hbounds n hn).1
    · intro n hn
      have hle := hhead.le
      rcases List.mem_append.mp hn with hnow | hlater
      · exact ⟨(hmem n hnow).1, by have := (hmem n hnow).2; omega⟩
      · exact ⟨by have := (hbounds n hlater).1; omega, (hbounds n hlater).2⟩
    · have hle := hhead.le
      omega

/-- **Numbers without gaps**: a run uses every number its counter passes exactly
when each of its steps does. -/
theorem numbers_range_iff {s : σ} {as : List α}
    (hstep : ∀ s, ∀ a ∈ as, Numbers step count numbers s a) :
    (outputs step s as).flatMap numbers
        = List.range' (count s + 1) (count (run step s as) - count s)
      ↔ Along step (NoGap step count numbers) s as := by
  induction as generalizing s with
  | nil => simp
  | cons a as ih =>
    have hhead := hstep s a (List.mem_cons_self ..)
    have htail := numbers_run (s := (step s a).1)
      fun s b hb => hstep s b (List.mem_cons_of_mem a hb)
    have hnext := ih (s := (step s a).1) fun s b hb => hstep s b (List.mem_cons_of_mem a hb)
    rw [outputs_cons, List.flatMap_append, run_cons, along_cons, ← hnext]
    have hle := hhead.le
    have hrest := htail.2.2
    constructor
    · intro hall
      have hlen := congrArg List.length hall
      rw [List.length_append, List.length_range'] at hlen
      have hgap : count (step s a).1 = count s + ((step s a).2.flatMap numbers).length := by omega
      refine ⟨hgap, ?_⟩
      have hsplit : count (run step (step s a).1 as) - count s
          = ((step s a).2.flatMap numbers).length
            + (count (run step (step s a).1 as) - count (step s a).1) := by omega
      rw [hsplit, ← List.range'_append_1, ← hhead.range] at hall
      have hmore := List.append_cancel_left hall
      rw [hgap, ← hgap, show count s + 1 + ((step s a).2.flatMap numbers).length
        = count (step s a).1 + 1 by omega] at hmore
      exact hmore
    · rintro ⟨hgap, hmore⟩
      have hgap' : count (step s a).1 = count s + ((step s a).2.flatMap numbers).length := hgap
      have hsplit : count (run step (step s a).1 as) - count s
          = ((step s a).2.flatMap numbers).length
            + (count (run step (step s a).1 as) - count (step s a).1) := by omega
      rw [hsplit, ← List.range'_append_1, ← hhead.range, hmore,
        show count s + 1 + ((step s a).2.flatMap numbers).length = count (step s a).1 + 1 by omega]

end Machine
